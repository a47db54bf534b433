import TruenasMiddleware.Jobs.Deque

/-!
The registry `job_locks` and the sets of jobs in its locks. `handle_lock` enters
the job before the limit is checked, and only `release_lock` takes a job out, so
a job that never gets into the queue stays in the table for good.
-/

namespace TruenasMiddleware.Jobs

open Transition JobsQueue Function Finset

def TableKept (q r : JobsQueue) : Prop :=
  r.jobLocks = q.jobLocks ∧ ∀ name l, q.jobLocks name = some l → (r.locks l).jobs = (q.locks l).jobs

def lockFor (q : JobsQueue) (name : String) : LockRef := (q.jobLocks name).getD q.lockCount

def jobsFor (q : JobsQueue) (name : String) : Finset JobRef :=
  if (q.jobLocks name).isSome then (q.locks (lockFor q name)).jobs else ∅

structure Handled (q r : JobsQueue) (j : JobRef) (name : String) : Prop where
  jobLocks : r.jobLocks = update q.jobLocks name (some (lockFor q name))
  own : (r.locks (lockFor q name)).jobs = insert j (jobsFor q name)
  other : ∀ m, m ≠ lockFor q name → (r.locks m).jobs = (q.locks m).jobs
  pointer : (r.jobs j).lock = some (lockFor q name)
  jobs : ∀ k, k ≠ j → r.jobs k = q.jobs k
  handedOut : (r.jobs j).handedOut = (q.jobs j).handedOut
  queue : r.queue = q.queue
  jobCount : r.jobCount = q.jobCount

theorem handled (q : JobsQueue) (j : JobRef) (name : String) :
    Handled q (q.handleLock j (some name)) j name := by
  cases found : q.jobLocks name with
  | none =>
    have target : lockFor q name = q.lockCount := by simp [lockFor, found]
    have before : jobsFor q name = ∅ := by simp [jobsFor, found]
    constructor <;> simp +contextual [handleLock, registerLock, found, target, before,
        setJob, setLock, JobSharedLock.addJob]
  | some l =>
    have target : lockFor q name = l := by simp [lockFor, found]
    have before : jobsFor q name = (q.locks l).jobs := by simp [jobsFor, found, target]
    have eq : update q.jobLocks name (some l) = q.jobLocks :=
      found ▸ update_eq_self name q.jobLocks
    constructor <;> simp +contextual [handleLock, registerLock, found, target, before, eq,
        setJob, setLock, JobSharedLock.addJob]

/-- What a step does to the registry, the job sets and the jobs that have a lock. -/
inductive TableStep (q q' : JobsQueue) : Label → Prop
  | kept {a : Label} (jobLocks : q'.jobLocks = q.jobLocks)
      (members : ∀ l, (q'.locks l).jobs = (q.locks l).jobs) (jobCount : q.jobCount ≤ q'.jobCount)
      (used : ∀ j l, q.InUse j → (q.jobs j).lock = some l →
        q'.InUse j ∧ (q'.jobs j).lock = some l) : TableStep q q' a
  | handled (spec : JobSpec) (info : Option AuditInfo) (name : String)
      (named : spec.getLockName = .ok (some name))
      (jobLocks : q'.jobLocks = update q.jobLocks name (some (lockFor q name)))
      (own : (q'.locks (lockFor q name)).jobs = insert q.jobCount (jobsFor q name))
      (other : ∀ m, m ≠ lockFor q name → (q'.locks m).jobs = (q.locks m).jobs)
      (jobCount : q'.jobCount = q.jobCount + 1)
      (used : ∀ j l, q.InUse j → (q.jobs j).lock = some l → q'.InUse j ∧ (q'.jobs j).lock = some l)
      (joined : q.jobCount ∈ (q.add (submitted q spec info)).1.queue →
        q'.InUse q.jobCount ∧ (q'.jobs q.jobCount).lock = some (lockFor q name)) :
      TableStep q q' (.submit spec info)
  | released (j : JobRef) (outcome : Option Raised) (l : LockRef)
      (pointer : (q.jobs j).lock = some l)
      (members : ∀ m, (q'.locks m).jobs = if m = l then (q.locks l).jobs.erase j
        else (q.locks m).jobs)
      (jobLocks : q'.jobLocks = if (q.locks l).jobs.erase j = ∅ then
        update q.jobLocks (q.locks l).name none else q.jobLocks)
      (jobCount : q'.jobCount = q.jobCount)
      (used : ∀ k m, k ≠ j → q.InUse k → (q.jobs k).lock = some m →
        q'.InUse k ∧ (q'.jobs k).lock = some m) : TableStep q q' (.run j outcome)

variable {q r q' : JobsQueue} {a : Label}

theorem enqueue_table (p : JobsQueue) (j : JobRef) :
    (p.enqueue j).1.jobLocks = p.jobLocks ∧ (p.enqueue j).1.locks = p.locks ∧
      (p.enqueue j).1.jobCount = p.jobCount ∧
      (∀ k, Numbered (p.jobs k) ((p.enqueue j).1.jobs k)) ∧
      ∀ k ∈ p.queue, k ∈ (p.enqueue j).1.queue := by
  have ended := enqueue_cases p j
  generalize p.enqueue j = result at ended
  cases ended with
  | rejected => exact ⟨rfl, rfl, rfl, fun k => refl_of Numbered _, fun _ => id⟩
  | coalesced _ same =>
    exact ⟨same.jobLocks, same.locks, same.jobCount, same.job,
      fun k => by rw [same.queue]; exact id⟩
  | appended event =>
    have same := SameQueue.dequeAdd p j
    refine ⟨same.jobLocks, same.locks, same.jobCount, same.job, fun k mem => ?_⟩
    show k ∈ (p.append j).queue
    rw [queue_append]
    exact List.mem_append_left _ mem

variable {j : JobRef} {spec : JobSpec} {l m : LockRef}

theorem LockInv.used_add (inv : LockInv q) (spec : JobSpec) (info : Option AuditInfo)
    (used : q.InUse j) : (q.add (submitted q spec info)).1.InUse j ∧
      ((q.add (submitted q spec info)).1.jobs j).lock = (q.jobs j).lock := by
  obtain ⟨-, eq⟩ | ⟨fresh, -⟩ := add_job inv spec info j
  · refine ⟨used.imp (fun mem => ?_) fun taken => eq.sameJob.handedOut.trans taken, eq.sameJob.lock⟩
    have added : AddResult q (submitted q spec info) _ := inv.add_cases rfl rfl rfl
    obtain prepared | ⟨s, prepared, -, event, result, -⟩ := added
    · rwa [prepared.queue]
    · rw [result]
      show j ∈ (s.append q.jobCount).queue
      rw [queue_append, prepared.queue]
      exact List.mem_append_left _ mem
  · exact absurd fresh (inv.ne_fresh used)

theorem add_nameless (info : Option AuditInfo)
    (nameless : ∀ name, spec.getLockName ≠ .ok (some name)) :
    (q.add (submitted q spec info)).1.jobLocks = q.jobLocks ∧
      (q.add (submitted q spec info)).1.locks = q.locks ∧
      q.jobCount ≤ (q.add (submitted q spec info)).1.jobCount := by
  cases named : spec.getLockName with
  | error e =>
    rw [add_of_error (submitted q spec info) named]
    exact ⟨rfl, rfl, Nat.le_succ _⟩
  | ok name =>
    cases name with
    | some name => exact absurd named (nameless name)
    | none =>
      obtain ⟨jobLocks, locks, jobCount, -⟩ :=
        enqueue_table (q.alloc (submitted q spec info)) q.jobCount
      rw [add_of_ok (submitted q spec info) named]
      exact ⟨jobLocks, locks, jobCount ▸ Nat.le_succ _⟩

variable {name other : String}

theorem add_named (info : Option AuditInfo)
    (named : spec.getLockName = .ok (some name)) :
    (q.add (submitted q spec info)).1.jobLocks = update q.jobLocks name (some (lockFor q name)) ∧
      ((q.add (submitted q spec info)).1.locks (lockFor q name)).jobs =
        insert q.jobCount (jobsFor q name) ∧
      (∀ m, m ≠ lockFor q name →
        ((q.add (submitted q spec info)).1.locks m).jobs = (q.locks m).jobs) ∧
      (q.add (submitted q spec info)).1.jobCount = q.jobCount + 1 ∧
      ((q.add (submitted q spec info)).1.jobs q.jobCount).lock = some (lockFor q name) := by
  have entered := handled (q.alloc (submitted q spec info)) q.jobCount name
  obtain ⟨jobLocks, locks, jobCount, jobs, -⟩ := enqueue_table
    ((q.alloc (submitted q spec info)).handleLock q.jobCount (some name)) q.jobCount
  rw [add_of_ok (submitted q spec info) named]
  refine ⟨jobLocks.trans entered.jobLocks, ?_, fun m different => ?_,
    jobCount.trans entered.jobCount, (jobs q.jobCount).sameJob.lock.trans entered.pointer⟩
  · rw [locks]
    exact entered.own
  · rw [locks]
    exact entered.other m different

theorem LockInv.add_table (inv : LockInv q) (spec : JobSpec) (info : Option AuditInfo) :
    TableStep q (q.add (submitted q spec info)).1 (.submit spec info) := by
  have used : ∀ j l, q.InUse j → (q.jobs j).lock = some l →
      (q.add (submitted q spec info)).1.InUse j ∧
        ((q.add (submitted q spec info)).1.jobs j).lock = some l := fun j l inUse lock =>
    (inv.used_add spec info inUse).imp_right fun eq => eq.trans lock
  by_cases absent : ∀ name, spec.getLockName ≠ .ok (some name)
  · obtain ⟨jobLocks, locks, jobCount⟩ := add_nameless (q := q) info absent
    exact .kept jobLocks (fun l => by rw [locks]) jobCount used
  · simp only [ne_eq, not_forall, not_not] at absent
    obtain ⟨name, named⟩ := absent
    obtain ⟨jobLocks, own, other, jobCount, pointer⟩ := add_named (q := q) info named
    exact .handled spec info name named jobLocks own other jobCount used
      fun queued => ⟨.inl queued, pointer⟩

theorem setLock_lock_jobs (q : JobsQueue) (l : LockRef) (lock : Asyncio.Lock → Asyncio.Lock)
    (m : LockRef) :
    ((q.setLock l fun s => { s with lock := lock s.lock }).locks m).jobs = (q.locks m).jobs := by
  by_cases own : m = l
  · simp [setLock, own]
  · simp [setLock, own]

theorem take_table (q : JobsQueue) (j : JobRef) :
    (q.take j).jobLocks = q.jobLocks ∧ (∀ l, ((q.take j).locks l).jobs = (q.locks l).jobs) ∧
      (q.take j).jobCount = q.jobCount ∧ ∀ k ∈ q.queue, k ≠ j → k ∈ (q.take j).queue := by
  have left : ∀ k ∈ q.queue, k ≠ j → k ∈ q.queue.erase j :=
    fun k mem different => (List.mem_erase_of_ne different).mpr mem
  unfold take
  split
  · exact ⟨rfl, fun _ => rfl, rfl, left⟩
  · rename_i l _
    split
    · refine ⟨rfl, fun m => ?_, rfl, left⟩
      exact setLock_lock_jobs q l (fun _ => _) m
    · refine ⟨rfl, fun m => ?_, rfl, fun k mem _ => mem⟩
      exact setLock_lock_jobs q l Asyncio.Lock.wait m

theorem LockInv.next_table (inv : LockInv q) (taken : q.next = some q') : TableStep q q' .next := by
  obtain ⟨-, ⟨j, found, rfl⟩ | ⟨-, rfl⟩⟩ := inv.next_cases taken
  · obtain ⟨jobLocks, members, jobCount, rest⟩ := take_table q j
    refine .kept jobLocks members jobCount.ge fun k l used lock => ?_
    obtain ⟨r, result, jobs, -⟩ := inv.take_handOut found
    refine ⟨?_, by rw [result, handOut_lock, jobs]; exact lock⟩
    by_cases eq : k = j
    · refine .inr ?_
      rw [result, handOut_handedOut]
      exact .inl eq
    · refine used.imp (fun mem => rest k mem eq) fun taken => ?_
      rw [result, handOut_handedOut, jobs]
      exact .inr taken
  · exact .kept rfl (fun _ => rfl) le_rfl fun _ _ used lock => ⟨used, lock⟩

theorem LockInv.release_table (inv : LockInv q) (outcome : Option Raised)
    (taken : (q.jobs j).handedOut = true) (released : q.releaseLock j = .ok r) :
    TableStep q (r.setJob j fun job => { job with handedOut := false, pc := .setFinished })
      (.run j outcome) := by
  have jobs := inv.releaseLock_jobs taken released
  have kept : ∀ k, k ≠ j → ((r.setJob j fun job =>
      { job with handedOut := false, pc := .setFinished }).jobs k) = q.jobs k :=
    fun k different => by simp [setJob, different, jobs]
  obtain ⟨_, ⟨⟩, ⟨pointer, rfl⟩ | ⟨l, pointer, rfl⟩⟩ := inv.releaseLock_cases taken released
  · refine .kept rfl (fun _ => rfl) le_rfl fun k l used lock => ?_
    have different : k ≠ j := by
      rintro rfl
      simp [pointer] at lock
    rw [JobsQueue.InUse, kept k different]
    exact ⟨used, lock⟩
  · refine .released j outcome l pointer (fun m => ?_) rfl rfl fun k m different used lock => ?_
    · by_cases own : m = l
      · simp [setJob, own]
      · simp [setJob, own]
    · rw [JobsQueue.InUse, kept k different]
      exact ⟨used, lock⟩

theorem LockInv.table_step (inv : LockInv q) (taken : Jobs.step q a = some q') :
    TableStep q q' a := by
  cases step_cases taken with
  | frame eq =>
    refine .kept eq.jobLocks (fun l => by rw [eq.locks]) eq.jobCount.ge ?_
    intro j l used lock
    exact ⟨(eq.inUse (eq.job j).handedOut).mpr used, (eq.job j).lock.trans lock⟩
  | submit spec info eq =>
    have moves : ∀ j l, (q.add (submitted q spec info)).1.InUse j ∧
        ((q.add (submitted q spec info)).1.jobs j).lock = some l →
        q'.InUse j ∧ (q'.jobs j).lock = some l := fun j l before =>
      ⟨(eq.inUse (eq.job j).handedOut).mpr before.1, (eq.job j).lock.trans before.2⟩
    cases inv.add_table spec info with
    | kept jobLocks members jobCount used =>
      refine .kept (eq.jobLocks.trans jobLocks) (fun l => ?_) ?_
        fun j l before lock => moves j l (used j l before lock)
      · rw [eq.locks, members]
      · rw [eq.jobCount]
        exact jobCount
    | handled spec info name named jobLocks own other jobCount used joined =>
      refine .handled spec info name named (eq.jobLocks.trans jobLocks) ?_ ?_
        (eq.jobCount.trans jobCount) (fun j l before lock => moves j l (used j l before lock))
        fun queued => moves _ _ (joined queued)
      · rw [eq.locks, own]
      · intro m different
        rw [eq.locks, other m different]
  | next taken => exact inv.next_table taken
  | release j outcome r pc released =>
    exact inv.release_table outcome (inv.releasing pc) released
  | releaseRaised j outcome r pc raised => exact absurd raised (inv.releaseLock_ne_error pc r)

theorem LockInv.ne_lockFor (inv : LockInv q)
    (different : other ≠ name) (found : q.jobLocks other = some l) : l ≠ lockFor q name := by
  obtain ⟨known, named⟩ := inv.named other l found
  rintro rfl
  cases own : q.jobLocks name with
  | none => simp [lockFor, own] at known
  | some m =>
    have target : lockFor q name = m := by simp [lockFor, own]
    rw [target] at named
    exact different (named.symm.trans (inv.named name m own).2)

theorem mem_jobsFor :
    j ∈ jobsFor q name ↔ ∃ l, q.jobLocks name = some l ∧ j ∈ (q.locks l).jobs := by
  cases found : q.jobLocks name with
  | none => simp [jobsFor, found]
  | some l => simp [jobsFor, lockFor, found]

theorem registered_of_released (jobLocks : q'.jobLocks = if (q.locks l).jobs.erase j = ∅ then
      update q.jobLocks (q.locks l).name none else q.jobLocks)
    (found : q'.jobLocks name = some m) : q.jobLocks name = some m ∧
      (name = (q.locks l).name → (q.locks l).jobs.erase j ≠ ∅) := by
  rw [jobLocks] at found
  split_ifs at found with last
  · by_cases own : name = (q.locks l).name
    · simp [own] at found
    · exact ⟨by simpa [own] using found, fun eq => absurd eq own⟩
  · exact ⟨found, fun _ => last⟩

def TableKnown (q : JobsQueue) : Prop :=
  ∀ name l, q.jobLocks name = some l → ∀ j ∈ (q.locks l).jobs, j < q.jobCount

theorem TableKnown.step (known : TableKnown q) (inv : LockInv q)
    (taken : Jobs.step q a = some q') : TableKnown q' := by
  intro name l found j mem
  cases inv.table_step taken with
  | kept jobLocks members jobCount =>
    rw [jobLocks] at found
    rw [members] at mem
    exact (known name l found j mem).trans_le jobCount
  | handled spec info own named jobLocks ownJobs other jobCount =>
    rw [jobCount]
    by_cases eq : name = own
    · obtain rfl : lockFor q own = l := by simpa [jobLocks, eq] using found
      rw [ownJobs, mem_insert, mem_jobsFor] at mem
      obtain rfl | ⟨m, registered, mem⟩ := mem
      · exact Nat.lt_succ_self _
      · exact (known own m registered j mem).trans (Nat.lt_succ_self _)
    · rw [jobLocks, update_of_ne eq] at found
      rw [other l (inv.ne_lockFor eq found)] at mem
      exact (known name l found j mem).trans (Nat.lt_succ_self _)
  | released k outcome m pointer members jobLocks jobCount =>
    obtain ⟨before, -⟩ := registered_of_released jobLocks found
    rw [members] at mem
    rw [jobCount]
    split_ifs at mem with eq
    · exact known name l before j (eq ▸ mem_of_mem_erase mem)
    · exact known name l before j mem

theorem TableKnown.reach {ok : JobsQueue → Label → Prop} (reached : Reach Jobs.step ok {} q) :
    TableKnown q :=
  reached.invariant_of_reach (by simp [TableKnown]) fun _ _ _ before known _ taken =>
    known.step (LockInv.reach before) taken

/-- The limit of the lock lets a job in: no job that has the lock runs, where none may wait, or
fewer wait than may. -/
def HasRoom (q : JobsQueue) (spec : JobSpec) (name : String) : Prop :=
  match spec.options.lockQueueSize with
  | none => True
  | some size =>
    if size = 0 then ∀ entry ∈ q.dict, (q.jobs entry.2).state = .running →
      (q.jobs entry.2).lock ≠ some (lockFor q name)
    else ((q.queue.filter fun k => (q.jobs k).lock = some (lockFor q name)).length : Int) < size

instance (q : JobsQueue) (spec : JobSpec) (name : String) : Decidable (HasRoom q spec name) := by
  unfold HasRoom
  split <;> infer_instance

/-- A job with a lock name comes when the lock has room for it. -/
def Enlisted (q : JobsQueue) : Label → Prop
  | .submit spec _ =>
    match spec.getLockName with
    | .ok (some name) => HasRoom q spec name
    | .ok none | .error _ => True
  | .next | .run .. | .abort _ | .abortLine .. => True

instance (q : JobsQueue) (a : Label) : Decidable (Enlisted q a) := by
  unfold Enlisted
  repeat' split
  all_goals infer_instance

theorem LockInv.admission_of_room (inv : LockInv q) (info : Option AuditInfo)
    (named : spec.getLockName = .ok (some name)) (room : HasRoom q spec name) :
    ((q.alloc (submitted q spec info)).handleLock q.jobCount (some name)).admission q.jobCount =
      .append := by
  have entered := handled (q.alloc (submitted q spec info)) q.jobCount name
  obtain ⟨prepared, -⟩ : Prepared q ((q.alloc (submitted q spec info)).handleLock q.jobCount
      (some name)) (submitted q spec info) q.jobCount ∧ _ := inv.handleLock rfl rfl rfl named
  have dict : ((q.alloc (submitted q spec info)).handleLock q.jobCount (some name)).dict = q.dict :=
    (SameDict.handleLock _ _ _).dict
  generalize (q.alloc (submitted q spec info)).handleLock q.jobCount (some name) = s
    at entered prepared dict ⊢
  have other : ∀ k, k ≠ q.jobCount → s.jobs k = q.jobs k := fun k different => by
    rw [entered.jobs k different]
    simp [JobsQueue.alloc, different]
  have queued : s.queuedJobs q.jobCount =
      q.queue.filter fun k => (q.jobs k).lock = some (lockFor q name) := by
    rw [queuedJobs, prepared.queue, entered.pointer]
    refine List.filter_congr fun k mem => ?_
    rw [other k (inv.ne_fresh (.inl mem))]
    rfl
  have running : (∀ entry ∈ q.dict, (q.jobs entry.2).state = .running →
      (q.jobs entry.2).lock ≠ some (lockFor q name)) → s.runningJob q.jobCount = false := by
    intro free
    rw [runningJob, dict, List.any_eq_false]
    intro entry mem
    rw [decide_eq_true_eq, entered.pointer]
    rintro ⟨runs, lock⟩
    by_cases new : entry.2 = q.jobCount
    · -- the new job itself waits
      obtain ⟨_, _, own⟩ := prepared.own
      rw [new, own] at runs
      exact absurd runs (by simp [submitted, Job.create])
    · rw [other _ new] at runs lock
      exact free entry mem runs lock
  unfold HasRoom at room
  rw [admission, prepared.own.sameJob.spec, queued]
  change (match spec.options.lockQueueSize with | none => _ | some size => _) = _
  split
  · rfl
  case _ size limit =>
    rw [limit] at room
    dsimp only at room
    split_ifs at room with none_waits
    · simp [none_waits, running room]
    · rw [if_neg none_waits, if_neg (by omega)]

theorem LockInv.enlist (inv : LockInv q) (info : Option AuditInfo)
    (named : spec.getLockName = .ok (some name)) (room : HasRoom q spec name) :
    q.jobCount ∈ (q.add (submitted q spec info)).1.queue := by
  rw [add_of_ok (submitted q spec info) named, enqueue, inv.admission_of_room info named room]
  dsimp only
  split_ifs
  all_goals
    show _ ∈ (JobsQueue.append _ _).queue
    rw [queue_append]
    exact List.mem_append_right _ (List.mem_singleton_self _)

/-- Every registered lock has users, and those it lists are waiting or handed out. -/
def Tidy (q : JobsQueue) : Prop :=
  ∀ name l, q.jobLocks name = some l → (q.locks l).jobs ≠ ∅ ∧
    ∀ j ∈ (q.locks l).jobs, q.InUse j ∧ (q.jobs j).lock = some l

theorem Tidy.step (tidy : Tidy q) (inv : LockInv q) (enlisted : Enlisted q a)
    (taken : Jobs.step q a = some q') : Tidy q' := by
  intro name l found
  cases inv.table_step taken with
  | kept jobLocks members jobCount used =>
    rw [jobLocks] at found
    rw [members]
    obtain ⟨nonempty, listed⟩ := tidy name l found
    exact ⟨nonempty, fun j mem => used j l (listed j mem).1 (listed j mem).2⟩
  | handled spec info own named jobLocks ownJobs other jobCount used joined =>
    by_cases eq : name = own
    · obtain rfl : lockFor q own = l := by simpa [jobLocks, eq] using found
      rw [ownJobs]
      refine ⟨insert_ne_empty _ _, fun j mem => ?_⟩
      rw [mem_insert, mem_jobsFor] at mem
      obtain rfl | ⟨m, registered, mem⟩ := mem
      · simp only [Enlisted, named] at enlisted
        exact joined (inv.enlist info named enlisted)
      · have target : lockFor q own = m := by simp [lockFor, registered]
        obtain ⟨inUse, lock⟩ := (tidy own m registered).2 j mem
        rw [target]
        exact used j m inUse lock
    · rw [jobLocks, update_of_ne eq] at found
      rw [other l (inv.ne_lockFor eq found)]
      obtain ⟨nonempty, listed⟩ := tidy name l found
      exact ⟨nonempty, fun j mem => used j l (listed j mem).1 (listed j mem).2⟩
  | released k outcome m pointer members jobLocks jobCount used =>
    obtain ⟨before, kept⟩ := registered_of_released jobLocks found
    obtain ⟨nonempty, listed⟩ := tidy name l before
    rw [members]
    split_ifs with eq
    · subst eq
      refine ⟨kept (inv.named name l before).2.symm, fun j mem => ?_⟩
      obtain ⟨different, mem⟩ := mem_erase.mp mem
      exact used j l different (listed j mem).1 (listed j mem).2
    · refine ⟨nonempty, fun j mem => ?_⟩
      obtain ⟨inUse, lock⟩ := listed j mem
      refine used j l ?_ inUse lock
      rintro rfl
      exact eq (Option.some.inj (lock.symm.trans pointer))

theorem Tidy.reach (reached : Reach Jobs.step Enlisted {} q) : Tidy q :=
  reached.invariant_of_reach (by simp [Tidy]) fun _ _ _ before tidy enlisted taken =>
    tidy.step (LockInv.reach before) enlisted taken

theorem Job.Phase.unfinished {job : Job} (phase : job.Phase) (handedOut : job.handedOut = true) :
    job.finished = false := by
  unfold Job.Phase at phase
  split at phase <;> first | exact phase.1 | skip
  · exact absurd phase.1 (by simp [handedOut])
  · exact absurd phase.1 (by simp [handedOut])
  · exact absurd phase.1 (by simp [handedOut])
  · exact Bool.eq_false_of_not_eq_true fun finished => by
      rw [phase.2 finished] at handedOut
      cases handedOut

theorem TableKnown.tableKept_iff (known : TableKnown q) (spec : JobSpec) (info : Option AuditInfo) :
    TableKept q (q.add (submitted q spec info)).1 ↔ ∀ name, spec.getLockName ≠ .ok (some name) := by
  constructor
  · rintro ⟨registry, members⟩ name named
    obtain ⟨jobLocks, own, -⟩ := add_named (q := q) info named
    cases found : q.jobLocks name with
    | none =>
      have entered := congrFun (registry.symm.trans jobLocks) name
      simp [found] at entered
    | some l =>
      have target : lockFor q name = l := by simp [lockFor, found]
      have fresh : q.jobCount ∈ (q.locks l).jobs := by
        rw [← members name l found, ← target, own]
        exact mem_insert_self _ _
      exact absurd (known name l found _ fresh) (lt_irrefl _)
  · intro nameless
    obtain ⟨jobLocks, locks, -⟩ := add_nameless (q := q) info nameless
    exact ⟨jobLocks, fun _ l _ => by rw [locks]⟩

/-- When `add` raises or returns another job, it leaves the lock table alone exactly
if the new job has no lock name. In the runs where every job with a lock name
gets into the queue, a name is registered only as long as a job of that name is
queued, or started and not finished. -/
theorem lock_table (q : JobsQueue) : (Reach step Always {} q → ∀ spec info,
      (q.add (submitted q spec info)).2 ≠ .ok q.jobCount →
      (TableKept q (q.add (submitted q spec info)).1 ↔
        ∀ name, spec.getLockName ≠ .ok (some name))) ∧
    (Reach step Enlisted {} q → ∀ name l, q.jobLocks name = some l →
      ∃ j, (q.jobs j).spec.getLockName = .ok (some name) ∧
        (j ∈ q.queue ∨ (q.jobs j).handedOut = true ∧ (q.jobs j).finished = false)) := by
  constructor
  · intro reached spec info _
    exact TableKnown.tableKept_iff (TableKnown.reach reached) spec info
  · intro reached name l found
    have inv := LockInv.reach reached
    obtain ⟨nonempty, listed⟩ := Tidy.reach reached name l found
    obtain ⟨j, member⟩ := nonempty_iff_ne_empty.mpr nonempty
    obtain ⟨used, lock⟩ := listed j member
    refine ⟨j, ?_, used.imp_right fun taken => ⟨taken, (reach_phase reached j).unfinished taken⟩⟩
    rw [(inv.uses j used).name, lock, Option.map_some, (inv.named name l found).2]

/-- Of two jobs of one name the first has been handed out and the second waits. -/
theorem lock_table_solo :
    ∃ q, Reach step Enlisted {} q ∧ (q.jobs 0).handedOut = true ∧ q.queue = [1] ∧
      q.jobLocks "tank" = some 0 ∧ ∃ j, (q.jobs j).spec.getLockName = .ok (some "tank") ∧
        (j ∈ q.queue ∨ (q.jobs j).handedOut = true ∧ (q.jobs j).finished = false) := by
  obtain ⟨q, reached, taken, waiting, registered⟩ : ∃ q, Reach step Enlisted {} q ∧
      (q.jobs 0).handedOut = true ∧ q.queue = [1] ∧ q.jobLocks "tank" = some 0 :=
    exists_reach (List.replicate 2 (.submit { options := { lock := .constant (some "tank") } } none)
      ++ [.next]) ⟨_, rfl, rfl, rfl, rfl⟩
  exact ⟨q, reached, taken, waiting, registered, (lock_table q).2 reached "tank" 0 registered⟩

/-- A method with `lock_queue_size=0` is called while it runs: the rejected job is
in the set of the lock. When the running job has finished, the queue is empty and
the name is still registered. -/
theorem lock_table_rejected : ∃ q, Reach step Always {} q ∧ q.queue = [] ∧ (q.jobs 0).pc = .ended ∧
      (q.jobs 0).state = .success ∧ q.jobLocks "tank" = some 0 ∧ (q.locks 0).jobs = {1} := by
  apply exists_reach
    ([.submit { options := { lock := .constant (some "tank"), lockQueueSize := some 0 } } none,
      .next] ++ List.replicate 3 (.run 0 none) ++
      [.submit { options := { lock := .constant (some "tank"), lockQueueSize := some 0 } } none] ++
      List.replicate 13 (.run 0 none))
  exact ⟨_, rfl, rfl, rfl, rfl, rfl, rfl⟩

end TruenasMiddleware.Jobs
