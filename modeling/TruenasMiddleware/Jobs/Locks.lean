import TruenasMiddleware.Foundation.Transition
import TruenasMiddleware.Jobs.Frame

/-! The shared locks over whole runs. A `JobSharedLock` is created when its name
is first used, counted through its set of jobs and dropped from `job_locks` on
the release that empties the set. `LockInv` ties the registry, the queue and
the pointer of every job together; each operation of the queue keeps it. -/

namespace TruenasMiddleware.Jobs

open Transition Function List JobSharedLock

namespace JobsQueue

def InUse (q : JobsQueue) (j : JobRef) : Prop :=
  j ∈ q.queue ∨ (q.jobs j).handedOut = true

/-- The job points at the very lock object registered under its lock name. -/
structure Uses (q : JobsQueue) (j : JobRef) : Prop where
  name : (q.jobs j).spec.getLockName = .ok ((q.jobs j).lock.map fun l => (q.locks l).name)
  member : ∀ l, (q.jobs j).lock = some l → j ∈ (q.locks l).jobs
  registered : ∀ l, (q.jobs j).lock = some l → q.jobLocks (q.locks l).name = some l

theorem Uses.transfer {q r : JobsQueue} {j : JobRef} (uses : q.Uses j)
    (spec : (r.jobs j).spec = (q.jobs j).spec) (lock : (r.jobs j).lock = (q.jobs j).lock)
    (name : ∀ l, (q.jobs j).lock = some l → (r.locks l).name = (q.locks l).name)
    (mem : ∀ l, (q.jobs j).lock = some l → j ∈ (q.locks l).jobs → j ∈ (r.locks l).jobs)
    (registered : ∀ l, (q.jobs j).lock = some l → q.jobLocks (q.locks l).name = some l →
      r.jobLocks (q.locks l).name = some l) : r.Uses j := by
  refine ⟨?_, ?_, ?_⟩
  · rw [spec, lock, uses.name]
    cases pointer : (q.jobs j).lock with
    | none => rfl
    | some l => simp only [Option.map_some, name l pointer]
  · rw [lock]
    exact fun l pointer => mem l pointer (uses.member l pointer)
  · rw [lock]
    intro l pointer
    rw [name l pointer]
    exact registered l pointer (uses.registered l pointer)

end JobsQueue

structure LockInv (q : JobsQueue) : Prop where
  waits : q.scheduler = .waitEvent
  nodup : q.queue.Nodup
  queued : ∀ j ∈ q.queue,
    j < q.jobCount ∧ (q.jobs j).handedOut = false ∧ (q.jobs j).pc = .notStarted
  known : ∀ j, (q.jobs j).handedOut = true → j < q.jobCount
  inFlight : ∀ j, (q.jobs j).pc.inFlight = true → (q.jobs j).handedOut = true
  uses : ∀ j, q.InUse j → q.Uses j
  named : ∀ n l, q.jobLocks n = some l → l < q.lockCount ∧ (q.locks l).name = n
  held : ∀ l, (q.locks l).locked = true ↔
    ∃ j, (q.jobs j).handedOut = true ∧ (q.jobs j).lock = some l
  exclusive : ∀ j k l, (q.jobs j).handedOut = true → (q.jobs k).handedOut = true →
    (q.jobs j).lock = some l → (q.jobs k).lock = some l → j = k
  alone : ∀ l, (q.locks l).lock.waiters = 0

namespace LockInv

variable {q r : JobsQueue} {j : JobRef}

theorem init : LockInv {} where
  waits := rfl
  nodup := nodup_nil
  queued := by simp
  known := by simp [Job.create]
  inFlight := by simp [Job.create, RunPc.inFlight]
  uses := by simp [JobsQueue.InUse, Job.create]
  named := by simp
  held := by simp [Job.create, JobSharedLock.locked]
  exclusive := by simp [Job.create]
  alone := by simp

theorem inUse_known (inv : LockInv q) (used : q.InUse j) : j < q.jobCount :=
  used.elim (fun mem => (inv.queued j mem).1) (inv.known j)

theorem inUse_lock (inv : LockInv q) (used : q.InUse j) {l : LockRef}
    (lock : (q.jobs j).lock = some l) : l < q.lockCount :=
  (inv.named _ l ((inv.uses j used).registered l lock)).1

end LockInv

/-- `r` has what `q` has, and nothing that is new in `r` is in use: the jobs in use and the locks
that they hold are as they were. -/
structure Extends (q r : JobsQueue) : Prop where
  scheduler : r.scheduler = q.scheduler
  queue : r.queue = q.queue
  jobCount : q.jobCount ≤ r.jobCount
  job : ∀ j, q.InUse j → SameJob (q.jobs j) (r.jobs j)
  handedOut : ∀ j, (r.jobs j).handedOut = true → (q.jobs j).handedOut = true
  inFlight : ∀ j, (r.jobs j).pc.inFlight = true → (q.jobs j).pc.inFlight = true
  name : ∀ l < q.lockCount, (r.locks l).name = (q.locks l).name
  members : ∀ l < q.lockCount, (q.locks l).jobs ⊆ (r.locks l).jobs
  registered : ∀ n l, q.jobLocks n = some l → r.jobLocks n = some l
  named : ∀ n l, r.jobLocks n = some l → l < r.lockCount ∧ (r.locks l).name = n
  lock : ∀ l, (r.locks l).lock = (q.locks l).lock

theorem Extends.inUse {q r : JobsQueue} {j : JobRef} (ext : Extends q r) (used : r.InUse j) :
    q.InUse j :=
  used.imp (fun mem => ext.queue ▸ mem) (ext.handedOut j)

namespace LockInv

variable {q r : JobsQueue}

theorem extend (inv : LockInv q) (ext : Extends q r) : LockInv r := by
  have taken : ∀ j, (r.jobs j).handedOut = true → SameJob (q.jobs j) (r.jobs j) :=
    fun j handed => ext.job j (ext.inUse (.inr handed))
  refine ⟨ext.scheduler.trans inv.waits, by rw [ext.queue]; exact inv.nodup, ?_, ?_, ?_, ?_,
    ext.named, ?_, ?_, ?_⟩
  · intro j mem
    rw [ext.queue] at mem
    obtain ⟨known, idle, waiting⟩ := inv.queued j mem
    have job := ext.job j (.inl mem)
    exact ⟨known.trans_le ext.jobCount, job.handedOut.trans idle, job.started.mpr waiting⟩
  · intro j handed
    exact (inv.known j (ext.handedOut j handed)).trans_le ext.jobCount
  · intro j flying
    have handed := inv.inFlight j (ext.inFlight j flying)
    rw [(ext.job j (.inr handed)).handedOut]
    exact handed
  · intro j used
    have before := ext.inUse used
    have job := ext.job j before
    apply (inv.uses j before).transfer job.spec job.lock
    · exact fun l pointer => ext.name l (inv.inUse_lock before pointer)
    · exact fun l pointer mem => ext.members l (inv.inUse_lock before pointer) mem
    · exact fun l _ registered => ext.registered _ l registered
  · intro l
    rw [JobSharedLock.locked, ext.lock]
    refine (inv.held l).trans (exists_congr fun j => ?_)
    by_cases held : (q.jobs j).handedOut = true
    · have job := ext.job j (.inr held)
      rw [job.handedOut, job.lock]
    · simp [held, mt (ext.handedOut j) held]
  · intro j k l first second
    rw [(taken j first).lock, (taken k second).lock]
    exact inv.exclusive j k l (ext.handedOut j first) (ext.handedOut k second)
  · intro l
    rw [ext.lock]
    exact inv.alone l

theorem same (inv : LockInv q) (same : SameQueue SameJob q r) : LockInv r := by
  apply inv.extend
  refine ⟨same.scheduler, same.queue, same.jobCount.ge, fun j _ => same.job j, ?_,
    fun j => (same.job j).inFlight, ?_, ?_, ?_, ?_, ?_⟩
  · intro j handed
    rwa [(same.job j).handedOut] at handed
  · intro l _
    rw [same.locks]
  · intro l _
    rw [same.locks]
  · rw [same.jobLocks]
    exact fun _ _ => id
  · rw [same.jobLocks, same.lockCount, same.locks]
    exact inv.named
  · intro l
    rw [same.locks]

theorem event (inv : LockInv q) (event : Bool) : LockInv { q with queueEvent := event } :=
  ⟨inv.waits, inv.nodup, inv.queued, inv.known, inv.inFlight,
    fun j used => (inv.uses j used).transfer rfl rfl (fun _ _ => rfl) (fun _ _ => id)
      (fun _ _ => id), inv.named, inv.held, inv.exclusive, inv.alone⟩

end LockInv

structure Prepared (q r : JobsQueue) (job : Job) (j : JobRef) : Prop where
  inv : LockInv r
  queue : r.queue = q.queue
  queueEvent : r.queueEvent = q.queueEvent
  jobCount : r.jobCount = j + 1
  own : Numbered { job with lock := (r.jobs j).lock } (r.jobs j)
  other : ∀ k, k ≠ j → Numbered (q.jobs k) (r.jobs k)
  locked : ∀ l < q.lockCount, (r.locks l).locked = (q.locks l).locked

section Submission

variable {q r s : JobsQueue} {job : Job} {k j : JobRef}

section

variable (inv : LockInv q)
include inv

theorem LockInv.fresh_unused : ¬ q.InUse q.jobCount :=
  fun used => (inv.inUse_known used).ne rfl

theorem LockInv.ne_fresh (used : q.InUse k) : k ≠ q.jobCount :=
  (inv.inUse_known used).ne

theorem LockInv.alloc (handedOut : job.handedOut = false)
    (pc : job.pc = .notStarted) : Prepared q (q.alloc job) job q.jobCount := by
  have own : (q.alloc job).jobs q.jobCount = job := by simp [JobsQueue.alloc]
  have other : ∀ k, k ≠ q.jobCount → (q.alloc job).jobs k = q.jobs k := fun k different => by
    simp [JobsQueue.alloc, different]
  have handed : ∀ k, ((q.alloc job).jobs k).handedOut = true ↔ (q.jobs k).handedOut = true := by
    intro k
    by_cases new : k = q.jobCount
    · subst new
      rw [own, handedOut]
      exact iff_of_false Bool.false_ne_true fun old => absurd (inv.known _ old) (lt_irrefl _)
    · rw [other k new]
  have extended : LockInv (q.alloc job) := by
    apply inv.extend
    refine ⟨rfl, rfl, Nat.le_succ _, ?_, fun k => (handed k).mp, ?_, fun _ _ => rfl,
      fun _ _ => Finset.Subset.refl _, fun _ _ => id, inv.named, fun _ => rfl⟩
    · intro k used
      rw [other k (inv.ne_fresh used)]
      exact SameJob.refl _
    · intro k flying
      by_cases new : k = q.jobCount
      · subst new
        rw [own, pc] at flying
        cases flying
      · rwa [other k new] at flying
  exact ⟨extended, rfl, rfl, rfl, by rw [own]; exact refl_of Numbered job,
    fun k different => by rw [other k different]; exact refl_of Numbered _, fun _ _ => rfl⟩

theorem LockInv.unallocated_lock : (q.locks q.lockCount).lock = {} := by
  have free : (q.locks q.lockCount).lock.locked = false := by
    by_contra locked
    obtain ⟨j, taken, pointer⟩ := (inv.held q.lockCount).mp (Bool.eq_true_of_not_eq_false locked)
    exact (inv.inUse_lock (.inr taken) pointer).ne rfl
  have alone := inv.alone q.lockCount
  cases lock : (q.locks q.lockCount).lock with
  | mk locked waiters =>
    rw [lock] at free alone
    obtain rfl : locked = false := free
    obtain rfl : waiters = 0 := alone
    rfl

theorem LockInv.registerLock (name : String) : LockInv (q.registerLock name).1 ∧
      (q.registerLock name).1.jobLocks name = some (q.registerLock name).2 ∧
      (q.registerLock name).1.jobs = q.jobs ∧
      (q.registerLock name).1.queue = q.queue ∧
      (q.registerLock name).1.queueEvent = q.queueEvent ∧
      (q.registerLock name).1.jobCount = q.jobCount ∧
      ∀ l < q.lockCount, (q.registerLock name).1.locks l = q.locks l := by
  unfold JobsQueue.registerLock
  split
  · rename_i l found
    exact ⟨inv, found, rfl, rfl, rfl, rfl, fun _ _ => rfl⟩
  · rename_i absent
    have old : ∀ l < q.lockCount,
        update q.locks q.lockCount { name := name } l = q.locks l := fun l known => by
      simp [known.ne]
    refine ⟨inv.extend ?_, by simp, rfl, rfl, rfl, rfl, old⟩
    refine ⟨rfl, rfl, Nat.le_refl _, fun _ _ => SameJob.refl _, fun _ => id, fun _ => id, ?_, ?_,
      ?_, ?_, ?_⟩
    · intro l known
      simp only [old l known]
    · intro l known
      simp only [old l known]
      exact Finset.Subset.refl _
    · intro n l registered
      have other : n ≠ name := fun same => by
        simp [same, absent] at registered
      simpa only [update_of_ne other] using registered
    · intro n l found
      by_cases own : n = name
      · subst own
        obtain rfl : q.lockCount = l := by simpa using found
        simp
      · simp only [update_of_ne own] at found
        obtain ⟨known, named⟩ := inv.named n l found
        exact ⟨known.trans (Nat.lt_succ_self _), by simpa only [old l known] using named⟩
    · intro l
      by_cases new : l = q.lockCount
      · subst new
        simp only [update_self]
        exact inv.unallocated_lock.symm
      · simp only [update_of_ne new]

theorem LockInv.attach (l : LockRef) (unused : ¬ q.InUse j) :
    LockInv ((q.setLock l (·.addJob j)).setJob j fun job => { job with lock := some l }) := by
  generalize result : JobsQueue.setJob _ j _ = r
  have job : ∀ k, k ≠ j → r.jobs k = q.jobs k := fun k different => by
    simp [← result, JobsQueue.setJob, JobsQueue.setLock, different]
  have own : r.jobs j = { q.jobs j with lock := some l } := by
    simp [← result, JobsQueue.setJob, JobsQueue.setLock]
  have lock : ∀ k, r.locks k = if k = l then (q.locks l).addJob j else q.locks k := fun k => by
    simp [← result, JobsQueue.setJob, JobsQueue.setLock, update_apply]
  have name_eq : ∀ k, (r.locks k).name = (q.locks k).name := fun k => by
    rw [lock k]
    split_ifs with same
    · rw [same]
      rfl
    · rfl
  apply inv.extend
  subst result
  refine ⟨rfl, rfl, Nat.le_refl _, ?_, ?_, ?_, ?_, ?_, fun _ _ => id, ?_, ?_⟩
  · intro k used
    rw [job k fun same => unused (same ▸ used)]
    exact SameJob.refl _
  · intro k handed
    by_cases new : k = j
    · rwa [new, own, ← new] at handed
    · rwa [job k new] at handed
  · intro k flying
    by_cases new : k = j
    · rwa [new, own, ← new] at flying
    · rwa [job k new] at flying
  · exact fun k _ => name_eq k
  · intro k _
    rw [lock k]
    split_ifs with same
    · rw [same]
      exact Finset.subset_insert j _
    · exact Finset.Subset.refl _
  · intro n m found
    rw [name_eq]
    exact inv.named n m found
  · intro k
    rw [lock k]
    split_ifs with same
    · rw [same]
      rfl
    · rfl

theorem LockInv.handleLock {name : Option String} (lock : job.lock = none)
    (handedOut : job.handedOut = false) (pc : job.pc = .notStarted)
    (named : job.spec.getLockName = .ok name) :
    Prepared q ((q.alloc job).handleLock q.jobCount name) job q.jobCount ∧
      ((q.alloc job).handleLock q.jobCount name).Uses q.jobCount := by
  have allocated := inv.alloc handedOut pc
  have new : (q.alloc job).jobs q.jobCount = job := by simp [JobsQueue.alloc]
  cases name with
  | none =>
    refine ⟨allocated, ?_, ?_, ?_⟩
    · simpa [JobsQueue.handleLock, new, lock] using named
    all_goals simp [JobsQueue.handleLock, new, lock]
  | some name =>
    obtain ⟨found, registered, jobs, queue, queueEvent, jobCount, locks⟩ :=
      allocated.inv.registerLock name
    unfold JobsQueue.handleLock
    dsimp only
    generalize (q.alloc job).registerLock name = result
      at found registered jobs queue queueEvent jobCount locks
    obtain ⟨r, l⟩ := result
    dsimp only at found registered jobs queue queueEvent jobCount locks ⊢
    have unused : ¬ r.InUse q.jobCount := by
      simp only [JobsQueue.InUse, queue, jobs, new, handedOut, Bool.false_eq_true, or_false]
      exact fun mem => inv.fresh_unused (.inl mem)
    have attached := found.attach l unused
    have lock_name : (r.locks l).name = name := (found.named name l registered).2
    refine ⟨⟨attached, queue, queueEvent, jobCount, ?_, ?_, ?_⟩, ?_, ?_, ?_⟩
    · simp only [JobsQueue.setJob, JobsQueue.setLock, jobs, new, update_self]
      exact refl_of Numbered _
    · intro k different
      simpa [JobsQueue.setJob, JobsQueue.setLock, jobs, different] using allocated.other k different
    · intro m known
      simp only [JobsQueue.setJob, JobsQueue.setLock, update_apply]
      split_ifs with eq
      · subst eq
        simp [JobSharedLock.locked, addJob, locks m known, JobsQueue.alloc]
      · rw [locks m known]; rfl
    · simpa [JobsQueue.setJob, JobsQueue.setLock, jobs, new, addJob, lock_name] using named
    · simp [JobsQueue.setJob, JobsQueue.setLock, addJob]
    · simp [JobsQueue.setJob, JobsQueue.setLock, addJob, lock_name, registered]

theorem LockInv.append (uses : q.Uses j) (known : j < q.jobCount)
    (handedOut : (q.jobs j).handedOut = false) (pc : (q.jobs j).pc = .notStarted)
    (absent : j ∉ q.queue) : LockInv (q.append j) := by
  have kept := (SameQueue.dequeAdd q j).bookkept.sameJob
  have before := inv.same kept
  have queue : (q.append j).queue = q.queue ++ [j] := by
    change (q.dequeAdd j).queue ++ [j] = _
    rw [kept.queue]
  have added : ∀ k, (q.append j).InUse k → (q.dequeAdd j).InUse k ∨ k = j := by
    rintro k (mem | taken)
    · rw [queue] at mem
      rcases mem_append.mp mem with old | new
      · exact .inl (.inl (by rwa [kept.queue]))
      · exact .inr (mem_singleton.mp new)
    · exact .inl (.inr taken)
  refine ⟨before.waits, ?_, ?_, before.known, before.inFlight, ?_, before.named, before.held,
    before.exclusive, before.alone⟩
  · rw [queue]
    exact nodup_append.mpr ⟨inv.nodup, nodup_singleton j, by
      rintro a mem b new rfl
      exact absent (mem_singleton.mp new ▸ mem)⟩
  · intro k mem
    rw [queue] at mem
    rcases mem_append.mp mem with old | new
    · exact before.queued k (by rwa [kept.queue])
    · obtain rfl := mem_singleton.mp new
      refine ⟨(by rw [kept.jobCount]; exact known : k < (q.dequeAdd k).jobCount), ?_, ?_⟩
      · exact (kept.job k).handedOut.trans handedOut
      · exact (kept.job k).started.mpr pc
  · intro k inUse
    have locks : ∀ l, (q.append j).locks l = q.locks l := fun l => congrFun kept.locks l
    rcases added k inUse with old | rfl
    · exact (before.uses k old).transfer rfl rfl (fun _ _ => rfl) (fun _ _ => id) (fun _ _ => id)
    · refine uses.transfer (kept.job k).spec (kept.job k).lock ?_ ?_ ?_
      · exact fun l _ => by rw [locks]
      · exact fun l _ mem => by rwa [locks]
      · exact fun l _ registered => (congrFun kept.jobLocks _).trans registered

end

/-- How `add` ends: the queue as it was, or with the new job behind it. -/
inductive AddResult (q : JobsQueue) (job : Job) (r : JobsQueue) : Prop
  | unchanged (prepared : Prepared q r job q.jobCount)
  | appended (s : JobsQueue) (prepared : Prepared q s job q.jobCount) (uses : s.Uses q.jobCount)
      (event : Bool) (result : r = { s.append q.jobCount with queueEvent := event })
      (woken : event = true ∨
        event = q.queueEvent ∧ s.admission q.jobCount = .append ∧ job.spec.encodes = false ∧
          ∃ name, job.spec.getLockName = .ok name ∧ s = (q.alloc job).handleLock q.jobCount name)

theorem joinable_of_coalesce (admitted : q.admission j = .coalesce k) : q.joinable j = some k := by
  unfold JobsQueue.admission at admitted
  split at admitted
  · cases admitted
  · split_ifs at admitted
    split at admitted
    · rename_i found
      rw [found, JobsQueue.Admission.coalesce.inj admitted]
    · cases admitted

theorem Prepared.same (prepared : Prepared q r job j)
    (same : SameQueue Numbered r s) : Prepared q s job j where
  inv := prepared.inv.same same.bookkept.sameJob
  queue := same.queue.trans prepared.queue
  queueEvent := same.queueEvent.trans prepared.queueEvent
  jobCount := same.jobCount.trans prepared.jobCount
  own := by rw [(same.job j).sameJob.lock]; exact trans_of Numbered prepared.own (same.job j)
  other k different := trans_of Numbered (prepared.other k different) (same.job k)
  locked l known := by rw [same.locks]; exact prepared.locked l known

theorem LockInv.add_cases (inv : LockInv q) (lock : job.lock = none)
    (handedOut : job.handedOut = false) (pc : job.pc = .notStarted) :
    AddResult q job (q.add job).1 := by
  unfold JobsQueue.add
  split
  · exact .unchanged (inv.alloc handedOut pc)
  · rename_i name named
    obtain ⟨prepared, uses⟩ := inv.handleLock lock handedOut pc named
    unfold JobsQueue.enqueue
    split
    · exact .unchanged prepared
    · rename_i k _
      have joined := prepared.same (SameQueue.setJob _ k (fun queued => { queued with
        messageIds := queued.messageIds ++
          (((q.alloc job).handleLock q.jobCount name).jobs q.jobCount).messageIds })
        ⟨_, _, rfl⟩)
      split_ifs
      · exact .unchanged prepared
      · dsimp only
        split_ifs <;> exact .unchanged joined
    · rename_i admitted
      have spec : ((((q.alloc job).handleLock q.jobCount name).append q.jobCount).jobs
          q.jobCount).spec = job.spec :=
        ((SameQueue.dequeAdd _ _).job _).sameJob.spec.trans prepared.own.sameJob.spec
      dsimp only
      split_ifs with encodes
      · exact .appended _ prepared uses true rfl (.inl rfl)
      · refine .appended _ prepared uses q.queueEvent ?_
          (.inr ⟨rfl, admitted, ?_, name, named, rfl⟩)
        · have event : (((q.alloc job).handleLock q.jobCount name).append q.jobCount).queueEvent =
              q.queueEvent := (SameQueue.dequeAdd _ _).queueEvent.trans prepared.queueEvent
          rw [← event]
        · rw [spec] at encodes
          exact Bool.eq_false_iff.mpr encodes

theorem LockInv.add (inv : LockInv q) (lock : job.lock = none) (handedOut : job.handedOut = false)
    (pc : job.pc = .notStarted) : LockInv (q.add job).1 := by
  obtain prepared | ⟨s, prepared, uses, event, result, -⟩ := inv.add_cases lock handedOut pc
  · exact prepared.inv
  · have absent : q.jobCount ∉ s.queue := by
      rw [prepared.queue]
      exact fun mem => inv.fresh_unused (.inl mem)
    have appended := prepared.inv.append uses (by simp [prepared.jobCount])
      (prepared.own.sameJob.handedOut.trans handedOut) (prepared.own.sameJob.started.mpr pc) absent
    rw [result]
    exact appended.event event

end Submission

section Scheduler

variable {q : JobsQueue} {j : JobRef}

theorem handOut_job (q : JobsQueue) (j k : JobRef) : (q.handOut j).jobs k =
    if k = j then { q.jobs j with handedOut := true, pc := .startLogging } else q.jobs k := by
  by_cases eq : k = j
  all_goals simp [JobsQueue.handOut, JobsQueue.setJob, eq]

theorem handOut_lock (q : JobsQueue) (j k : JobRef) :
    ((q.handOut j).jobs k).lock = (q.jobs k).lock := by
  rw [handOut_job]
  split_ifs with eq
  · rw [eq]
  · rfl

theorem handOut_spec (q : JobsQueue) (j k : JobRef) :
    ((q.handOut j).jobs k).spec = (q.jobs k).spec := by
  rw [handOut_job]
  split_ifs with eq
  · rw [eq]
  · rfl

theorem handOut_handedOut (q : JobsQueue) (j k : JobRef) :
    ((q.handOut j).jobs k).handedOut = true ↔ k = j ∨ (q.jobs k).handedOut = true := by
  rw [handOut_job]
  split_ifs with eq
  · simp [eq]
  · simp [eq]

variable {r : JobsQueue} {locks : LockRef → JobSharedLock} (inv : LockInv q)
include inv

theorem LockInv.handOut (queued : j ∈ q.queue)
    (free : ∀ k l, (q.jobs k).handedOut = true → (q.jobs k).lock = some l →
      (q.jobs j).lock ≠ some l)
    (name : ∀ l, (locks l).name = (q.locks l).name)
    (members : ∀ l, (locks l).jobs = (q.locks l).jobs)
    (waiters : ∀ l, (locks l).lock.waiters = 0)
    (locked : ∀ l, (locks l).locked = true ↔ (q.locks l).locked = true ∨
      (q.jobs j).lock = some l) :
    LockInv (JobsQueue.handOut { q with locks := locks } j) := by
  have other : ∀ k, k ≠ j → (JobsQueue.handOut { q with locks := locks } j).jobs k = q.jobs k :=
    fun k different => by rw [handOut_job, if_neg different]
  have handed := handOut_handedOut { q with locks := locks } j
  have left : ∀ k, k ∈ q.queue.erase j ↔ k ≠ j ∧ k ∈ q.queue := fun _ => inv.nodup.mem_erase_iff
  have used : ∀ k, (JobsQueue.handOut { q with locks := locks } j).InUse k → q.InUse k := by
    rintro k (mem | taken)
    · exact .inl ((left k).mp mem).2
    · rcases (handed k).mp taken with rfl | taken
      · exact .inl queued
      · exact .inr taken
  refine ⟨rfl, inv.nodup.erase j, ?_, ?_, ?_, ?_, ?_, ?_, ?_, waiters⟩
  · intro k mem
    obtain ⟨different, mem⟩ := (left k).mp mem
    rw [other k different]
    exact inv.queued k mem
  · intro k taken
    rcases (handed k).mp taken with rfl | taken
    · exact (inv.queued k queued).1
    · exact inv.known k taken
  · intro k flying
    by_cases eq : k = j
    · exact (handed k).mpr (.inl eq)
    · rw [other k eq] at flying
      exact (handed k).mpr (.inr (inv.inFlight k flying))
  · intro k inUse
    apply (inv.uses k (used k inUse)).transfer (handOut_spec { q with locks := locks } j k)
      (handOut_lock _ j k)
    · exact fun l _ => name l
    · exact fun l _ mem => (members l).symm ▸ mem
    · exact fun l _ registered => registered
  · intro n l found
    exact ⟨(inv.named n l found).1, (name l).trans (inv.named n l found).2⟩
  · intro l
    refine (locked l).trans ?_
    rw [inv.held l]
    simp only [handOut_lock]
    constructor
    · rintro (⟨k, taken, pointer⟩ | pointer)
      · exact ⟨k, (handed k).mpr (.inr taken), pointer⟩
      · exact ⟨j, (handed j).mpr (.inl rfl), pointer⟩
    · rintro ⟨k, taken, pointer⟩
      rcases (handed k).mp taken with rfl | taken
      · exact .inr pointer
      · exact .inl ⟨k, taken, pointer⟩
  · intro i k l first second
    rw [handOut_lock, handOut_lock]
    intro pointer pointer'
    rcases (handed i).mp first with rfl | held <;> rcases (handed k).mp second with rfl | held'
    · rfl
    · exact absurd pointer (free k l held' pointer')
    · exact absurd pointer' (free i l held pointer)
    · exact inv.exclusive i k l held held' pointer pointer'

theorem LockInv.take_handOut (found : q.queue.find? q.runnable = some j) :
    ∃ r : JobsQueue, q.take j = r.handOut j ∧ r.jobs = q.jobs ∧ r.queueEvent = q.queueEvent ∧
      LockInv (r.handOut j) := by
  have queued := List.mem_of_find?_eq_some found
  have runnable := List.find?_some found
  unfold JobsQueue.take
  split
  · rename_i none
    refine ⟨q, rfl, rfl, rfl, inv.handOut queued ?_ (fun _ => rfl) (fun _ => rfl) inv.alone ?_⟩
    · simp [none]
    · simp [none]
  · rename_i l pointer
    have unlocked : (q.locks l).lock.locked = false := by
      simpa [JobsQueue.runnable, pointer, JobSharedLock.locked] using runnable
    have acquired : (q.locks l).lock.acquire = some ⟨true, 0⟩ :=
      Asyncio.Lock.acquire_eq_some.mpr ⟨unlocked, inv.alone l, rfl⟩
    rw [acquired]
    refine ⟨_, rfl, rfl, rfl, inv.handOut queued ?_ ?_ ?_ ?_ ?_⟩
    · intro k m taken pointer' eq
      cases pointer.symm.trans eq
      have held := (inv.held l).mpr ⟨k, taken, pointer'⟩
      rw [JobSharedLock.locked, unlocked] at held
      cases held
    all_goals intro k; rw [update_apply]; split_ifs with eq
    · subst eq; rfl
    · rfl
    · subst eq; rfl
    · rfl
    · rfl
    · exact inv.alone k
    · subst eq; simp [JobSharedLock.locked, pointer]
    · simp only [pointer, Option.some.injEq, Ne.symm eq, or_false]

theorem LockInv.next_cases (taken : q.next = some r) : q.queueEvent = true ∧
      ((∃ j, q.queue.find? q.runnable = some j ∧ r = q.take j) ∨
        (q.queue.find? q.runnable = none ∧ r = { q with queueEvent := false })) := by
  unfold JobsQueue.next at taken
  split at taken
  · split_ifs at taken with event
    split at taken
    · rename_i j found
      exact ⟨event, .inl ⟨j, found, (Option.some.inj taken).symm⟩⟩
    · rename_i found
      exact ⟨event, .inr ⟨found, (Option.some.inj taken).symm⟩⟩
  · rename_i suspended
    rw [inv.waits] at suspended
    cases suspended

theorem LockInv.next (taken : q.next = some r) : LockInv r := by
  obtain ⟨-, ⟨j, found, rfl⟩ | ⟨-, rfl⟩⟩ := inv.next_cases taken
  · obtain ⟨r, result, -, -, kept⟩ := inv.take_handOut found
    rw [result]
    exact kept
  · exact inv.event false

theorem LockInv.releasing (pc : (q.jobs j).pc = .releaseLock) :
    (q.jobs j).handedOut = true := inv.inFlight j (by rw [pc]; rfl)

variable (taken : (q.jobs j).handedOut = true)
include taken

theorem LockInv.released {jobLocks : String → Option LockRef} {event : Bool}
    (name : ∀ l, (locks l).name = (q.locks l).name)
    (members : ∀ l k, k ≠ j → (k ∈ (locks l).jobs ↔ k ∈ (q.locks l).jobs))
    (waiters : ∀ l, (locks l).lock.waiters = 0)
    (locked : ∀ l, (locks l).locked = true ↔ (q.locks l).locked = true ∧ (q.jobs j).lock ≠ some l)
    (fewer : ∀ n l, jobLocks n = some l → q.jobLocks n = some l)
    (kept : ∀ n l, q.jobLocks n = some l → (∃ k ∈ (locks l).jobs, k ≠ j) → jobLocks n = some l) :
    LockInv (JobsQueue.setJob { q with locks := locks, jobLocks := jobLocks, queueEvent := event } j
      fun job => { job with handedOut := false, pc := .setFinished }) := by
  generalize result : JobsQueue.setJob _ j _ = r
  have own : r.jobs j = { q.jobs j with handedOut := false, pc := .setFinished } := by
    simp [← result, JobsQueue.setJob]
  have other : ∀ k, k ≠ j → r.jobs k = q.jobs k := by
    intro k different
    simp [← result, JobsQueue.setJob, different]
  have handed : ∀ k, (r.jobs k).handedOut = true ↔ k ≠ j ∧ (q.jobs k).handedOut = true := by
    intro k
    by_cases eq : k = j
    · rw [eq, own]; simp
    · rw [other k eq]; simp [eq]
  have waiting : j ∉ q.queue := fun mem => by
    have idle := (inv.queued j mem).2.1
    rw [taken] at idle
    cases idle
  have used : ∀ k, r.InUse k → k ≠ j ∧ q.InUse k := by
    subst result
    rintro k (mem | taken)
    · exact ⟨fun eq => waiting (eq ▸ mem), .inl mem⟩
    · exact ((handed k).mp taken).imp_right .inr
  subst result
  refine ⟨inv.waits, inv.nodup, ?_, ?_, ?_, ?_, ?_, ?_, ?_, waiters⟩
  · intro k mem
    rw [other k fun eq => waiting (eq ▸ mem)]
    exact inv.queued k mem
  · exact fun k taken => inv.known k ((handed k).mp taken).2
  · intro k flying
    by_cases eq : k = j
    · rw [eq, own] at flying
      cases flying
    · rw [other k eq] at flying ⊢
      exact inv.inFlight k flying
  · intro k inUse
    obtain ⟨different, before⟩ := used k inUse
    have uses := inv.uses k before
    apply uses.transfer (by rw [other k different]) (by rw [other k different])
    · exact fun l _ => name l
    · exact fun l _ mem => (members l k different).mpr mem
    · exact fun l pointer registered => kept _ l registered
        ⟨k, (members l k different).mpr (uses.member l pointer), different⟩
  · intro n l found
    obtain ⟨known, named⟩ := inv.named n l (fewer n l found)
    exact ⟨known, (name l).trans named⟩
  · intro l
    refine (locked l).trans ?_
    rw [inv.held l]
    constructor
    · rintro ⟨⟨k, held, pointer⟩, free⟩
      have different : k ≠ j := fun eq => free (eq ▸ pointer)
      exact ⟨k, (handed k).mpr ⟨different, held⟩, by rw [other k different]; exact pointer⟩
    · rintro ⟨k, held, pointer⟩
      obtain ⟨different, held⟩ := (handed k).mp held
      rw [other k different] at pointer
      exact ⟨⟨k, held, pointer⟩, fun eq =>
        different (inv.exclusive k j l held taken pointer eq)⟩
  · intro i k l first second
    obtain ⟨different, held⟩ := (handed i).mp first
    obtain ⟨different', held'⟩ := (handed k).mp second
    rw [other i different, other k different']
    exact inv.exclusive i k l held held'

theorem LockInv.releaseLock_cases {result : Except JobsQueue JobsQueue}
    (released : q.releaseLock j = result) : ∃ r, result = .ok r ∧ ((q.jobs j).lock = none ∧ r = q ∨
      ∃ l, (q.jobs j).lock = some l ∧ r = { q with
        locks := update q.locks l
          { q.locks l with jobs := (q.locks l).jobs.erase j, lock := ⟨false, 0⟩ }
        jobLocks := if (q.locks l).jobs.erase j = ∅ then
          update q.jobLocks (q.locks l).name none else q.jobLocks
        queueEvent := true }) := by
  subst released
  unfold JobsQueue.releaseLock
  cases pointer : (q.jobs j).lock with
  | none => exact ⟨q, rfl, .inl ⟨rfl, rfl⟩⟩
  | some l =>
    refine ⟨_, ?_, .inr ⟨l, rfl, rfl⟩⟩
    have held : (q.locks l).lock.locked = true := (inv.held l).mpr ⟨j, taken, pointer⟩
    have registered := (inv.uses j (.inr taken)).registered l pointer
    have free : (q.locks l).lock.release = some ⟨false, 0⟩ :=
      Asyncio.Lock.release_eq_some.mpr ⟨held, by rw [inv.alone l]⟩
    simp only [JobsQueue.setLock, removeJob, update_self, free, JobsQueue.dropUnused,
      JobsQueue.popLock, registered, update_idem]
    by_cases last : (q.locks l).jobs.erase j = ∅
    · simp [last]
    · simp [last]

omit taken in
theorem LockInv.releaseLock_ne_error (pc : (q.jobs j).pc = .releaseLock)
    (r : JobsQueue) : q.releaseLock j ≠ .error r := by
  intro raised
  obtain ⟨_, ⟨⟩, -⟩ := inv.releaseLock_cases (inv.releasing pc) raised

theorem LockInv.releaseLock_rest (released : q.releaseLock j = .ok r) :
    r = { q with locks := r.locks, jobLocks := r.jobLocks, queueEvent := r.queueEvent } := by
  obtain ⟨_, ⟨⟩, ⟨-, rfl⟩ | ⟨l, -, rfl⟩⟩ := inv.releaseLock_cases taken released
  · rfl
  · rfl

theorem LockInv.releaseLock_jobs (released : q.releaseLock j = .ok r) : r.jobs = q.jobs := by
  rw [inv.releaseLock_rest taken released]

theorem LockInv.release (released : q.releaseLock j = .ok r) :
    LockInv (r.setJob j fun job => { job with handedOut := false, pc := .setFinished }) := by
  obtain ⟨_, ⟨⟩, ⟨pointer, rfl⟩ | ⟨l, pointer, rfl⟩⟩ := inv.releaseLock_cases taken released
  · exact inv.released taken (fun _ => rfl) (fun _ _ _ => Iff.rfl) inv.alone (by simp [pointer])
      (fun _ _ => id) (fun _ _ found _ => found)
  · refine inv.released taken ?_ ?_ ?_ ?_ ?_ ?_
    · intro m
      rw [update_apply]
      split_ifs with eq
      · rw [eq]
      · rfl
    · intro m k different
      rw [update_apply]
      split_ifs with eq
      · rw [eq]
        simp [different]
      · rfl
    · intro m
      rw [update_apply]
      split_ifs with eq
      · rfl
      · exact inv.alone m
    · intro m
      rw [update_apply, pointer]
      split_ifs with eq
      · simp [JobSharedLock.locked, eq]
      · simp [Ne.symm eq]
    · intro n m found
      split_ifs at found
      · by_cases own : n = (q.locks l).name
        · simp [own] at found
        · simpa [own] using found
      · exact found
    · -- a lock that another job still uses has not been dropped
      rintro n m found ⟨k, mem, different⟩
      rw [update_apply] at mem
      split_ifs at mem with eq
      · have nonempty : ((q.locks l).jobs.erase j) ≠ ∅ := Finset.ne_empty_of_mem mem
        simpa [nonempty] using found
      · have registered := (inv.uses j (.inr taken)).registered l pointer
        have other : n ≠ (q.locks l).name := fun equal => by
          rw [equal, registered] at found
          exact eq (Option.some.inj found).symm
        split_ifs
        · simpa [other] using found
        · exact found

end Scheduler

theorem LockInv.step {q q' : JobsQueue} {a : Label} (inv : LockInv q) (taken : step q a = some q') :
    LockInv q' := by
  cases step_cases taken with
  | frame kept => exact inv.same kept
  | submit spec info kept => exact (inv.add rfl rfl rfl).same kept
  | next taken => exact inv.next taken
  | release j outcome r pc released => exact inv.release (inv.releasing pc) released
  | releaseRaised j outcome r pc raised => exact absurd raised (inv.releaseLock_ne_error pc r)

theorem LockInv.reach {ok : JobsQueue → Label → Prop} {q : JobsQueue}
    (reached : Reach Jobs.step ok {} q) : LockInv q :=
  reached.invariant LockInv.init fun _ _ _ inv _ taken => inv.step taken

/-- In every interleaving of submissions, the scheduler, the lines of `run` with
every choice of what raises, and aborts: two jobs handed out under one lock name
are the same job, and a job in the queue or handed out points at the lock object
that is registered under its lock name at that time. -/
theorem job_lock_exclusive {q : JobsQueue} (reached : Reach step Always {} q) :
    (∀ j k n, (q.jobs j).handedOut = true → (q.jobs k).handedOut = true →
      (q.jobs j).spec.getLockName = .ok (some n) → (q.jobs k).spec.getLockName = .ok (some n) →
      j = k) ∧
    ∀ j n, q.InUse j → (q.jobs j).spec.getLockName = .ok (some n) →
      ∃ l, (q.jobs j).lock = some l ∧ q.jobLocks n = some l ∧ (q.locks l).name = n := by
  have inv := LockInv.reach reached
  have points : ∀ j n, q.InUse j → (q.jobs j).spec.getLockName = .ok (some n) →
      ∃ l, (q.jobs j).lock = some l ∧ q.jobLocks n = some l ∧ (q.locks l).name = n := by
    intro j n used named
    obtain ⟨name, -, registered⟩ := inv.uses j used
    rw [named] at name
    obtain ⟨l, pointer, rfl⟩ := Option.map_eq_some_iff.mp (Except.ok.inj name).symm
    exact ⟨l, pointer, registered l pointer, rfl⟩
  refine ⟨?_, points⟩
  intro j k n held held' named named'
  obtain ⟨l, pointer, found, -⟩ := points j n (.inr held) named
  obtain ⟨m, pointer', found', -⟩ := points k n (.inr held') named'
  cases found.symm.trans found'
  exact inv.exclusive j k l held held' pointer pointer'

/-- Two scrubs of one pool are submitted and the scheduler runs once. -/
def twoScrubs : List Label :=
  [.submit { options := { lock := .constant (some "scrub:tank") } } none,
    .submit { options := { lock := .callable (some (some "scrub:tank")) } } none, .next]

theorem job_lock_exclusive_twoScrubs :
    ∃ q, exec step Always {} twoScrubs = some q ∧ (q.jobs 0).handedOut = true ∧ q.queue = [1] ∧
      ∀ k, (q.jobs k).handedOut = true →
        (q.jobs k).spec.getLockName = .ok (some "scrub:tank") → k = 0 := by
  have run : ∃ q, exec step Always {} twoScrubs = some q ∧ (q.jobs 0).handedOut = true ∧
      q.queue = [1] ∧ (q.jobs 0).spec.getLockName = .ok (some "scrub:tank") :=
    ⟨_, rfl, rfl, rfl, rfl⟩
  obtain ⟨q, result, held, queue, named⟩ := run
  refine ⟨q, result, held, queue, fun k held' named' => ?_⟩
  exact (job_lock_exclusive (reach_exec .start result)).1 k 0 _ held' held named' named

end TruenasMiddleware.Jobs
