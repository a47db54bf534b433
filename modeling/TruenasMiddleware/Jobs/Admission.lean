import TruenasMiddleware.Jobs.Locks

/-!
What `JobsQueue.add` decides, seen from outside: the job joins the queue, or the
queue stays as it was. The limit compares lock objects with `is`, and two jobs
without a lock both have `None`, so jobs without a lock count as users of one
common lock.
-/

namespace TruenasMiddleware.Jobs

open Transition JobsQueue Job

/-- How `add` ends once the lock of the job `j` has been handled. -/
inductive Enqueued (q : JobsQueue) (j : JobRef) : JobsQueue × Except Error JobRef → Prop
  | rejected {e : CallError} (decided : q.admission j = .reject e) :
      Enqueued q j (q, .error (.callError e))
  | coalesced {k : JobRef} {r : JobsQueue} {result : Except Error JobRef}
      (decided : q.admission j = .coalesce k) (same : SameQueue Numbered q r)
      (answer : result = .ok k ∨ result = .error .encodeError) : Enqueued q j (r, result)
  | appended (event : Bool) (decided : q.admission j = .append) :
      Enqueued q j ({ q.append j with queueEvent := event },
        if (q.jobs j).spec.encodes then .ok j else .error .encodeError)

theorem enqueue_cases (q : JobsQueue) (j : JobRef) : Enqueued q j (q.enqueue j) := by
  unfold enqueue
  split
  · rename_i e decided
    exact .rejected decided
  · rename_i k decided
    have joined : SameQueue Numbered q (q.setJob k fun job =>
        { job with messageIds := job.messageIds ++ (q.jobs j).messageIds }) :=
      SameQueue.setJob q k _ ⟨_, _, rfl⟩
    split_ifs
    · exact .coalesced decided (.refl q) (.inl rfl)
    · dsimp only
      split_ifs
      · exact .coalesced decided joined (.inl rfl)
      · exact .coalesced decided joined (.inr rfl)
  · rename_i decided
    have spec : ((q.append j).jobs j).spec = (q.jobs j).spec :=
      ((SameQueue.dequeAdd q j).job j).sameJob.spec
    dsimp only
    rw [spec]
    split_ifs with encodes
    · have ended := Enqueued.appended (q := q) true decided
      rwa [if_pos encodes] at ended
    · have ended := Enqueued.appended (q := q) (q.append j).queueEvent decided
      rwa [if_neg encodes] at ended

variable {q : JobsQueue} {j k : JobRef}

theorem add_of_error (job : Job) {e : Error} (named : job.spec.getLockName = .error e) :
    q.add job = (q.alloc job, .error e) := by
  rw [add, named]

theorem add_of_ok (job : Job) {name : Option String} (named : job.spec.getLockName = .ok name) :
    q.add job = ((q.alloc job).handleLock q.jobCount name).enqueue q.jobCount := by
  rw [add, named]

theorem queue_append (q : JobsQueue) (j : JobRef) : (q.append j).queue = q.queue ++ [j] :=
  congrArg (· ++ [j]) (SameQueue.dequeAdd q j).queue

theorem Enqueued.queue_iff {result : JobsQueue × Except Error JobRef}
    (ended : Enqueued q j result) (absent : j ∉ q.queue) :
    j ∈ result.1.queue ↔ q.admission j = .append := by
  cases ended with
  | rejected decided => simp [decided, absent]
  | coalesced decided eq => simp [decided, eq.queue, absent]
  | appended event decided => simp [decided, queue_append]

theorem queuedJobs_of_append {size : Int}
    (declared : (q.jobs j).spec.options.lockQueueSize = some size) (nonzero : size ≠ 0)
    (decided : q.admission j = .append) : (q.queuedJobs j).length < size := by
  unfold admission at decided
  simp only [declared, nonzero, if_false] at decided
  split_ifs at decided with full
  · split at decided <;> cases decided
  · exact not_le.mp full

theorem canJoin_of_coalesce (decided : q.admission j = .coalesce k) :
    JobsQueue.canJoin (q.jobs j).spec.credentials (q.jobs k).spec.credentials = true := by
  have joins := List.find?_some (p := fun k =>
    canJoin (q.jobs j).spec.credentials (q.jobs k).spec.credentials) (joinable_of_coalesce decided)
  exact joins

theorem admission_zero (declared : (q.jobs j).spec.options.lockQueueSize = some 0) : q.admission j =
      if q.runningJob j then .reject JobsQueue.alreadyBeingPerformed else .append := by
  unfold admission
  simp only [declared, if_true]

namespace JobsQueue

/-- `add` enqueues the new job itself and returns it. What remains is that its
own ADDED event cannot be encoded, which no other job has a part in. -/
def EnqueuesItself (q : JobsQueue) (job : Job) : Prop :=
  (q.add job).1.queue = q.queue ++ [q.jobCount] ∧
    (q.add job).2 = if job.spec.encodes then .ok q.jobCount else .error .encodeError

def RoomWithoutLock (q : JobsQueue) (spec : JobSpec) : Prop :=
  match spec.options.lockQueueSize with
  | none => True
  | some size =>
    if size = 0 then
      ∀ entry ∈ q.dict, (q.jobs entry.2).lock = none → (q.jobs entry.2).state ≠ .running
    else (q.queue.filter fun k => (q.jobs k).lock = none).length < size

structure Refers (q : JobsQueue) : Prop where
  queue : ∀ k ∈ q.queue, k < q.jobCount
  dict : ∀ entry ∈ q.dict, entry.2 < q.jobCount

end JobsQueue

section Lockless

variable {q : JobsQueue} {spec : JobSpec} {call : Option CallRef}

theorem alloc_job (q : JobsQueue) (job : Job) (k : JobRef) :
    (q.alloc job).jobs k = if k = q.jobCount then job else q.jobs k := by
  simp [alloc, Function.update_apply]

theorem admission_lockless (call : Option CallRef) (refers : q.Refers) :
    (q.alloc (create spec call)).admission q.jobCount = .append ↔ q.RoomWithoutLock spec := by
  have other : ∀ k < q.jobCount, (q.alloc (create spec call)).jobs k = q.jobs k :=
    fun k known => by rw [alloc_job, if_neg known.ne]
  have own : (q.alloc (create spec call)).jobs q.jobCount = create spec call := by
    rw [alloc_job, if_pos rfl]
  have queued : (q.alloc (create spec call)).queuedJobs q.jobCount =
      q.queue.filter fun k => (q.jobs k).lock = none := by
    refine List.filter_congr fun k mem => ?_
    rw [other k (refers.queue k mem), own]
    rfl
  have running : (q.alloc (create spec call)).runningJob q.jobCount = true ↔
      ∃ entry ∈ q.dict, (q.jobs entry.2).state = .running ∧ (q.jobs entry.2).lock = none := by
    rw [runningJob, List.any_eq_true]
    refine exists_congr fun entry => and_congr_right fun mem => ?_
    rw [other _ (refers.dict entry mem), own, decide_eq_true_eq]
    rfl
  unfold admission JobsQueue.RoomWithoutLock
  have options : (create spec call).spec.options = spec.options := rfl
  rw [own, queued, options]
  cases spec.options.lockQueueSize with
  | none => simp
  | some size =>
    by_cases zero : size = 0
    · simp only [zero, if_true]
      rw [ite_eq_right_iff, running]
      constructor
      · intro append entry mem lockless runs
        cases append ⟨entry, mem, runs, lockless⟩
      · rintro room ⟨entry, mem, runs, lockless⟩
        exact absurd runs (room entry mem lockless)
    · simp only [zero, if_false]
      split_ifs with full
      · refine iff_of_false ?_ (not_lt.mpr full)
        split <;> simp
      · exact iff_of_true rfl (not_le.mp full)

/-- A job whose method has no lock is enqueued and returned exactly when the jobs
without a lock that are already there leave room: none of them runs if its
`lock_queue_size` is 0, and fewer than `lock_queue_size` of them are queued if it
is another number. -/
theorem add_lockless_iff (refers : q.Refers) (lockless : spec.getLockName = .ok none) :
    q.EnqueuesItself (Job.create spec call) ↔ q.RoomWithoutLock spec := by
  have added : q.add (create spec call) = (q.alloc (create spec call)).enqueue q.jobCount := by
    rw [add_of_ok (create spec call) lockless]
    rfl
  have absent : q.jobCount ∉ (q.alloc (create spec call)).queue :=
    fun member => absurd (refers.queue _ member) (lt_irrefl _)
  have ended := enqueue_cases (q.alloc (create spec call)) q.jobCount
  rw [← admission_lockless call refers, ← ended.queue_iff absent, JobsQueue.EnqueuesItself, added]
  constructor
  · rintro ⟨queue, -⟩
    simp [queue]
  · intro joined
    have decided := (ended.queue_iff absent).mp joined
    revert decided
    generalize (q.alloc (create spec call)).enqueue q.jobCount = result at ended joined
    intro decided
    cases ended with
    | rejected rejected => simp [decided] at rejected
    | coalesced coalesced => simp [decided] at coalesced
    | appended event _ =>
      refine ⟨queue_append _ _, ?_⟩
      rw [alloc_job, if_pos rfl]

end Lockless

/-- Five jobs without a lock wait, and the default `lock_queue_size` is 5: the
sixth caller gets the fifth job. -/
theorem add_lockless_coalesced :
    ∃ q, Reach step Always {} q ∧ ¬ q.EnqueuesItself (Job.create {} none) ∧
      (q.add (Job.create {} none)).2 = .ok 4 := by
  have run : ∃ q, exec step Always {} (List.replicate 5 (.submit {} none)) = some q ∧
      q.queue = [0, 1, 2, 3, 4] ∧ (q.add (create {} none)).1.queue = q.queue ∧
      (q.add (create {} none)).2 = .ok 4 :=
    ⟨_, rfl, rfl, rfl, rfl⟩
  obtain ⟨q, result, queue, after, answer⟩ := run
  refine ⟨q, reach_exec .start result, fun ⟨joined, _⟩ => ?_, answer⟩
  rw [after, queue] at joined
  simp at joined

theorem add_lockless_iff_second :
    ∃ q : JobsQueue, q.queue = [0] ∧ q.EnqueuesItself (Job.create {} none) := by
  have run : ∃ q, exec step Always {} [.submit {} none] = some q ∧ q.queue = [0] ∧
      q.dict = [(1, 0)] ∧ q.jobCount = 1 :=
    ⟨_, rfl, rfl, rfl, rfl⟩
  obtain ⟨q, -, queue, dict, count⟩ := run
  refine ⟨q, queue, (add_lockless_iff ⟨?_, ?_⟩ rfl).mpr ?_⟩
  · simp [queue, count]
  · simp [dict, count]
  · have few : (q.queue.filter fun k => (q.jobs k).lock = none).length ≤ 1 :=
      (List.length_filter_le _ _).trans (by simp [queue])
    show ((q.queue.filter fun k => (q.jobs k).lock = none).length : Int) < 5
    omega

end TruenasMiddleware.Jobs
