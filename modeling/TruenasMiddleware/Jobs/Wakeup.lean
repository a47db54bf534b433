import TruenasMiddleware.Jobs.Locks

/-! The scheduler's event. `next` clears it after a scan, `add` and
`release_lock` set it; the question is whether it can be clear while some job
of the queue could run. It can, in one way: `add` sends the ADDED event between
`queue.append(job)` and `queue_event.set()`, and encoding the job may raise. -/

namespace TruenasMiddleware.Jobs

open Transition JobsQueue

def Settled (q : JobsQueue) : Prop :=
  q.queueEvent = false → ∀ j ∈ q.queue, q.runnable j = false

def JobsQueue.Blocked (q : JobsQueue) : Prop :=
  q.scheduler = .waitEvent ∧ q.queueEvent = false

/-- The submission appends a job that cannot be encoded, at a time when the event
is clear and the job could run. -/
def Strands (q : JobsQueue) (job : Job) : Prop :=
  job.spec.encodes = false ∧ q.queueEvent = false ∧ match job.spec.getLockName with
    | .error _ => False
    | .ok name =>
      ((q.alloc job).handleLock q.jobCount name).admission q.jobCount = .append ∧
        ((q.alloc job).handleLock q.jobCount name).runnable q.jobCount = true

instance (q : JobsQueue) (job : Job) : Decidable (Strands q job) := by
  unfold Strands
  cases job.spec.getLockName <;> exact inferInstance

def Announced (q : JobsQueue) : Label → Prop
  | .submit spec info => ¬ Strands q (submitted q spec info)
  | _ => True

instance (q : JobsQueue) : (a : Label) → Decidable (Announced q a)
  | .submit spec info => inferInstanceAs (Decidable (¬ Strands q (submitted q spec info)))
  | .next | .run .. | .abort _ | .abortLine .. => .isTrue trivial

section

variable {q r q' : JobsQueue} {j : JobRef}

theorem runnable_congr (lock : (r.jobs j).lock = (q.jobs j).lock)
    (locked : ∀ l, (q.jobs j).lock = some l → (r.locks l).locked = (q.locks l).locked) :
    r.runnable j = q.runnable j := by
  unfold runnable
  rw [lock]
  cases pointer : (q.jobs j).lock with
  | none => rfl
  | some l => simp only [locked l pointer]

theorem Settled.same (settled : Settled q) (same : SameQueue SameJob q r) : Settled r := by
  intro clear k mem
  rw [same.queueEvent] at clear
  rw [same.queue] at mem
  rw [runnable_congr (same.job k).lock fun l _ => by rw [same.locks]]
  exact settled clear k mem

theorem Prepared.runnable {job : Job} (inv : LockInv q) (prepared : Prepared q r job q.jobCount)
    (mem : j ∈ q.queue) : r.runnable j = q.runnable j := by
  have used : q.InUse j := .inl mem
  exact runnable_congr (prepared.other j (inv.ne_fresh used)).sameJob.lock
    fun l pointer => prepared.locked l (inv.inUse_lock used pointer)

theorem Settled.add {job : Job} (settled : Settled q) (inv : LockInv q) (lock : job.lock = none)
    (handedOut : job.handedOut = false) (pc : job.pc = .notStarted) (announced : ¬ Strands q job) :
    Settled (q.add job).1 := by
  obtain prepared | ⟨s, prepared, -, event, result, woken⟩ := inv.add_cases lock handedOut pc
  · intro clear k mem
    rw [prepared.queue] at mem
    rw [prepared.queueEvent] at clear
    rw [prepared.runnable inv mem]
    exact settled clear k mem
  · rw [result]
    intro clear k mem
    have kept := (SameQueue.dequeAdd s q.jobCount).bookkept.sameJob
    have same : ∀ i, ({ s.append q.jobCount with queueEvent := event } : JobsQueue).runnable i =
        s.runnable i := fun i =>
      runnable_congr (kept.job i).lock fun l _ => by
        change ((s.dequeAdd q.jobCount).locks l).locked = _
        rw [kept.locks]
    obtain rfl | ⟨rfl, admitted, encodes, name, named, rfl⟩ := woken
    · cases clear
    · change k ∈ ((_ : JobsQueue).dequeAdd q.jobCount).queue ++ [q.jobCount] at mem
      rw [kept.queue, prepared.queue] at mem
      rw [same k]
      rcases List.mem_append.mp mem with old | new
      · rw [prepared.runnable inv old]
        exact settled clear k old
      · rw [List.mem_singleton.mp new]
        exact Bool.eq_false_iff.mpr fun free =>
          announced ⟨encodes, clear, by rw [named]; exact ⟨admitted, free⟩⟩

theorem Settled.next (inv : LockInv q) (taken : q.next = some r) : Settled r := by
  obtain ⟨event, ⟨j, found, rfl⟩ | ⟨none, rfl⟩⟩ := inv.next_cases taken
  · obtain ⟨s, result, -, stays, -⟩ := inv.take_handOut found
    rw [result]
    intro clear k mem
    -- the event is only cleared once the queue is empty
    have empty : s.queue.erase j = [] := by
      by_contra left
      simp [handOut, left, stays, event] at clear
    change k ∈ s.queue.erase j at mem
    rw [empty] at mem
    cases mem
  · intro _ k mem
    refine (runnable_congr rfl fun _ _ => rfl).trans (?_ : q.runnable k = false)
    simpa using List.find?_eq_none.mp none k mem

theorem Settled.release (settled : Settled q) (inv : LockInv q)
    (taken : (q.jobs j).handedOut = true) (released : q.releaseLock j = .ok r) :
    Settled (r.setJob j fun job => { job with handedOut := false, pc := .setFinished }) := by
  obtain ⟨_, ⟨⟩, ⟨pointer, rfl⟩ | ⟨l, pointer, rfl⟩⟩ := inv.releaseLock_cases taken released
  · intro clear k mem
    rw [← settled clear k mem]
    apply runnable_congr
    · by_cases own : k = j
      · simp [setJob, own]
      · simp [setJob, own]
    · exact fun _ _ => rfl
  · intro clear
    cases clear

theorem Settled.step {a : Label} (settled : Settled q) (inv : LockInv q)
    (announced : Announced q a) (taken : step q a = some q') : Settled q' := by
  cases step_cases taken with
  | frame kept => exact settled.same kept
  | submit spec info kept => exact (settled.add inv rfl rfl rfl announced).same kept
  | next taken => exact Settled.next inv taken
  | release j outcome r pc released =>
    exact settled.release inv (inv.releasing pc) released
  | releaseRaised j outcome r pc raised => exact absurd raised (inv.releaseLock_ne_error pc r)

end

/-- In every run in which no submission strands its job, a scheduler blocked on a
cleared event leaves nothing runnable behind: the lock of every queued job is
held by a job that has been handed out. -/
theorem no_lost_wakeup {q : JobsQueue} (reached : Reach step Announced {} q)
    (blocked : q.Blocked) :
    ∀ j ∈ q.queue, ∃ l k, (q.jobs j).lock = some l ∧ (q.locks l).locked = true ∧
      (q.jobs k).handedOut = true ∧ (q.jobs k).lock = some l := by
  have settled : Settled q := reached.invariant_of_reach (fun _ _ member => by cases member)
    fun _ _ _ before settled announced taken => settled.step (LockInv.reach before) announced taken
  intro j member
  have waits := settled blocked.2 j member
  unfold runnable at waits
  split at waits
  · cases waits
  · rename_i l pointer
    have held : (q.locks l).locked = true := by simpa using waits
    obtain ⟨k, taken, pointer'⟩ := ((LockInv.reach reached).held l).mp held
    exact ⟨l, k, pointer, held, taken, pointer'⟩

theorem no_lost_wakeup_twoScrubs : ∃ q, Reach step Announced {} q ∧ q.Blocked ∧ 1 ∈ q.queue ∧
      ∃ l k, (q.jobs 1).lock = some l ∧ (q.locks l).locked = true ∧
        (q.jobs k).handedOut = true ∧ (q.jobs k).lock = some l := by
  obtain ⟨q, reached, blocked, member⟩ : ∃ q, Reach step Announced {} q ∧ q.Blocked ∧
      1 ∈ q.queue :=
    exists_reach (twoScrubs ++ [.next]) ⟨_, rfl, ⟨rfl, rfl⟩, List.mem_singleton.mpr rfl⟩
  exact ⟨q, reached, blocked, member, no_lost_wakeup reached blocked 1 member⟩

/-- A first job whose ADDED event cannot be encoded stays in the queue with no
lock to wait for, and the scheduler is never woken. -/
theorem lost_wakeup :
    ∃ q, Reach step Always {} q ∧ q.Blocked ∧ 0 ∈ q.queue ∧ (q.jobs 0).lock = none :=
  ⟨_, .next (a := .submit { encodes := false } none) .start trivial rfl, ⟨rfl, rfl⟩,
    List.mem_singleton.mpr rfl, rfl⟩

end TruenasMiddleware.Jobs
