import TruenasMiddleware.Jobs.Run

/-! What a step leaves alone. A submission only renumbers jobs (`Numbered`), the
audit callback only writes to fields of a job that neither the scheduler nor
`run` reads (`Bookkept`), a line of `run` only to fields that the scheduler does
not read (`SameJob`).
`step_shape` says what every step does, `step_cases` what it does to the queue
and to the locks. -/

namespace TruenasMiddleware.Jobs

theorem JobsQueue.evict_rest (q : JobsQueue) : ∃ dict, q.evict = { q with dict := dict } := by
  unfold JobsQueue.evict
  split_ifs
  · split
    · exact ⟨_, rfl⟩
    · exact ⟨_, rfl⟩
  · exact ⟨_, rfl⟩

theorem JobsQueue.callOnFinishCb_rest (q : JobsQueue) (j : JobRef) (outcome : Option Raised) :
    ∃ audit called, (q.callOnFinishCb j outcome).1 =
      JobsQueue.setJob { q with audit := audit } j
        fun job => { job with onFinishCbCalled := called } := by
  unfold JobsQueue.callOnFinishCb
  dsimp only
  split
  · exact ⟨q.audit, true, rfl⟩
  · unfold JobsQueue.jobOnFinishCb
    split
    · exact ⟨q.audit, true, rfl⟩
    · exact ⟨_, true, rfl⟩
  · split_ifs
    · exact ⟨q.audit, true, rfl⟩
    · exact ⟨q.audit, (q.jobs j).onFinishCbCalled, by simp [JobsQueue.setJob]⟩

def Numbered (job job' : Job) : Prop :=
  ∃ messageIds id, job' = { job with messageIds := messageIds, id := id }

instance : Std.Refl Numbered := ⟨fun _ => ⟨_, _, rfl⟩⟩

instance : IsTrans Job Numbered where
  trans := by
    rintro _ _ _ ⟨_, _, rfl⟩ ⟨_, _, rfl⟩
    exact ⟨_, _, rfl⟩

def Bookkept (job job' : Job) : Prop :=
  ∃ messageIds id onFinishCb onFinishCbCalled, job' = { job with
      messageIds := messageIds, id := id
      onFinishCb := onFinishCb, onFinishCbCalled := onFinishCbCalled }

theorem Bookkept.refl (job : Job) : Bookkept job job := ⟨_, _, _, _, rfl⟩

theorem Bookkept.trans {a b c : Job} (first : Bookkept a b) (second : Bookkept b c) :
    Bookkept a c := by
  obtain ⟨_, _, _, _, rfl⟩ := first
  obtain ⟨_, _, _, _, rfl⟩ := second
  exact ⟨_, _, _, _, rfl⟩

instance : Std.Refl Bookkept := ⟨Bookkept.refl⟩

instance : IsTrans Job Bookkept := ⟨fun _ _ _ => Bookkept.trans⟩

theorem Numbered.bookkept {job job' : Job} (kept : Numbered job job') : Bookkept job job' := by
  obtain ⟨_, _, rfl⟩ := kept
  exact ⟨_, _, _, _, rfl⟩

/-- A job keeps what locks and scheduler read, is not put back to its start and
does not get in front of its `release_lock` again. -/
structure SameJob (job job' : Job) : Prop where
  lock : job'.lock = job.lock
  spec : job'.spec = job.spec
  handedOut : job'.handedOut = job.handedOut
  started : job'.pc = .notStarted ↔ job.pc = .notStarted
  inFlight : job'.pc.inFlight = true → job.pc.inFlight = true

namespace SameJob

variable {a b c job job' : Job}

theorem refl (job : Job) : SameJob job job := ⟨rfl, rfl, rfl, Iff.rfl, id⟩

theorem trans (first : SameJob a b) (second : SameJob b c) : SameJob a c :=
  ⟨second.lock.trans first.lock, second.spec.trans first.spec,
    second.handedOut.trans first.handedOut, second.started.trans first.started,
    first.inFlight ∘ second.inFlight⟩

theorem stayed (lock : job'.lock = job.lock) (spec : job'.spec = job.spec)
    (handedOut : job'.handedOut = job.handedOut) (pc : job'.pc = job.pc) : SameJob job job' :=
  ⟨lock, spec, handedOut, by rw [pc], by rw [pc]; exact id⟩

theorem moved (lock : job'.lock = job.lock) (spec : job'.spec = job.spec)
    (handedOut : job'.handedOut = job.handedOut) (started : job.pc ≠ .notStarted)
    (next : job'.pc ≠ .notStarted) (inFlight : job'.pc.inFlight = true → job.pc.inFlight = true) :
    SameJob job job' :=
  ⟨lock, spec, handedOut, by simp [started, next], inFlight⟩

end SameJob

theorem Bookkept.sameJob {job job' : Job} (kept : Bookkept job job') : SameJob job job' := by
  obtain ⟨_, _, _, _, rfl⟩ := kept
  exact .stayed rfl rfl rfl rfl

theorem Numbered.sameJob {job job' : Job} (kept : Numbered job job') : SameJob job job' :=
  kept.bookkept.sameJob

/-- The two states agree on everything that submission, locks and scheduler use,
and their jobs are related by `rel`. -/
structure SameQueue (rel : Job → Job → Prop) (q q' : JobsQueue) : Prop where
  queue : q'.queue = q.queue
  queueEvent : q'.queueEvent = q.queueEvent
  jobLocks : q'.jobLocks = q.jobLocks
  locks : q'.locks = q.locks
  lockCount : q'.lockCount = q.lockCount
  jobCount : q'.jobCount = q.jobCount
  scheduler : q'.scheduler = q.scheduler
  job : ∀ j, rel (q.jobs j) (q'.jobs j)

namespace SameQueue

variable {rel : Job → Job → Prop} {q r s : JobsQueue}

theorem refl [Std.Refl rel] (q : JobsQueue) : SameQueue rel q q :=
  ⟨rfl, rfl, rfl, rfl, rfl, rfl, rfl, fun j => refl_of rel (q.jobs j)⟩

theorem trans [IsTrans Job rel] (first : SameQueue rel q r) (second : SameQueue rel r s) :
    SameQueue rel q s where
  queue := second.queue.trans first.queue
  queueEvent := second.queueEvent.trans first.queueEvent
  jobLocks := second.jobLocks.trans first.jobLocks
  locks := second.locks.trans first.locks
  lockCount := second.lockCount.trans first.lockCount
  jobCount := second.jobCount.trans first.jobCount
  scheduler := second.scheduler.trans first.scheduler
  job j := trans_of rel (first.job j) (second.job j)

theorem bookkept (same : SameQueue Numbered q r) : SameQueue Bookkept q r :=
  { same with job := fun j => (same.job j).bookkept }

theorem sameJob (same : SameQueue Bookkept q r) : SameQueue SameJob q r :=
  { same with job := fun j => (same.job j).sameJob }

theorem move (same : SameQueue Bookkept q r) (j : JobRef) {f : Job → Job}
    (moved : SameJob (r.jobs j) (f (r.jobs j))) : SameQueue SameJob q (r.setJob j f) := by
  refine { same with job := fun k => ?_ }
  by_cases own : k = j
  · subst own
    simpa [JobsQueue.setJob] using (same.job k).sameJob.trans moved
  · simp only [JobsQueue.setJob, Function.update_of_ne own]
    exact (same.job k).sameJob

section

variable (q)

theorem setJob [Std.Refl rel] (j : JobRef) (f : Job → Job)
    (kept : rel (q.jobs j) (f (q.jobs j))) : SameQueue rel q (q.setJob j f) := by
  refine ⟨rfl, rfl, rfl, rfl, rfl, rfl, rfl, fun k => ?_⟩
  by_cases own : k = j
  · subst own
    simpa [JobsQueue.setJob] using kept
  · simp only [JobsQueue.setJob, Function.update_of_ne own]
    exact refl_of rel _

theorem remove [Std.Refl rel] (id : Nat) : SameQueue rel q (q.remove id) :=
  ⟨rfl, rfl, rfl, rfl, rfl, rfl, rfl, fun j => refl_of rel (q.jobs j)⟩

theorem evict [Std.Refl rel] : SameQueue rel q q.evict := by
  unfold JobsQueue.evict
  split_ifs
  · split
    · exact remove q _
    · exact refl q
  · exact refl q

theorem dequeAdd (j : JobRef) : SameQueue Numbered q (q.dequeAdd j) := by
  have numbered : SameQueue Numbered q _ :=
    setJob q j (fun job => { job with id := some (q.count + 1) }) ⟨_, _, rfl⟩
  have counted : SameQueue Numbered q
      { q.setJob j (fun job => { job with id := some (q.count + 1) }) with count := q.count + 1 } :=
    ⟨rfl, rfl, rfl, rfl, rfl, rfl, rfl, numbered.job⟩
  have evicted := counted.trans (evict _)
  exact ⟨evicted.queue, evicted.queueEvent, evicted.jobLocks, evicted.locks, evicted.lockCount,
    evicted.jobCount, evicted.scheduler, evicted.job⟩

theorem logAudit (c : CallRef) (call : Call) (messages : List String)
    (success : Bool) : SameQueue Bookkept q (q.logAudit c call messages success) :=
  ⟨rfl, rfl, rfl, rfl, rfl, rfl, rfl, fun j => Bookkept.refl (q.jobs j)⟩

theorem recordCall (call : Call) : SameQueue Bookkept q (q.recordCall call) :=
  ⟨rfl, rfl, rfl, rfl, rfl, rfl, rfl, fun j => Bookkept.refl (q.jobs j)⟩

theorem callOnFinishCb (j : JobRef) (outcome : Option Raised) :
    SameQueue Bookkept q (q.callOnFinishCb j outcome).1 := by
  obtain ⟨_, called, result⟩ := q.callOnFinishCb_rest j outcome
  have kept : SameQueue Bookkept q _ :=
    setJob q j (fun job => { job with onFinishCbCalled := called }) ⟨_, _, _, _, rfl⟩
  rw [result]
  exact { kept with }

theorem callOnFinishCb_other {j k : JobRef} (outcome : Option Raised)
    (different : k ≠ j) : (q.callOnFinishCb j outcome).1.jobs k = q.jobs k := by
  obtain ⟨_, _, result⟩ := q.callOnFinishCb_rest j outcome
  simp [result, JobsQueue.setJob, different]

theorem setOnFinishCb (j : JobRef) (c : CallRef) :
    SameQueue Bookkept q (q.setOnFinishCb j c) := by
  have stored : SameQueue Bookkept q _ :=
    setJob q j (fun job => { job with onFinishCb := some c }) ⟨_, _, _, _, rfl⟩
  unfold JobsQueue.setOnFinishCb
  dsimp only
  split_ifs
  · exact stored.trans (callOnFinishCb _ j _)
  · exact stored

end

end SameQueue

theorem Job.outsideTry_sameJob (job : Job) (outcome : Option Raised) (next : RunPc)
    (started : job.pc ≠ .notStarted) (nextStarted : next ≠ .notStarted)
    (inFlight : next.inFlight = true → job.pc.inFlight = true) :
    SameJob job (job.outsideTry outcome next) := by
  cases outcome with
  | none => exact SameJob.moved rfl rfl rfl started nextStarted inFlight
  | some e =>
    exact SameJob.moved rfl rfl rfl started (by simp [Job.outsideTry])
      (by simp [Job.outsideTry, RunPc.inFlight])

def Ran (job job' : Job) : Prop :=
  ∃ state future finished pc bodyStarted assertionFailed raised, job' = { job with
      state := state, future := future, finished := finished, pc := pc
      bodyStarted := bodyStarted, assertionFailed := assertionFailed, raised := raised }

theorem Job.runLine_ran (job : Job) (outcome : Option Raised) : Ran job (job.runLine outcome) := by
  have state : ∀ state next failed, Ran job (job.setStateThen state next failed) :=
    fun state next failed => by
      unfold setStateThen setState
      split_ifs <;> exact ⟨_, _, _, _, _, _, _, rfl⟩
  cases pc : job.pc <;> simp only [runLine, pc]
  case setRunning | setSuccess => exact state _ _ _
  case handler e => cases e <;> first | exact state _ _ _ | exact ⟨_, _, _, _, _, _, _, rfl⟩
  all_goals first
    | exact ⟨_, _, _, _, _, _, _, rfl⟩
    | (cases outcome <;> exact ⟨_, _, _, _, _, _, _, rfl⟩)
    | (split_ifs <;> cases outcome <;> exact ⟨_, _, _, _, _, _, _, rfl⟩)

theorem Job.runLine_pc (job : Job) (outcome : Option Raised) : (job.runLine outcome).pc = job.pc ∨
      (job.pc ≠ .notStarted ∧ (job.runLine outcome).pc ≠ .notStarted) ∧
      ((job.runLine outcome).pc.inFlight = true → job.pc.inFlight = true) := by
  have state : ∀ state next failed, (job.setStateThen state next failed).pc = next ∨
      (job.setStateThen state next failed).pc = failed := fun state next failed => by
    unfold setStateThen
    split
    · exact .inl rfl
    · exact .inr rfl
  cases pc : job.pc <;> simp only [runLine, pc]
  case setRunning | setSuccess =>
    rcases state _ _ _ with at_ | at_ <;> rw [at_] <;> simp [RunPc.inFlight]
  case handler e =>
    cases e
    case baseException => simp [handle, RunPc.inFlight]
    all_goals
      rw [handle]
      rcases state _ _ _ with at_ | at_ <;> rw [at_] <;> simp [RunPc.inFlight]
  all_goals cases outcome <;> simp [inTry, outsideTry, RunPc.inFlight]
  all_goals split_ifs <;> simp

theorem Job.runLine_sameJob (job : Job) (outcome : Option Raised) :
    SameJob job (job.runLine outcome) := by
  have pc := job.runLine_pc outcome
  obtain ⟨_, _, _, _, _, _, _, ran⟩ := job.runLine_ran outcome
  rw [ran] at pc ⊢
  rcases pc with same | ⟨⟨started, next⟩, flying⟩
  · exact .stayed rfl rfl rfl same
  · exact .moved rfl rfl rfl started next flying

theorem Job.abortLine_rest {job job' : Job} {i : Nat} (taken : job.abortLine i = some job') :
    ∃ aborts saw aborted, job' = { job with
      aborts := aborts, abortSawWaiting := saw, aborted := aborted } := by
  unfold Job.abortLine at taken
  split at taken
  all_goals first
    | (obtain rfl := Option.some.inj taken; exact ⟨_, _, _, rfl⟩)
    | cases taken

def submitted (q : JobsQueue) (spec : JobSpec) (info : Option AuditInfo) : Job :=
  Job.create spec (info.map fun _ => q.callCount)

def RunPc.plain : RunPc → Bool
  | .notStarted | .releaseLock | .onFinish | .cleanup | .ended => false
  | _ => true

inductive StepShape (q : JobsQueue) : Label → JobsQueue → Prop
  | submit (spec : JobSpec) :
      StepShape q (.submit spec none) (q.add (submitted q spec none)).1
  | audited (spec : JobSpec) (info : AuditInfo)
      (kept : SameQueue Bookkept (q.add (submitted q spec (some info))).1
        (q.callWithAudit spec info)) :
      StepShape q (.submit spec (some info)) (q.callWithAudit spec info)
  | next (q' : JobsQueue) (taken : q.next = some q') : StepShape q .next q'
  | line (j : JobRef) (outcome : Option Raised) (plain : (q.jobs j).pc.plain = true) :
      StepShape q (.run j outcome) (q.setJob j fun job => job.runLine outcome)
  | release (j : JobRef) (outcome : Option Raised) (r : JobsQueue)
      (pc : (q.jobs j).pc = .releaseLock) (released : q.releaseLock j = .ok r) :
      StepShape q (.run j outcome)
        (r.setJob j fun job => { job with handedOut := false, pc := .setFinished })
  | releaseRaised (j : JobRef) (outcome : Option Raised) (r : JobsQueue)
      (pc : (q.jobs j).pc = .releaseLock) (raised : q.releaseLock j = .error r) :
      StepShape q (.run j outcome) (r.setJob j fun job => { job with pc := .ended })
  | onFinish (j : JobRef) (outcome : Option Raised) (pc : (q.jobs j).pc = .onFinish) :
      StepShape q (.run j outcome)
        ((q.callOnFinishCb j outcome).1.setJob j
          (·.outsideTry (q.callOnFinishCb j outcome).2 .sendFinished))
  | cleanup (j : JobRef) (outcome : Option Raised) (r : JobsQueue)
      (pc : (q.jobs j).pc = .cleanup) (removed : r = q ∨ ∃ id, r = q.remove id) :
      StepShape q (.run j outcome) (r.setJob j fun job => { job with pc := .ended })
  | abort (j : JobRef) : StepShape q (.abort j) (q.setJob j Job.abort)
  | abortLine (j : JobRef) (i : Nat) (job : Job) (taken : (q.jobs j).abortLine i = some job) :
      StepShape q (.abortLine j i) (q.setJob j fun _ => job)

variable {q q' : JobsQueue} {a : Label}

theorem run_shape {j : JobRef} {outcome : Option Raised}
    (taken : q.run j outcome = some q') : StepShape q (.run j outcome) q' := by
  unfold JobsQueue.run at taken
  split at taken
  · cases taken
  · cases taken
  · rename_i pc
    split at taken
    · rename_i r released
      cases taken
      exact .release j outcome r pc released
    · rename_i r raised
      cases taken
      exact .releaseRaised j outcome r pc raised
  · rename_i pc
    cases taken
    exact .onFinish j outcome pc
  · rename_i pc
    cases taken
    refine .cleanup j outcome _ pc ?_
    split_ifs
    · split
      · exact .inr ⟨_, rfl⟩
      · exact .inl rfl
    · exact .inl rfl
  · cases taken
    refine .line j outcome ?_
    unfold RunPc.plain
    split <;> first | contradiction | rfl

theorem step_shape (taken : step q a = some q') : StepShape q a q' := by
  cases a with
  | submit spec info =>
    cases info with
    | none =>
      cases taken
      exact .submit spec
    | some info =>
      cases taken
      refine .audited spec info ?_
      unfold JobsQueue.callWithAudit submitted
      dsimp only [Option.map_some]
      split
      · rename_i r j added
        rw [added]
        exact (SameQueue.recordCall r _).trans (SameQueue.setOnFinishCb _ j _)
      · rename_i r e added
        rw [added]
        exact (SameQueue.recordCall r _).trans (SameQueue.logAudit _ _ _ _ _)
  | next => exact .next q' taken
  | run j outcome =>
    simp only [step] at taken
    split_ifs at taken
    exact run_shape taken
  | abort j =>
    simp only [step] at taken
    split_ifs at taken
    cases taken
    exact .abort j
  | abortLine j i =>
    obtain ⟨job, aborted, rfl⟩ := Option.map_eq_some_iff.mp taken
    exact .abortLine j i job aborted

inductive QueueStep (q : JobsQueue) : Label → JobsQueue → Prop
  | frame {a : Label} {q' : JobsQueue} (same : SameQueue SameJob q q') : QueueStep q a q'
  | submit (spec : JobSpec) (info : Option AuditInfo) {q' : JobsQueue}
      (same : SameQueue SameJob (q.add (submitted q spec info)).1 q') :
      QueueStep q (.submit spec info) q'
  | next {q' : JobsQueue} (taken : q.next = some q') : QueueStep q .next q'
  | release (j : JobRef) (outcome : Option Raised) (r : JobsQueue)
      (pc : (q.jobs j).pc = .releaseLock) (released : q.releaseLock j = .ok r) :
      QueueStep q (.run j outcome)
        (r.setJob j fun job => { job with handedOut := false, pc := .setFinished })
  | releaseRaised (j : JobRef) (outcome : Option Raised) (r : JobsQueue)
      (pc : (q.jobs j).pc = .releaseLock) (raised : q.releaseLock j = .error r) :
      QueueStep q (.run j outcome) (r.setJob j fun job => { job with pc := .ended })

theorem step_cases (taken : step q a = some q') : QueueStep q a q' := by
  cases step_shape taken with
  | submit spec => exact .submit spec none (SameQueue.refl _).sameJob
  | audited spec info kept => exact .submit spec (some info) kept.sameJob
  | next _ taken => exact .next taken
  | line j outcome plain =>
    exact .frame ((SameQueue.refl q).move j (Job.runLine_sameJob _ outcome))
  | release j outcome r pc released => exact .release j outcome r pc released
  | releaseRaised j outcome r pc raised => exact .releaseRaised j outcome r pc raised
  | onFinish j outcome pc =>
    have called := SameQueue.callOnFinishCb q j outcome
    refine .frame (called.move j (Job.outsideTry_sameJob _ _ _ ?_ (by simp)
      (by simp [RunPc.inFlight])))
    rw [Ne, (called.job j).sameJob.started, pc]
    simp
  | cleanup j outcome r pc removed =>
    have kept : SameQueue Bookkept q r := by
      obtain rfl | ⟨id, rfl⟩ := removed
      · exact SameQueue.refl r
      · exact SameQueue.remove q id
    refine .frame (kept.move j (.moved rfl rfl rfl ?_ (by simp) (by simp [RunPc.inFlight])))
    rw [Ne, (kept.job j).sameJob.started, pc]
    simp
  | abort j => exact .frame ((SameQueue.refl q).move j (.stayed rfl rfl rfl rfl))
  | abortLine j i job aborted =>
    obtain ⟨_, _, _, rfl⟩ := Job.abortLine_rest aborted
    exact .frame ((SameQueue.refl q).move j (.stayed rfl rfl rfl rfl))

end TruenasMiddleware.Jobs
