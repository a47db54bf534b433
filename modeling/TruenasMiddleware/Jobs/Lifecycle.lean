import TruenasMiddleware.Jobs.Locks

/-! The life of one job. `step_job` projects a step of the system to a single
job; an invariant of jobs is then proved by one case for each thing that can
happen to a job. The invariant here follows `run` line by line and says with
which state, event and exceptions each line is reached. -/

namespace TruenasMiddleware.Jobs

open Transition List

/-- What a step of the system does to the job `k`. -/
inductive JobStep (q : JobsQueue) (k : JobRef) : Label → Job → Prop
  | kept {a : Label} {job : Job} (same : Numbered (q.jobs k) job) : JobStep q k a job
  | attached (spec : JobSpec) (info : AuditInfo) {job : Job} (same : Bookkept (q.jobs k) job) :
      JobStep q k (.submit spec (some info)) job
  | created (spec : JobSpec) (info : Option AuditInfo) (lock : Option LockRef) {job : Job}
      (fresh : k = q.jobCount) (same : Bookkept { submitted q spec info with lock := lock } job)
      (unaudited : info = none → Numbered { submitted q spec info with lock := lock } job) :
      JobStep q k (.submit spec info) job
  | handOut (waiting : (q.jobs k).pc = .notStarted) :
      JobStep q k .next { q.jobs k with handedOut := true, pc := .startLogging }
  | line (outcome : Option Raised) (plain : (q.jobs k).pc.plain = true) :
      JobStep q k (.run k outcome) ((q.jobs k).runLine outcome)
  | release (outcome : Option Raised) (pc : (q.jobs k).pc = .releaseLock) :
      JobStep q k (.run k outcome) { q.jobs k with handedOut := false, pc := .setFinished }
  | onFinish (outcome raised : Option Raised) {job : Job} (pc : (q.jobs k).pc = .onFinish)
      (same : Bookkept (q.jobs k) job) :
      JobStep q k (.run k outcome) (job.outsideTry raised .sendFinished)
  | cleanup (outcome : Option Raised) (pc : (q.jobs k).pc = .cleanup) :
      JobStep q k (.run k outcome) { q.jobs k with pc := .ended }
  | abort : JobStep q k (.abort k) (q.jobs k).abort
  | abortLine (i : Nat) {job : Job} (taken : (q.jobs k).abortLine i = some job) :
      JobStep q k (.abortLine k i) job

section

variable {q q' r : JobsQueue} {a : Label}

theorem setJob_job {k j : JobRef} {f : Job → Job} (other : k ≠ j → r.jobs k = q.jobs k)
    (own : k = j → JobStep q k a (f (r.jobs j))) : JobStep q k a ((r.setJob j f).jobs k) := by
  by_cases eq : k = j
  · subst eq
    simpa [JobsQueue.setJob] using own rfl
  · simp only [JobsQueue.setJob, Function.update_of_ne eq]
    rw [other eq]
    exact .kept (refl_of Numbered _)

theorem add_job (inv : LockInv q) (spec : JobSpec) (info : Option AuditInfo) (k : JobRef) :
    k ≠ q.jobCount ∧ Numbered (q.jobs k) ((q.add (submitted q spec info)).1.jobs k) ∨
      k = q.jobCount ∧ ∃ lock, Numbered { submitted q spec info with lock := lock }
        ((q.add (submitted q spec info)).1.jobs k) := by
  obtain ⟨r, prepared, kept⟩ : ∃ r, Prepared q r (submitted q spec info) q.jobCount ∧
      Numbered (r.jobs k) ((q.add (submitted q spec info)).1.jobs k) := by
    have added : AddResult q (submitted q spec info) _ := inv.add_cases rfl rfl rfl
    obtain prepared | ⟨s, prepared, -, event, result, -⟩ := added
    · exact ⟨_, prepared, refl_of Numbered _⟩
    · rw [result]
      exact ⟨s, prepared, (SameQueue.dequeAdd s q.jobCount).job k⟩
  by_cases new : k = q.jobCount
  · subst new
    exact .inr ⟨rfl, _, trans_of Numbered prepared.own kept⟩
  · exact .inl ⟨new, trans_of Numbered (prepared.other k new) kept⟩

theorem next_job (inv : LockInv q) (taken : q.next = some q') (k : JobRef) :
    JobStep q k .next (q'.jobs k) := by
  obtain ⟨-, ⟨j, found, rfl⟩ | ⟨-, rfl⟩⟩ := inv.next_cases taken
  · have queued := List.mem_of_find?_eq_some found
    obtain ⟨r, result, jobs, -⟩ := inv.take_handOut found
    rw [result]
    change JobStep q k .next ((r.setJob j fun job =>
      { job with handedOut := true, pc := .startLogging }).jobs k)
    refine setJob_job ?_ ?_
    · exact fun _ => by rw [jobs]
    · rintro rfl
      rw [jobs]
      exact .handOut (inv.queued k queued).2.2
  · exact .kept (refl_of Numbered _)

theorem step_job (inv : LockInv q) (taken : step q a = some q') (k : JobRef) :
    JobStep q k a (q'.jobs k) := by
  cases step_shape taken with
  | submit spec =>
    obtain ⟨-, same⟩ | ⟨fresh, lock, same⟩ := add_job inv spec none k
    · exact .kept same
    · exact .created spec none lock fresh same.bookkept fun _ => same
  | audited spec info kept =>
    obtain ⟨-, same⟩ | ⟨fresh, lock, same⟩ := add_job inv spec (some info) k
    · exact .attached spec info (same.bookkept.trans (kept.job k))
    · exact .created spec (some info) lock fresh (same.bookkept.trans (kept.job k)) (by simp)
  | next _ taken => exact next_job inv taken k
  | line j outcome plain =>
    refine setJob_job (fun _ => rfl) ?_
    rintro rfl
    exact .line outcome plain
  | release j outcome r pc released =>
    have jobs := inv.releaseLock_jobs (inv.releasing pc) released
    refine setJob_job (fun _ => by rw [jobs]) ?_
    rintro rfl
    rw [jobs]
    exact .release outcome pc
  | releaseRaised j outcome r pc raised => exact absurd raised (inv.releaseLock_ne_error pc r)
  | onFinish j outcome pc =>
    refine setJob_job (SameQueue.callOnFinishCb_other q outcome) ?_
    rintro rfl
    exact .onFinish outcome _ pc ((SameQueue.callOnFinishCb q k outcome).job k)
  | cleanup j outcome r pc removed =>
    have jobs : r.jobs = q.jobs := by
      obtain rfl | ⟨id, rfl⟩ := removed <;> rfl
    refine setJob_job (fun _ => by rw [jobs]) ?_
    rintro rfl
    rw [jobs]
    exact .cleanup outcome pc
  | abort j =>
    refine setJob_job (fun _ => rfl) ?_
    rintro rfl
    exact .abort
  | abortLine j i job aborted =>
    refine setJob_job (fun _ => rfl) ?_
    rintro rfl
    exact .abortLine i aborted

theorem reach_jobs {ok : JobsQueue → Label → Prop} {P : Job → Prop}
    (init : P (Job.create {} none))
    (keep : ∀ q k a job, LockInv q → P (q.jobs k) → ok q a → JobStep q k a job → P job)
    (reached : Reach step ok {} q) (k : JobRef) : P (q.jobs k) := by
  refine reached.invariant_of_reach (P := fun q => ∀ k, P (q.jobs k)) (fun _ => init) ?_ k
  intro q a q' before kept met taken k
  have inv := LockInv.reach before
  exact keep q k a _ inv (kept k) met (step_job inv taken k)

end

def State.moves : State → State → Bool
  | .waiting, .running | .waiting, .aborted => true
  | .running, .success | .running, .failed | .running, .aborted => true
  | _, _ => false

/-- The exceptions that `run` does not survive: those raised before its `try` or in
its `finally` in front of `release_lock`, and those that no `except` clause
catches while the job is `RUNNING`. -/
def Fatal : RunPc × Raised → Prop
  | (.startLogging, _) | (.closeLogs, _) | (.closePipes, _) => True
  | (.sendRunning, e) | (.bodyPending, e) | (.bodyStarted, e) => e = .baseException
  | _ => False

namespace Job

def Clean (job : Job) : Prop := ∀ raise ∈ job.raised, ¬ Fatal raise

theorem clean_record (job : Job) (e : Raised) :
    (job.record e).Clean ↔ ¬ Fatal (job.pc, e) ∧ job.Clean := by
  simp only [Clean, record, mem_cons, forall_eq_or_imp]

/-- With which state and event `run` reaches each of its lines. -/
def Phase (job : Job) : Prop :=
  match job.pc with
  | .notStarted | .startLogging | .checkAborted | .setRunning =>
    job.finished = false ∧ job.Clean ∧ job.state = .waiting
  | .sendRunning | .spawnBody | .bodyPending | .bodyStarted | .setSuccess =>
    job.finished = false ∧ job.Clean ∧ job.state = .running
  | .progress => job.finished = false ∧ job.Clean ∧ job.state = .success
  | .handler e => job.finished = false ∧
    (job.Clean ∧ job.state = .waiting ∧ e = .cancelledError ∨
      (job.Clean ↔ e ≠ .baseException) ∧ job.state = .running ∨
      job.Clean ∧ job.state = .success)
  | .recordFailure => job.finished = false ∧ job.Clean ∧ job.state = .failed
  | .closeLogs | .closePipes | .releaseLock =>
    job.finished = false ∧ (job.state.terminal = true ↔ job.Clean)
  | .setFinished =>
    job.finished = false ∧ job.handedOut = false ∧ (job.state.terminal = true ↔ job.Clean)
  | .onFinish | .sendFinished | .cleanup =>
    job.handedOut = false ∧ (job.state.terminal = true ↔ job.Clean)  ∧ job.finished = true
  | .ended =>
    (job.finished = true ∧ job.state.terminal = true ↔ job.Clean) ∧
      (job.finished = true → job.handedOut = false)

variable {job job' : Job} {next failed : RunPc}

theorem inTry_phase (outcome : Option Raised) (unfinished : job.finished = false)
    (clean : job.Clean) (running : job.state = .running)
    (fatal : ∀ e, Fatal (job.pc, e) ↔ e = .baseException)
    (goesOn : ({ job with pc := next } : Job).Phase) : (job.inTry outcome next).Phase := by
  cases outcome with
  | none => exact goesOn
  | some e =>
    refine ⟨unfinished, .inr (.inl ⟨?_, running⟩)⟩
    exact (job.clean_record e).trans (by simp [fatal, clean])

theorem outsideTry_phase (outcome : Option Raised) (unfinished : job.finished = false)
    (fatal : ∀ e, Fatal (job.pc, e)) (goesOn : ({ job with pc := next } : Job).Phase) :
    (job.outsideTry outcome next).Phase := by
  cases outcome with
  | none => exact goesOn
  | some e =>
    refine ⟨?_, fun finished => ?_⟩
    · refine iff_of_false (fun ends => ?_)
        (mt (job.clean_record e).mp fun clean => clean.1 (fatal e))
      exact absurd (unfinished.symm.trans ends.1) (by simp)
    · exact absurd (unfinished.symm.trans finished) (by simp)

theorem afterRelease_phase (outcome : Option Raised)
    (ends : job.handedOut = false ∧ (job.state.terminal = true ↔ job.Clean) ∧ job.finished = true)
    (harmless : ∀ e, ¬ Fatal (job.pc, e)) (goesOn : ({ job with pc := next } : Job).Phase) :
    (job.outsideTry outcome next).Phase := by
  cases outcome with
  | none => exact goesOn
  | some e =>
    obtain ⟨released, terminal, finished⟩ := ends
    have clean : (job.record e).Clean ↔ job.Clean :=
      (job.clean_record e).trans (and_iff_right (harmless e))
    exact ⟨(and_iff_right finished).trans (terminal.trans clean.symm), fun _ => released⟩

theorem setStateThen_of_moves {state : State} (legal : job.state.moves state = true) :
    job.setStateThen state next failed = { job with state := state, pc := next } := by
  cases before : job.state <;> cases state <;>
    simp_all [setStateThen, setState, State.moves, State.terminal]

theorem setStateThen_success (success : job.state = .success) (state : State)
    (next failed : RunPc) :
    job.setStateThen state next failed = { job with assertionFailed := true, pc := failed } := by
  simp [setStateThen, setState, success, State.terminal]

theorem handle_phase {e : Raised} (pc : job.pc = .handler e) (phase : job.Phase) :
    (job.handle e).Phase := by
  simp only [Phase, pc] at phase
  obtain ⟨unfinished, ⟨clean, waiting, rfl⟩ | ⟨clean, running⟩ | ⟨clean, success⟩⟩ := phase
  · simp only [handle, setStateThen, setState, waiting]
    exact ⟨unfinished, iff_of_true rfl clean⟩
  · cases e with
    | cancelledError | jobCancelled =>
      simp only [handle, setStateThen, setState, running]
      exact ⟨unfinished, iff_of_true rfl (clean.mpr (by simp))⟩
    | exception =>
      simp only [handle, setStateThen, setState, running]
      exact ⟨unfinished, clean.mpr (by simp), rfl⟩
    | baseException =>
      exact ⟨unfinished, iff_of_false (by simp [handle, running, State.terminal])
        fun fine => clean.mp fine rfl⟩
  · -- the job has succeeded already, so the assertion of `set_state` fails
    have ends : job.state.terminal = true ↔ job.Clean :=
      iff_of_true (by simp [success, State.terminal]) clean
    cases e with
    | cancelledError | jobCancelled | exception =>
      simp only [handle, setStateThen_success success]
      exact ⟨unfinished, ends⟩
    | baseException => exact ⟨unfinished, ends⟩

theorem Phase.runLine (phase : job.Phase) (outcome : Option Raised) (plain : job.pc.plain = true) :
    (job.runLine outcome).Phase := by
  cases pc : job.pc <;> simp only [pc, RunPc.plain, Bool.false_eq_true] at plain
  case handler e =>
    simp only [Job.runLine, pc]
    exact handle_phase pc phase
  all_goals
    simp only [Phase, pc] at phase
    simp only [Job.runLine, pc]
  case startLogging =>
    obtain ⟨unfinished, clean, waiting⟩ := phase
    split_ifs
    · exact outsideTry_phase outcome unfinished (fun e => by simp [pc, Fatal])
        ⟨unfinished, clean, waiting⟩
    · exact ⟨unfinished, clean, waiting⟩
  case checkAborted =>
    obtain ⟨unfinished, clean, waiting⟩ := phase
    split_ifs
    · exact ⟨unfinished, .inl ⟨clean, waiting, rfl⟩⟩
    · exact ⟨unfinished, clean, waiting⟩
  case setRunning =>
    obtain ⟨unfinished, clean, waiting⟩ := phase
    simp only [setStateThen, setState, waiting]
    exact ⟨unfinished, clean, rfl⟩
  case spawnBody => exact phase
  case sendRunning | bodyPending | bodyStarted =>
    exact inTry_phase outcome phase.1 phase.2.1 phase.2.2 (fun e => by simp [pc, Fatal]) phase
  case setSuccess =>
    obtain ⟨unfinished, clean, running⟩ := phase
    simp only [setStateThen, setState, running]
    exact ⟨unfinished, clean, rfl⟩
  case progress =>
    obtain ⟨unfinished, clean, success⟩ := phase
    cases outcome with
    | none => exact ⟨unfinished, iff_of_true (by simp [inTry, success, State.terminal]) clean⟩
    | some e =>
      have stillClean := (job.clean_record e).mpr ⟨by simp [pc, Fatal], clean⟩
      exact ⟨unfinished, .inr (.inr ⟨stillClean, success⟩)⟩
  case recordFailure =>
    obtain ⟨unfinished, clean, failed⟩ := phase
    have ends : job.state.terminal = true := by simp [failed, State.terminal]
    cases outcome with
    | none => exact ⟨unfinished, iff_of_true ends clean⟩
    | some e =>
      exact ⟨unfinished, iff_of_true ends ((job.clean_record e).mpr ⟨by simp [pc, Fatal], clean⟩)⟩
  case closeLogs =>
    split_ifs
    · exact outsideTry_phase outcome phase.1 (fun e => by simp [pc, Fatal]) phase
    · exact phase
  case closePipes => exact outsideTry_phase outcome phase.1 (fun e => by simp [pc, Fatal]) phase
  case setFinished => exact ⟨phase.2.1, phase.2.2, rfl⟩
  case sendFinished => exact afterRelease_phase outcome phase (fun e => by simp [pc, Fatal]) phase

theorem Phase.bookkept (phase : job.Phase) (same : Bookkept job job') :
    job'.Phase := by
  obtain ⟨_, _, _, _, rfl⟩ := same
  exact phase

theorem create_phase (spec : JobSpec) (call : Option CallRef) (lock : Option LockRef) :
    ({ Job.create spec call with lock := lock } : Job).Phase :=
  ⟨rfl, fun _ mem => (not_mem_nil mem).elim, rfl⟩

theorem Phase.step {q : JobsQueue} {k : JobRef} {a : Label} (phase : (q.jobs k).Phase)
    (taken : JobStep q k a job) : job.Phase := by
  cases taken with
  | kept eq => exact phase.bookkept eq.bookkept
  | attached spec info eq => exact phase.bookkept eq
  | created spec info lock fresh eq _ => exact (create_phase spec _ lock).bookkept eq
  | handOut waiting =>
    simp only [Phase, waiting] at phase
    exact phase
  | line outcome plain => exact phase.runLine outcome plain
  | release outcome pc =>
    simp only [Phase, pc] at phase
    exact ⟨phase.1, rfl, phase.2⟩
  | onFinish outcome raised pc eq =>
    have before := phase.bookkept eq
    obtain ⟨_, _, _, _, rfl⟩ := eq
    simp only [Phase, pc] at before
    exact afterRelease_phase raised before (fun e => by simp [pc, Fatal]) before
  | cleanup outcome pc =>
    simp only [Phase, pc] at phase
    exact ⟨(and_iff_right phase.2.2).trans phase.2.1, fun _ => phase.1⟩
  | abort => exact phase
  | abortLine i aborted =>
    obtain ⟨_, _, _, rfl⟩ := Job.abortLine_rest aborted
    exact phase

end Job

theorem reach_phase {ok : JobsQueue → Label → Prop} {q : JobsQueue}
    (reached : Reach step ok {} q) (j : JobRef) : (q.jobs j).Phase :=
  reach_jobs (Job.create_phase {} none none) (fun _ _ _ _ _ phase _ taken => phase.step taken)
    reached j

/-- The job does not hold its lock any more: where it is locked, another job holds it. -/
def JobsQueue.LockReleased (q : JobsQueue) (j : JobRef) : Prop :=
  ∀ l, (q.jobs j).lock = some l → (q.locks l).locked = true →
    ∃ k, k ≠ j ∧ (q.jobs k).handedOut = true ∧ (q.jobs k).lock = some l

/-- A `run` that has ended has released the lock, set the finished event and left a
terminal state, exactly when none of the exceptions it met was fatal. -/
theorem job_run_ends {q : JobsQueue} (reached : Reach step Always {} q) (j : JobRef)
    (ended : (q.jobs j).pc = .ended) :
    (q.LockReleased j ∧ (q.jobs j).finished = true ∧ (q.jobs j).state.terminal = true) ↔
      ∀ raise ∈ (q.jobs j).raised, ¬ Fatal raise := by
  have phase := reach_phase reached j
  simp only [Job.Phase, ended] at phase
  obtain ⟨ends, released⟩ := phase
  refine ⟨fun finished => ends.mp finished.2, fun clean => ⟨?_, ends.mpr clean⟩⟩
  intro l pointer locked
  obtain ⟨k, held, pointer'⟩ := ((LockInv.reach reached).held l).mp locked
  refine ⟨k, ?_, held, pointer'⟩
  rintro rfl
  rw [released (ends.mpr clean).1] at held
  cases held

/-- A job is submitted and handed out, and its `run` meets the outcomes in turn. -/
def soloRun (spec : JobSpec) (outcomes : List (Option Raised)) : List Label :=
  .submit spec none :: .next :: outcomes.map (.run 0)

theorem job_run_ends_failed :
    ∃ q, exec step Always {} (soloRun { options := { lock := .constant (some "tank") } }
        (replicate 6 none ++ some .exception :: replicate 9 none)) = some q ∧
      (q.jobs 0).pc = .ended ∧ (q.jobs 0).raised = [(.bodyStarted, .exception)] ∧
      q.LockReleased 0 ∧ (q.jobs 0).finished = true ∧ (q.jobs 0).state.terminal = true := by
  have run : ∃ q, exec step Always {} (soloRun { options := { lock := .constant (some "tank") } }
        (replicate 6 none ++ some .exception :: replicate 9 none)) = some q ∧
      (q.jobs 0).pc = .ended ∧ (q.jobs 0).raised = [(.bodyStarted, .exception)] :=
    ⟨_, rfl, rfl, rfl⟩
  obtain ⟨q, result, ended, raised⟩ := run
  refine ⟨q, result, ended, raised, (job_run_ends (reach_exec .start result) 0 ended).mpr ?_⟩
  simp [raised, Fatal]

/-- The log file cannot be opened: `run` is over, the lock stays locked, nobody is
told and the job stays `WAITING`. -/
theorem job_run_ends_locked : ∃ q, Reach step Always {} q ∧ (q.jobs 0).pc = .ended ∧
      (q.jobs 0).lock = some 0 ∧ (q.locks 0).locked = true ∧ (q.jobs 0).handedOut = true ∧
      (q.jobs 0).finished = false ∧ (q.jobs 0).state = .waiting := by
  apply exists_reach (soloRun
    { options := { lock := .constant (some "tank"), logs := true } } [some .exception])
  exact ⟨_, rfl, rfl, rfl, rfl, rfl, rfl, rfl⟩

end TruenasMiddleware.Jobs
