import TruenasMiddleware.Jobs.Lifecycle

/-! The state machine of a job under `run` and `abort`. The assertions of `set_state` and the
promise of `abort` are kept by the runs in which `set_progress` does not raise behind
`set_state('SUCCESS')` and no `abort` tests the state before the test of `aborted` and writes after
it. -/

namespace TruenasMiddleware.Jobs

open Transition State List

/-- The step does not let a caught exception follow `SUCCESS`, nor an abort and
the start of the job overtake each other. -/
def Orderly (q : JobsQueue) : Label → Prop
  | .run j outcome =>
    ((q.jobs j).pc = .progress → outcome = none ∨ outcome = some .baseException) ∧
      ((q.jobs j).pc = .checkAborted → (q.jobs j).aborted = false →
        .writeAborted ∉ (q.jobs j).aborts)
  | .abortLine j i => (q.jobs j).pc = .setRunning → (q.jobs j).aborts[i]? ≠ some .readState
  | _ => True

instance (q : JobsQueue) : (a : Label) → Decidable (Orderly q a)
  | .run j outcome => inferInstanceAs (Decidable (
      ((q.jobs j).pc = .progress → outcome = none ∨ outcome = some .baseException) ∧
        ((q.jobs j).pc = .checkAborted → (q.jobs j).aborted = false →
          .writeAborted ∉ (q.jobs j).aborts)))
  | .abortLine j i => inferInstanceAs (Decidable (
      (q.jobs j).pc = .setRunning → (q.jobs j).aborts[i]? ≠ some .readState))
  | .submit .. | .next | .abort _ => .isTrue trivial

namespace Job

variable {job : Job}

theorem setStateThen_moves {state : State} (next failed : RunPc)
    (legal : job.state = .success ∨ job.state.moves state = true) :
    (job.setStateThen state next failed).state = job.state ∨
      job.state.moves (job.setStateThen state next failed).state = true := by
  rcases legal with success | legal
  · rw [setStateThen_success success]
    exact .inl rfl
  · rw [setStateThen_of_moves legal]
    exact .inr legal

theorem handle_moves {e : Raised} (pc : job.pc = .handler e) (phase : job.Phase) :
    (job.handle e).state = job.state ∨ job.state.moves (job.handle e).state = true := by
  simp only [Phase, pc] at phase
  obtain ⟨-, ⟨-, waiting, rfl⟩ | ⟨-, running⟩ | ⟨-, success⟩⟩ := phase
  · exact setStateThen_moves _ _ (.inr (by simp [waiting, moves]))
  · cases e with
    | cancelledError | jobCancelled | exception =>
      exact setStateThen_moves _ _ (.inr (by simp [running, moves]))
    | baseException => exact .inl rfl
  · cases e with
    | cancelledError | jobCancelled | exception => exact setStateThen_moves _ _ (.inl success)
    | baseException => exact .inl rfl

theorem inTry_state (job : Job) (outcome : Option Raised) (next : RunPc) :
    (job.inTry outcome next).state = job.state := by
  cases outcome <;> rfl

theorem outsideTry_state (job : Job) (outcome : Option Raised) (next : RunPc) :
    (job.outsideTry outcome next).state = job.state := by
  cases outcome <;> rfl

theorem runLine_moves (phase : job.Phase) (outcome : Option Raised) :
    (job.runLine outcome).state = job.state ∨
      job.state.moves (job.runLine outcome).state = true := by
  cases pc : job.pc <;> simp only [runLine, pc]
  case handler e => exact handle_moves pc phase
  case setRunning =>
    simp only [Phase, pc] at phase
    exact setStateThen_moves _ _ (.inr (by simp [phase.2.2, moves]))
  case setSuccess =>
    simp only [Phase, pc] at phase
    exact setStateThen_moves _ _ (.inr (by simp [phase.2.2, moves]))
  case startLogging | closeLogs =>
    left
    split_ifs
    · exact outsideTry_state job outcome _
    · rfl
  case checkAborted =>
    left
    split_ifs <;> rfl
  case recordFailure => cases outcome <;> exact .inl rfl
  case sendRunning | bodyPending | bodyStarted | progress => exact .inl (inTry_state job outcome _)
  case closePipes | sendFinished => exact .inl (outsideTry_state job outcome _)
  all_goals exact .inl trivial

end Job

theorem state_moves {q : JobsQueue} {k : JobRef} {a : Label} {job : Job}
    (phase : (q.jobs k).Phase) (known : k < q.jobCount) (taken : JobStep q k a job) :
    job.state = (q.jobs k).state ∨ (q.jobs k).state.moves job.state = true := by
  cases taken with
  | kept eq =>
    obtain ⟨_, _, rfl⟩ := eq
    exact .inl rfl
  | attached spec info eq =>
    obtain ⟨_, _, _, _, rfl⟩ := eq
    exact .inl rfl
  | created spec info lock fresh eq _ => exact absurd fresh known.ne
  | line outcome plain => exact Job.runLine_moves phase outcome
  | onFinish outcome raised pc eq =>
    obtain ⟨_, _, _, _, rfl⟩ := eq
    exact .inl (Job.outsideTry_state _ raised _)
  | abortLine i aborted =>
    obtain ⟨_, _, _, rfl⟩ := Job.abortLine_rest aborted
    exact .inl rfl
  | handOut | release | cleanup | abort => exact .inl rfl

/-- The lines in front of the test of `aborted`, and the test itself. -/
def RunPc.untested : RunPc → Bool
  | .notStarted | .startLogging | .checkAborted => true
  | _ => false

/-- The lines behind a test of `aborted` that let the job run. -/
def RunPc.starting : RunPc → Bool
  | .setRunning | .sendRunning | .spawnBody | .bodyPending | .bodyStarted | .setSuccess
  | .progress => true
  | _ => false

namespace Job

/-- An abort that found the job `WAITING` is going to stop it, or has. -/
structure Heeded (job : Job) : Prop where
  stopped : job.pc.starting = false
  pending : job.pc.untested = true → job.aborted = true ∨ .writeAborted ∈ job.aborts

structure Sound (job : Job) : Prop where
  phase : job.Phase
  asserted : job.assertionFailed = false
  uncaught : ∀ e, job.pc = .handler e → job.state = .success → e = .baseException
  waiting : job.state = .waiting → job.bodyStarted = false
  heeded : job.abortSawWaiting = true → job.bodyStarted = false ∧ job.Heeded

variable {i : Nat} {job' : Job} {outcome : Option Raised}

theorem mem_set_of_ne {α : Type*} {l : List α} {x y z : α} (mem : x ∈ l)
    (at_i : l[i]? = some y) (different : y ≠ x) : x ∈ l.set i z := by
  obtain ⟨k, found⟩ := mem_iff_getElem?.mp mem
  have elsewhere : i ≠ k := by
    rintro rfl
    exact different (Option.some.inj (at_i.symm.trans found))
  exact mem_iff_getElem?.mpr ⟨k, by rw [List.getElem?_set_ne elsewhere, found]⟩

variable {job : Job}

theorem Heeded.set {y z : AbortPc} (heeded : job.Heeded) (at_i : job.aborts[i]? = some y)
    (different : y ≠ .writeAborted) :
    ({ job with aborts := job.aborts.set i z } : Job).Heeded :=
  ⟨heeded.stopped, fun untested => (heeded.pending untested).imp_right
    fun pending => mem_set_of_ne pending at_i different⟩

theorem Phase.not_starting (phase : job.Phase) (waiting : job.state = .waiting)
    (early : job.pc ≠ .setRunning) : job.pc.starting = false := by
  cases pc : job.pc <;> simp [Phase, pc, waiting] at phase early ⊢ <;> rfl

variable (sound : job.Sound)
include sound

theorem Sound.abortLine (orderly : job.pc = .setRunning → job.aborts[i]? ≠ some .readState)
    (aborted : job.abortLine i = some job') : job'.Sound := by
  obtain ⟨phase, asserted, uncaught, waiting, heeded⟩ := sound
  unfold Job.abortLine at aborted
  split at aborted
  · rename_i at_i
    cases aborted
    exact ⟨phase, asserted, uncaught, waiting,
      fun saw => ⟨(heeded saw).1, (heeded saw).2.set at_i (by simp)⟩⟩
  · rename_i at_i
    cases aborted
    refine ⟨phase, asserted, uncaught, waiting, fun saw => ?_⟩
    by_cases idle : job.state = .waiting
    · refine ⟨waiting idle, phase.not_starting idle fun pc => orderly pc at_i, fun _ => .inr ?_⟩
      have inside : i < job.aborts.length := (List.getElem?_eq_some_iff.mp at_i).1
      simpa only [idle, if_true] using mem_set inside AbortPc.writeAborted
    · have before := heeded (by simpa [idle] using saw)
      have kept := before.2.set (z := .returned) at_i (by simp)
      exact ⟨before.1, kept.stopped, by simpa only [idle, if_false] using kept.pending⟩
  · cases aborted
    exact ⟨phase, asserted, uncaught, waiting,
      fun saw => ⟨(heeded saw).1, (heeded saw).2.stopped, fun _ => .inl rfl⟩⟩
  · cases aborted
  · cases aborted

theorem Sound.unseen (starting : job.pc.starting = true) :
    job.abortSawWaiting ≠ true :=
  fun saw => absurd ((sound.heeded saw).2.stopped.symm.trans starting) (by simp)

variable {next failed : RunPc}

theorem Sound.inTry (phase : (job.inTry outcome next).Phase) (starting : job.pc.starting = true)
    (plain : ∀ e, next ≠ .handler e)
    (uncaught : job.state = .success → outcome = none ∨ outcome = some .baseException) :
    (job.inTry outcome next).Sound := by
  have unseen := sound.unseen starting
  cases outcome with
  | none =>
    exact ⟨phase, sound.asserted, fun e pc => absurd pc (plain e), sound.waiting,
      fun saw => absurd saw unseen⟩
  | some e =>
    refine ⟨phase, sound.asserted, ?_, sound.waiting, fun saw => absurd saw unseen⟩
    rintro _ ⟨⟩ success
    simpa using uncaught success

theorem Sound.moved {raised : List (RunPc × Raised)} {finished : Bool}
    (phase : ({ job with pc := next, raised := raised, finished := finished } : Job).Phase)
    (plain : ∀ e, next ≠ .handler e) (stopped : next.starting = false)
    (untested : next.untested = true → job.pc.untested = true) :
    ({ job with pc := next, raised := raised, finished := finished } : Job).Sound :=
  ⟨phase, sound.asserted, fun e pc => absurd pc (plain e), sound.waiting, fun saw =>
    ⟨(sound.heeded saw).1, stopped, fun early => (sound.heeded saw).2.pending (untested early)⟩⟩

theorem Sound.outsideTry (outcome : Option Raised)
    (phase : (job.outsideTry outcome next).Phase) (plain : ∀ e, next ≠ .handler e)
    (stopped : next.starting = false) (untested : next.untested = true → job.pc.untested = true) :
    (job.outsideTry outcome next).Sound := by
  cases outcome with
  | none => exact sound.moved phase plain stopped untested
  | some e => exact sound.moved phase (by simp) rfl (by simp [RunPc.untested])

theorem Sound.setStateThen {state : State}
    (legal : job.state.moves state = true) (phase : (job.setStateThen state next failed).Phase)
    (plain : ∀ e, next ≠ .handler e) (tested : next.untested = false)
    (stopped : job.abortSawWaiting = true → next.starting = false) :
    (job.setStateThen state next failed).Sound := by
  rw [setStateThen_of_moves legal] at phase ⊢
  refine ⟨phase, sound.asserted, fun e pc => absurd pc (plain e), ?_, fun saw => ?_⟩
  · rintro rfl
    cases before : job.state <;> simp [before, moves] at legal
  · exact ⟨(sound.heeded saw).1, stopped saw, fun early => by simp [tested] at early⟩

theorem Sound.handle {e : Raised} (pc : job.pc = .handler e) :
    (job.handle e).Sound := by
  have next := handle_phase pc sound.phase
  have finally_sound : ({ job with pc := .closeLogs } : Job).Phase →
      ({ job with pc := .closeLogs } : Job).Sound := fun phase =>
    sound.moved phase (by simp) rfl (by simp [RunPc.untested])
  have phase := sound.phase
  simp only [Phase, pc] at phase
  obtain ⟨-, ⟨-, idle, rfl⟩ | ⟨-, running⟩ | ⟨-, success⟩⟩ := phase
  · exact sound.setStateThen (by simp [idle, moves]) next (by simp) rfl fun _ => rfl
  · cases e with
    | cancelledError | jobCancelled | exception =>
      exact sound.setStateThen (by simp [running, moves]) next (by simp) rfl fun _ => rfl
    | baseException => exact finally_sound next
  · obtain rfl := sound.uncaught e pc success
    exact finally_sound next

theorem Sound.runLine (plain : job.pc.plain = true)
    (uncaught : job.pc = .progress → outcome = none ∨ outcome = some .baseException)
    (heard : job.pc = .checkAborted → job.aborted = false → .writeAborted ∉ job.aborts) :
    (job.runLine outcome).Sound := by
  have next := sound.phase.runLine outcome plain
  have phase := sound.phase
  cases pc : job.pc <;> simp only [pc, RunPc.plain, Bool.false_eq_true] at plain
  all_goals simp only [Job.runLine, pc] at next ⊢
  case handler e => exact sound.handle pc
  all_goals simp only [Phase, pc] at phase
  case startLogging =>
    split_ifs at next ⊢
    · exact sound.outsideTry outcome next (by simp) rfl fun _ => by rw [pc]; rfl
    · exact sound.outsideTry none next (by simp) rfl fun _ => by rw [pc]; rfl
  case checkAborted =>
    split_ifs at next ⊢ with aborted
    · refine ⟨next, sound.asserted, ?_, sound.waiting,
        fun saw => ⟨(sound.heeded saw).1, rfl, by simp [RunPc.untested]⟩⟩
      intro e _ success
      rw [phase.2.2] at success
      cases success
    · -- an abort that saw the job waiting has written by now
      have unseen : job.abortSawWaiting ≠ true := fun saw =>
        ((sound.heeded saw).2.pending (by rw [pc]; rfl)).elim aborted
          (heard pc (Bool.eq_false_iff.mpr aborted))
      exact ⟨next, sound.asserted, by simp, sound.waiting, fun saw => absurd saw unseen⟩
  case setRunning | setSuccess =>
    exact sound.setStateThen (by simp [phase.2.2, moves]) next (by simp) rfl
      fun saw => absurd saw (sound.unseen (by rw [pc]; rfl))
  case sendRunning | bodyStarted =>
    exact sound.inTry next (by rw [pc]; rfl) (by simp) (by simp [phase.2.2])
  case progress => exact sound.inTry next (by rw [pc]; rfl) (by simp) fun _ => uncaught pc
  case bodyPending =>
    have entered := sound.inTry next (by rw [pc]; rfl) (by simp) (by simp [phase.2.2])
    refine ⟨next, entered.asserted, entered.uncaught, ?_, fun saw => ?_⟩
    · simp [inTry_state, phase.2.2]
    · exact absurd (by cases outcome <;> exact saw) (sound.unseen (by rw [pc]; rfl))
  case spawnBody =>
    exact ⟨next, sound.asserted, by simp, sound.waiting,
      fun saw => absurd saw (sound.unseen (by rw [pc]; rfl))⟩
  case recordFailure =>
    cases outcome <;> exact sound.moved next (by simp) rfl (by simp [RunPc.untested])
  case closeLogs =>
    split_ifs at next ⊢
    · exact sound.outsideTry outcome next (by simp) rfl (by simp [RunPc.untested])
    · exact sound.outsideTry none next (by simp) rfl (by simp [RunPc.untested])
  case closePipes | sendFinished =>
    exact sound.outsideTry outcome next (by simp) rfl (by simp [RunPc.untested])
  case setFinished => exact sound.moved next (by simp) rfl (by simp [RunPc.untested])

theorem Sound.bookkept (same : Bookkept job job') : job'.Sound := by
  have phase := sound.phase.bookkept same
  obtain ⟨_, _, _, _, rfl⟩ := same
  exact ⟨phase, sound.asserted, sound.uncaught, sound.waiting,
    fun saw => ⟨(sound.heeded saw).1, (sound.heeded saw).2.stopped, (sound.heeded saw).2.pending⟩⟩

omit sound

theorem create_sound (spec : JobSpec) (call : Option CallRef) (lock : Option LockRef) :
    ({ Job.create spec call with lock := lock } : Job).Sound :=
  ⟨create_phase spec call lock, rfl, by simp [Job.create], fun _ => rfl, by simp [Job.create]⟩

theorem Sound.step {q : JobsQueue} {k : JobRef} {a : Label} (sound : (q.jobs k).Sound)
    (orderly : Orderly q a) (taken : JobStep q k a job) :
    job.Sound := by
  have phase := sound.phase.step taken
  cases taken with
  | kept eq => exact sound.bookkept eq.bookkept
  | attached spec info eq => exact sound.bookkept eq
  | created spec info lock fresh eq _ => exact (create_sound spec _ lock).bookkept eq
  | handOut waiting =>
    exact ⟨phase, sound.asserted, by simp, sound.waiting, fun saw => ⟨(sound.heeded saw).1, rfl,
      fun _ => (sound.heeded saw).2.pending (by rw [waiting]; rfl)⟩⟩
  | line outcome plain => exact sound.runLine plain orderly.1 orderly.2
  | onFinish outcome raised pc eq =>
    exact (sound.bookkept eq).outsideTry raised phase (by simp) rfl (by simp [RunPc.untested])
  | release | cleanup =>
    exact ⟨phase, sound.asserted, by simp, sound.waiting,
      fun saw => ⟨(sound.heeded saw).1, rfl, by simp [RunPc.untested]⟩⟩
  | abort =>
    exact ⟨phase, sound.asserted, sound.uncaught, sound.waiting, fun saw =>
      ⟨(sound.heeded saw).1, (sound.heeded saw).2.stopped, fun early =>
        ((sound.heeded saw).2.pending early).imp_right fun pending =>
          mem_append_left _ pending⟩⟩
  | abortLine i aborted => exact sound.abortLine orderly aborted

end Job

/-- In every orderly run the assertions of `set_state` hold, the state of a job
moves along the state machine, and a job that some `abort()` found `WAITING`
does not enter its method. -/
theorem job_state_machine {q : JobsQueue} (reached : Reach step Orderly {} q) (j : JobRef) :
    (q.jobs j).assertionFailed = false ∧
      ((q.jobs j).abortSawWaiting = true → (q.jobs j).bodyStarted = false) ∧
      ∀ a q', j < q.jobCount → step q a = some q' → (q'.jobs j).state = (q.jobs j).state ∨
          (q.jobs j).state.moves (q'.jobs j).state = true := by
  have sound : (q.jobs j).Sound :=
    reach_jobs (Job.create_sound {} none none)
      (fun _ _ _ _ _ sound orderly taken => sound.step orderly taken) reached j
  refine ⟨sound.asserted, fun saw => (sound.heeded saw).1, fun a q' known taken => ?_⟩
  exact state_moves sound.phase known (step_job (LockInv.reach reached) taken j)

def abortWaiting : List Label :=
  .submit {} none :: .abort 0 :: replicate 3 (.abortLine 0 0) ++ .next ::
    replicate 3 (.run 0 none)

theorem job_state_machine_abortWaiting :
    ∃ q, exec step Orderly {} abortWaiting = some q ∧ (q.jobs 0).abortSawWaiting = true ∧
      (q.jobs 0).state = .aborted ∧ (q.jobs 0).bodyStarted = false := by
  have run : ∃ q, exec step Orderly {} abortWaiting = some q ∧
      (q.jobs 0).abortSawWaiting = true ∧ (q.jobs 0).state = .aborted := ⟨_, rfl, rfl, rfl⟩
  obtain ⟨q, result, saw, aborted⟩ := run
  exact ⟨q, result, saw, aborted, (job_state_machine (reach_exec .start result) 0).2.1 saw⟩

/-- When `set_progress(100, '')` raises behind `set_state('SUCCESS')`, the handler's
`set_state('FAILED')` fails its assertion. When `abort()` reads the state in front
of `set_state('RUNNING')` and the test of `aborted` has been made, the job starts. -/
theorem job_state_machine_broken :
    (∃ q, Reach step Always {} q ∧ (q.jobs 0).assertionFailed = true ∧
      (q.jobs 0).state = .success) ∧
    ∃ q, Reach step Always {} q ∧ (q.jobs 0).abortSawWaiting = true ∧
      (q.jobs 0).bodyStarted = true := by
  constructor
  · apply exists_reach (soloRun {} (replicate 8 none ++ [some .exception, none]))
    exact ⟨_, rfl, rfl, rfl⟩
  · apply exists_reach (soloRun {} [none, none] ++ [.abort 0, .abortLine 0 0, .abortLine 0 0] ++
      replicate 4 (.run 0 none))
    exact ⟨_, rfl, rfl, rfl⟩

end TruenasMiddleware.Jobs
