import TruenasMiddleware.Jobs.Locks

/-! `Middleware._call_prepare` of a job method. On the event loop it calls
`jobs.add` itself; from a worker thread it schedules a callback that does so and
waits for the event that the callback sets. -/

namespace TruenasMiddleware.Jobs

open Transition

inductive PipeName
  | input | output
deriving DecidableEq

def PipeName.repr : PipeName → String
  | .input => "'input'"
  | .output => "'output'"

structure JobCall where
  /-- `_pass_app['require']`, `none` for a method without `_pass_app`. -/
  passAppRequire : Option Bool := none
  passThreadLocalStorage : Bool := false
  isCoroutine : Bool := true
  /-- The credentials of `app`, `none` when `app is None`. -/
  app : Option (Option Credentials) := none
  options : Options := {}
  checkPipes : Bool := true
  pipes : List PipeName := []
  openPipes : List PipeName := []
  messageId : Option String := none
  encodes : Bool := true
  auditMessages : List String := []

def appIsRequired : CallError := ⟨"`app` is required", .efault⟩

/-- `Job.check_pipe` for every pipe of the method. -/
def JobCall.checkPipe (call : JobCall) : Except Error Unit :=
  if call.checkPipes then
    match call.pipes.find? (· ∉ call.openPipes) with
    | some pipe => .error (.valueError ("Pipe " ++ pipe.repr ++ " is not open"))
    | none => .ok ()
  else .ok ()

def JobCall.construct (call : JobCall) : Except Error JobSpec := do
  if call.passAppRequire = some true ∧ call.app = none then
    throw (.callError appIsRequired)
  if call.passThreadLocalStorage ∧ call.isCoroutine then
    throw (.runtimeError "Thread local storage is invalid for coroutines")
  call.checkPipe
  return {
    options := call.options, credentials := call.app.join, messageId := call.messageId
    encodes := call.encodes, auditMessages := call.auditMessages }

inductive PrepareOutcome
  | prepared (job : JobRef)
  | raised (e : Error)
  | waits

namespace JobsQueue

variable (q : JobsQueue)

/-- The callback `cb`. The loop takes the exception of `add`, and `event.set()` is
reached only without one: `none` is an event that is not set. -/
def cb (job : Job) : JobsQueue × Option JobRef :=
  ((q.add job).1, (q.add job).2.toOption)

def callPrepare (call : JobCall) (auditCallback : Option CallRef)
    (inEventLoop : Bool) : JobsQueue × PrepareOutcome :=
  match call.construct with
  | .error e => (q, .raised e)
  | .ok spec =>
    if inEventLoop then
      match q.add (Job.create spec auditCallback) with
      | (q, .ok j) => (q, .prepared j)
      | (q, .error e) => (q, .raised e)
    else
      match q.cb (Job.create spec auditCallback) with
      | (q, some j) => (q, .prepared j)
      | (q, none) => (q, .waits)

/-- The decided job is taken: neither the running nor the queued jobs of its lock
keep it out, and the event that `add` sends about it can be encoded. -/
def AcceptsHandled (j : JobRef) : Prop :=
  match q.admission j with
  | .reject _ => False
  | .coalesce k => (q.jobs j).messageIds = [] ∨ (q.jobs k).spec.encodes = true
  | .append => (q.jobs j).spec.encodes = true

/-- `add` takes the job: its lock name can be computed, and the job is taken with
its lock handled. -/
def Accepts (job : Job) : Prop :=
  match job.spec.getLockName with
  | .error _ => False
  | .ok name => ((q.alloc job).handleLock q.jobCount name).AcceptsHandled q.jobCount

theorem enqueue_ok_iff (j : JobRef) :
    (∃ k, (q.enqueue j).2 = .ok k) ↔ q.AcceptsHandled j := by
  unfold enqueue AcceptsHandled
  cases q.admission j with
  | reject e => simp
  | coalesce k =>
    have kept : ((q.setJob k fun job =>
        { job with messageIds := job.messageIds ++ (q.jobs j).messageIds }).jobs k).spec =
          (q.jobs k).spec := by
      simp [setJob]
    dsimp only
    rw [kept]
    split_ifs with silent encodes
    · simp [silent]
    · simp [encodes]
    · simp [silent, encodes]
  | append =>
    have kept : ((q.append j).jobs j).spec = (q.jobs j).spec :=
      ((SameQueue.dequeAdd q j).job j).sameJob.spec
    dsimp only
    rw [kept]
    split_ifs with encodes
    · simp [encodes]
    · simp [encodes]

theorem add_ok_iff (job : Job) : (∃ j, (q.add job).2 = .ok j) ↔ q.Accepts job := by
  unfold add Accepts
  cases job.spec.getLockName with
  | error e => simp
  | ok name => exact enqueue_ok_iff _ _

theorem callPrepare_step {call : JobCall} {spec : JobSpec} (inEventLoop : Bool)
    (constructed : call.construct = .ok spec) :
    step q (.submit spec none) = some (q.callPrepare call none inEventLoop).1 := by
  unfold callPrepare
  rw [constructed]
  change some (q.add (Job.create spec none)).1 = _
  generalize added : q.add (Job.create spec none) = result
  obtain ⟨r, result⟩ := result
  cases inEventLoop <;> cases result <;> simp [cb, added, Except.toOption]

end JobsQueue

/-- The call reaches the queue with a job that the queue does not take. -/
def Refused (q : JobsQueue) (call : JobCall) (auditCallback : Option CallRef) : Prop :=
  ∃ spec, call.construct = .ok spec ∧ ¬ q.Accepts (Job.create spec auditCallback)

/-- The thread and the event loop end with the same outcome and the same queue,
exactly when the queue does not refuse the job of the call; when it does, the
thread waits forever. -/
theorem callPrepare_thread_agrees (q : JobsQueue) (call : JobCall)
    (auditCallback : Option CallRef) :
    (q.callPrepare call auditCallback false = q.callPrepare call auditCallback true ↔
        ¬ Refused q call auditCallback) ∧
      ((q.callPrepare call auditCallback false).2 = .waits ↔ Refused q call auditCallback) := by
  have accepted : ∀ spec, call.construct = .ok spec → (Refused q call auditCallback ↔
        ¬ ∃ j, (q.add (Job.create spec auditCallback)).2 = .ok j) := by
    intro spec constructed
    rw [q.add_ok_iff]
    constructor
    · rintro ⟨spec', constructed', refused⟩
      obtain rfl : spec = spec' := Except.ok.inj (constructed.symm.trans constructed')
      exact refused
    · exact fun refused => ⟨spec, constructed, refused⟩
  cases constructed : call.construct with
  | error e =>
    have passed : ¬ Refused q call auditCallback := by
      rintro ⟨spec, constructed', -⟩
      cases constructed.symm.trans constructed'
    simp [JobsQueue.callPrepare, constructed, passed]
  | ok spec =>
    rw [accepted spec constructed]
    generalize added : q.add (Job.create spec auditCallback) = result
    obtain ⟨r, result⟩ := result
    cases result <;> simp [JobsQueue.callPrepare, JobsQueue.cb, constructed, added, Except.toOption]

/-- A method with `lock_queue_size=0` is called a second time while it runs: the
event loop raises, the thread waits. -/
theorem callPrepare_thread_waits : ∃ q, Reach step Always {} q ∧ ∃ call : JobCall,
      (q.callPrepare call none true).2 = .raised (.callError JobsQueue.alreadyBeingPerformed) ∧
        (q.callPrepare call none false).2 = .waits := by
  apply exists_reach
    [.submit { options := { lock := .constant (some "update"), lockQueueSize := some 0 } } none,
      .next, .run 0 none, .run 0 none, .run 0 none]
  exact ⟨_, rfl, { options := { lock := .constant (some "update"), lockQueueSize := some 0 } },
    rfl, rfl⟩

end TruenasMiddleware.Jobs
