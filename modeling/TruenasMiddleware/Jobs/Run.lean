import TruenasMiddleware.Jobs.Queue

/-! `Job.run`, `Job.__run_body` and `Job.abort`, one line at a time.

`run` is a coroutine of the event loop and `abort` runs in a worker thread
(`core.job_abort` is not a coroutine), so any step of one may fall between two
lines of the other. The outcome of a step is what the function it calls does:
`none` when it returns, `some e` when it raises. -/

namespace TruenasMiddleware.Jobs

namespace Job

variable (job : Job)

def record (e : Raised) : Job := { job with raised := (job.pc, e) :: job.raised }

/-- A line of the `try` block: what it raises reaches the `except` clauses. -/
def inTry (outcome : Option Raised) (next : RunPc) : Job :=
  match outcome with
  | none => { job with pc := next }
  | some e => { job.record e with pc := .handler e }

/-- A line before the `try` or inside the `finally`: what it raises ends `run`. -/
def outsideTry (outcome : Option Raised) (next : RunPc) : Job :=
  match outcome with
  | none => { job with pc := next }
  | some e => { job.record e with pc := .ended }

/-- A call of `set_state`; a failed assertion continues at `failed`. -/
def setStateThen (state : State) (next failed : RunPc) : Job :=
  match job.setState state with
  | some job => { job with pc := next }
  | none => { job with assertionFailed := true, pc := failed }

/-- The `except` clauses of `run`. -/
def handle : Raised → Job
  | .cancelledError | .jobCancelled => job.setStateThen .aborted .closeLogs .closeLogs
  | .exception => job.setStateThen .failed .recordFailure .closeLogs
  | .baseException => { job with pc := .closeLogs }

/-- The lines of `run` that touch nothing but the job itself. Cancelling the
body's future is one of the ways in which the body raises `CancelledError`. -/
def runLine (outcome : Option Raised) : Job :=
  match job.pc with
  | .startLogging =>
    if job.spec.options.logs then job.outsideTry outcome .checkAborted
    else { job with pc := .checkAborted }
  | .checkAborted =>
    if job.aborted then { job with pc := .handler .cancelledError }
    else { job with pc := .setRunning }
  | .setRunning => job.setStateThen .running .sendRunning (.handler .exception)
  | .sendRunning => job.inTry outcome .spawnBody
  | .spawnBody => { job with future := true, pc := .bodyPending }
  | .bodyPending => { job.inTry outcome .bodyStarted with bodyStarted := outcome.isNone }
  | .bodyStarted => job.inTry outcome .setSuccess
  | .setSuccess => job.setStateThen .success .progress (.handler .exception)
  | .progress => job.inTry outcome .closeLogs
  | .handler e => job.handle e
  | .recordFailure =>
    match outcome with
    | none => { job with pc := .closeLogs }
    | some e => { job.record e with pc := .closeLogs }
  | .closeLogs =>
    -- `logs_fd` is open exactly when `start_logging` has run
    if job.spec.options.logs then job.outsideTry outcome .closePipes
    else { job with pc := .closePipes }
  | .closePipes => job.outsideTry outcome .releaseLock
  | .setFinished => { job with finished := true, pc := .onFinish }
  | .sendFinished => job.outsideTry outcome .cleanup
  | .notStarted | .releaseLock | .onFinish | .cleanup | .ended => job

def abort : Job := { job with aborts := job.aborts ++ [.readFuture] }

/-- The next read or write of the `i`-th call of `abort()`. -/
def abortLine (i : Nat) : Option Job :=
  match job.aborts[i]? with
  | some .readFuture =>
    some { job with
      aborts := job.aborts.set i (if job.future then .returned else .readState) }
  | some .readState =>
    some { job with
      aborts := job.aborts.set i (if job.state = .waiting then .writeAborted else .returned)
      abortSawWaiting := job.abortSawWaiting || decide (job.state = .waiting) }
  | some .writeAborted =>
    some { job with aborted := true, aborts := job.aborts.set i .returned }
  | some .returned | none => none

end Job

def AuditInfo.audits (info : AuditInfo) (messages : List String) : List String :=
  if info.audited then
    if messages = [] then
      match info.extended with
      | some extended => [info.audit ++ " " ++ extended]
      | none => [info.audit]
    else messages.map fun message => info.audit ++ " " ++ message
  else []

/-- What `log_audit_message_for_method` logs. It dumps the arguments once more, and raises
where `Job.__encode__` did. -/
def Call.audits (call : Call) (messages : List String) : List String :=
  if call.encodes then call.info.audits messages else []

namespace JobsQueue

variable (q : JobsQueue)

def logAudit (c : CallRef) (call : Call) (messages : List String) (success : Bool) : JobsQueue :=
  { q with
    audit := q.audit ++ (call.audits messages).map fun description => ⟨c, description, success⟩ }

/-- What the calls of `audit_callback` by the job's method have left in the
message list of `c`: a job only writes to the list of the call that created it. -/
def messagesOf (job : Job) (c : CallRef) : List String :=
  if job.auditCallback = some c ∧ job.bodyStarted then job.spec.auditMessages else []

def jobOnFinishCb (j : JobRef) (c : CallRef) : JobsQueue :=
  match q.calls c with
  | none => q
  | some call =>
    q.logAudit c call (messagesOf (q.jobs j) c) (decide ((q.jobs j).state = .success))

/-- `call_on_finish_cb`, and what it lets through: an `Exception` of the callback
is only logged. -/
def callOnFinishCb (j : JobRef) (outcome : Option Raised) : JobsQueue × Option Raised :=
  let called := fun job : Job => { job with onFinishCbCalled := true }
  match (q.jobs j).onFinishCb, outcome with
  | none, _ => (q.setJob j called, none)
  | some c, none => ((q.jobOnFinishCb j c).setJob j called, none)
  | some _, some e =>
    if e = .exception ∨ e = .jobCancelled then (q.setJob j called, none) else (q, some e)

/-- The next line of `run` of a job that has been handed out. -/
def run (j : JobRef) (outcome : Option Raised) : Option JobsQueue :=
  match (q.jobs j).pc with
  | .notStarted | .ended => none
  | .releaseLock =>
    match q.releaseLock j with
    | .ok q => some (q.setJob j fun job => { job with handedOut := false, pc := .setFinished })
    | .error q => some (q.setJob j fun job => { job with pc := .ended })
  | .onFinish =>
    let (q, raised) := q.callOnFinishCb j outcome
    some (q.setJob j (·.outsideTry raised .sendFinished))
  | .cleanup =>
    let q := if (q.jobs j).spec.options.transient then
        match (q.jobs j).id with
        | some id => q.remove id
        | none => q
      else q
    some (q.setJob j fun job => { job with pc := .ended })
  | _ => some (q.setJob j fun job => job.runLine outcome)

def setOnFinishCb (j : JobRef) (c : CallRef) : JobsQueue :=
  let q := q.setJob j fun job => { job with onFinishCb := some c }
  if (q.jobs j).onFinishCbCalled then (q.callOnFinishCb j none).1 else q

def recordCall (call : Call) : JobsQueue :=
  { q with calls := Function.update q.calls q.callCount (some call), callCount := q.callCount + 1 }

/-- `call_with_audit` of a job method. Nothing suspends between `add` and
`set_on_finish_cb`. -/
def callWithAudit (spec : JobSpec) (info : AuditInfo) : JobsQueue :=
  let c := q.callCount
  match q.add (Job.create spec (some c)) with
  | (q, .ok j) => (q.recordCall ⟨info, some j, spec.encodes⟩).setOnFinishCb j c
  | (q, .error _) =>
    let call : Call := ⟨info, none, spec.encodes⟩
    (q.recordCall call).logAudit c call [] false

end JobsQueue

/-- One step of the job system: a submission (audited, or by the middleware
itself), the scheduler, a line of `run` or of `abort`. -/
inductive Label
  | submit (spec : JobSpec) (info : Option AuditInfo)
  | next
  | run (j : JobRef) (outcome : Option Raised)
  | abort (j : JobRef)
  | abortLine (j : JobRef) (i : Nat)

def step (q : JobsQueue) : Label → Option JobsQueue
  | .submit spec (some info) => some (q.callWithAudit spec info)
  | .submit spec none => some (q.add (Job.create spec none)).1
  | .next => q.next
  | .run j outcome => if j < q.jobCount then q.run j outcome else none
  | .abort j => if j < q.jobCount then some (q.setJob j Job.abort) else none
  | .abortLine j i => ((q.jobs j).abortLine i).map fun job => q.setJob j fun _ => job

end TruenasMiddleware.Jobs
