import Mathlib.Data.Finset.Basic
import TruenasMiddleware.Foundation.Asyncio

/-! The objects of `job.py`: jobs, shared locks, and the queue with the heap
they live in. Python object identity is a reference (`JobRef`, `LockRef`) into
that heap, so `another_job.lock is job.lock` is equality of references. -/

namespace TruenasMiddleware.Jobs

abbrev JobRef := Nat
abbrev LockRef := Nat
abbrev CallRef := Nat

inductive State
  | waiting | running | success | failed | aborted
deriving DecidableEq

def State.terminal : State → Bool
  | .success | .failed | .aborted => true
  | .waiting | .running => false

/-- What a called step raised, as far as the `except` clauses of `Job.run` tell
exceptions apart. `exception` is any other `Exception`, `baseException` is what
neither clause catches. -/
inductive Raised
  | cancelledError | jobCancelled | exception | baseException
deriving DecidableEq

inductive Errno
  | ebusy | einval | efault
deriving DecidableEq

structure CallError where
  errmsg : String
  errno : Errno
deriving DecidableEq

inductive Error
  | callError (e : CallError)
  | valueError (message : String)
  | runtimeError (message : String)
  /-- What `Job.__encode__` raised: `dump_args` catches `ValidationErrors` only. -/
  | encodeError

structure Credentials where
  isUserSession : Bool
  username : String
  roles : List String := []
  isTruenasNode : Bool := false
  /-- `allowlist.full_admin`, `none` for a credential without an allowlist. -/
  allowlistFullAdmin : Option Bool := none

def credentialHasFullAdmin (credential : Credentials) : Bool :=
  (credential.isUserSession && credential.roles.contains "FULL_ADMIN") ||
    credential.isTruenasNode || credential.allowlistFullAdmin.getD false

def credentialIsLimitedToOwnJobs : Option Credentials → Bool
  | none => false
  | some credential => credential.isUserSession && !credentialHasFullAdmin credential

/-- `options['lock']`. A callable is given by its value on the job's arguments,
`none` when it raised on them. -/
inductive LockOption
  | constant (name : Option String)
  | callable (value : Option (Option String))

/-- The keys of `@job(...)` that the queue and `Job.run` read, with the
decorator's defaults. -/
structure Options where
  lock : LockOption := .constant none
  lockQueueSize : Option Int := some 5
  logs : Bool := false
  transient : Bool := false

/-- What a new `Job` is constructed from. -/
structure JobSpec where
  options : Options := {}
  credentials : Option Credentials := none
  messageId : Option String := none
  /-- Whether `__encode__` returns on this job, which its arguments decide. -/
  encodes : Bool := true
  /-- The messages its method passes to `audit_callback` while it runs. -/
  auditMessages : List String := []

/-- Where the `Job.run` coroutine of a job stands. Each constructor is the next
line of `run`, `__run_body` or the `finally` block to execute. -/
inductive RunPc
  | notStarted
  | startLogging
  | checkAborted
  | setRunning
  | sendRunning
  | spawnBody
  | bodyPending
  | bodyStarted
  | setSuccess
  | progress
  | handler (e : Raised)
  | recordFailure
  | closeLogs
  | closePipes
  | releaseLock
  | setFinished
  | onFinish
  | sendFinished
  | cleanup
  | ended
deriving DecidableEq

/-- The lines between being handed out and `release_lock`. -/
def RunPc.inFlight : RunPc → Bool
  | .notStarted | .setFinished | .onFinish | .sendFinished | .cleanup | .ended => false
  | _ => true

/-- Where one call of `Job.abort` stands; `abort` runs in a worker thread, so
its reads and writes interleave with the lines of `run`. -/
inductive AbortPc
  | readFuture
  | readState
  | writeAborted
  | returned
deriving DecidableEq

structure Job where
  spec : JobSpec
  id : Option Nat := none
  messageIds : List String := []
  lock : Option LockRef := none
  state : State := .waiting
  aborted : Bool := false
  /-- `self.future is not None`. -/
  future : Bool := false
  finished : Bool := false
  /-- The call whose message list `self.audit_callback` appends to. -/
  auditCallback : Option CallRef := none
  onFinishCb : Option CallRef := none
  onFinishCbCalled : Bool := false
  pc : RunPc := .notStarted
  aborts : List AbortPc := []
  /-- Returned by `next()`, its `release_lock()` not yet done. -/
  handedOut : Bool := false
  bodyStarted : Bool := false
  /-- An assertion of `set_state` has failed. -/
  assertionFailed : Bool := false
  /-- Some `abort()` has found the job `WAITING`. -/
  abortSawWaiting : Bool := false
  /-- The steps of `run` that raised, latest first. -/
  raised : List (RunPc × Raised) := []

def Job.create (spec : JobSpec) (auditCallback : Option CallRef) : Job :=
  { spec := spec, messageIds := spec.messageId.toList.filter (· ≠ ""),
    auditCallback := auditCallback }

def errorHandlingJobLock : CallError :=
  ⟨"Error handling job lock. This is most likely caused by invalid call arguments.", .einval⟩

def JobSpec.getLockName (spec : JobSpec) : Except Error (Option String) :=
  match spec.options.lock with
  | .constant name => .ok name
  | .callable (some name) => .ok name
  | .callable none => .error (.callError errorHandlingJobLock)

def Job.setState (job : Job) (state : State) : Option Job :=
  if job.state = .waiting ∧ (state = .waiting ∨ state = .success) then none
  else if job.state = .running ∧ (state = .waiting ∨ state = .running) then none
  else if job.state.terminal then none
  else some { job with state := state }

structure JobSharedLock where
  name : String
  jobs : Finset JobRef := ∅
  lock : Asyncio.Lock := {}

def JobSharedLock.addJob (l : JobSharedLock) (j : JobRef) : JobSharedLock :=
  { l with jobs := insert j l.jobs }

def JobSharedLock.removeJob (l : JobSharedLock) (j : JobRef) : JobSharedLock :=
  { l with jobs := l.jobs.erase j }

def JobSharedLock.locked (l : JobSharedLock) : Bool := l.lock.locked

/-- The coroutine `JobsQueue.run`: at `queue_event.wait()`, or suspended in
`lock.acquire()` for the job it found. -/
inductive SchedulerPc
  | waitEvent
  | acquiring (j : JobRef)

structure AuditRecord where
  call : CallRef
  description : String
  success : Bool

/-- The texts of a method: `methodobj.audit`, empty for a method without one, and
`audit_extended(*params)` where it is defined and does not raise. -/
structure AuditInfo where
  audit : String
  extended : Option String := none

def AuditInfo.audited (info : AuditInfo) : Bool := info.audit ≠ ""

/-- A call of `call_with_audit`: its audit texts, the job that serves it, `none` when
`_call` raised, and whether `dump_args` returns on its arguments. -/
structure Call where
  info : AuditInfo
  job : Option JobRef
  encodes : Bool

/-- `JobsQueue` and `JobsDeque`, the heap of their objects, the scheduler
coroutine, and the audit log. -/
structure JobsQueue where
  jobs : JobRef → Job := fun _ => Job.create {} none
  jobCount : Nat := 0
  locks : LockRef → JobSharedLock := fun _ => ⟨"", ∅, {}⟩
  lockCount : Nat := 0
  count : Nat := 0
  dict : List (Nat × JobRef) := []
  queue : List JobRef := []
  queueEvent : Bool := false
  jobLocks : String → Option LockRef := fun _ => none
  scheduler : SchedulerPc := .waitEvent
  calls : CallRef → Option Call := fun _ => none
  callCount : Nat := 0
  audit : List AuditRecord := []

end TruenasMiddleware.Jobs
