import TruenasMiddleware.Jobs.Model

/-! `JobsQueue` and `JobsDeque`: submission, the shared locks and the scheduler
loop. Every function here runs on the event loop without a suspension point,
except `next`, which is cut at the two places where it can suspend. -/

namespace TruenasMiddleware.Jobs.JobsQueue

open Function

variable (q : JobsQueue)

def setJob (j : JobRef) (f : Job → Job) : JobsQueue :=
  { q with jobs := update q.jobs j (f (q.jobs j)) }

def setLock (l : LockRef) (f : JobSharedLock → JobSharedLock) : JobsQueue :=
  { q with locks := update q.locks l (f (q.locks l)) }

def maxlen : Nat := 1000

def remove (id : Nat) : JobsQueue :=
  { q with dict := q.dict.filter (·.1 ≠ id) }

/-- The eviction of `JobsDeque.add`: the oldest finished job, if there is one. -/
def evict : JobsQueue :=
  if maxlen < q.dict.length then
    match q.dict.find? (fun entry => (q.jobs entry.2).state.terminal) with
    | some entry => q.remove entry.1
    | none => q
  else q

def dequeAdd (j : JobRef) : JobsQueue :=
  let id := q.count + 1
  let q := { q.setJob j (fun job => { job with id := some id }) with count := id }
  let q := q.evict
  { q with dict := q.dict ++ [(id, j)] }

/-- A new `Job` object, not yet known to the queue. -/
def alloc (job : Job) : JobsQueue :=
  { q with jobs := update q.jobs q.jobCount job, jobCount := q.jobCount + 1 }

def registerLock (name : String) : JobsQueue × LockRef :=
  match q.jobLocks name with
  | some l => (q, l)
  | none =>
    ({ q with
        locks := update q.locks q.lockCount { name := name }
        lockCount := q.lockCount + 1
        jobLocks := update q.jobLocks name (some q.lockCount) }, q.lockCount)

/-- `handle_lock` once `get_lock_name` has returned. -/
def handleLock (j : JobRef) : Option String → JobsQueue
  | none => q
  | some name =>
    let (q, l) := q.registerLock name
    (q.setLock l (·.addJob j)).setJob j (fun job => { job with lock := some l })

/-- What `add` decides about a job whose lock has been handled. -/
inductive Admission
  | append
  | coalesce (k : JobRef)
  | reject (e : CallError)
deriving DecidableEq

def alreadyBeingPerformed : CallError := ⟨"This job is already being performed", .ebusy⟩

def alreadyBeingPerformedByAnotherUser : CallError :=
  ⟨"This job is already being performed by another user", .ebusy⟩

/-- May a new job with credentials `own` be answered with a queued one. -/
def canJoin (own queued : Option Credentials) : Bool :=
  !credentialIsLimitedToOwnJobs own ||
    match own, queued with
    | some own, some queued =>
      own.isUserSession && queued.isUserSession && own.username == queued.username
    | _, _ => false

def queuedJobs (j : JobRef) : List JobRef :=
  q.queue.filter fun k => (q.jobs k).lock = (q.jobs j).lock

def runningJob (j : JobRef) : Bool :=
  q.dict.any fun entry =>
    (q.jobs entry.2).state = .running ∧ (q.jobs entry.2).lock = (q.jobs j).lock

def joinable (j : JobRef) : Option JobRef :=
  (q.queuedJobs j).reverse.find? fun k =>
    canJoin (q.jobs j).spec.credentials (q.jobs k).spec.credentials

def admission (j : JobRef) : Admission :=
  match (q.jobs j).spec.options.lockQueueSize with
  | none => .append
  | some size =>
    if size = 0 then
      if q.runningJob j then .reject alreadyBeingPerformed else .append
    else if size ≤ (q.queuedJobs j).length then
      match q.joinable j with
      | some k => .coalesce k
      | none => .reject alreadyBeingPerformedByAnotherUser
    else .append

def append (j : JobRef) : JobsQueue :=
  let q := q.dequeAdd j
  { q with queue := q.queue ++ [j] }

/-- `add` from the point where the job's lock has been handled. Whatever was
written before an exception stays written. -/
def enqueue (j : JobRef) : JobsQueue × Except Error JobRef :=
  match q.admission j with
  | .reject e => (q, .error (.callError e))
  | .coalesce k =>
    if (q.jobs j).messageIds = [] then (q, .ok k)
    else
      let q := q.setJob k fun job =>
        { job with messageIds := job.messageIds ++ (q.jobs j).messageIds }
      if (q.jobs k).spec.encodes then (q, .ok k) else (q, .error .encodeError)
  | .append =>
    let q := q.append j
    -- the ADDED event is sent before the scheduler is woken
    if (q.jobs j).spec.encodes then ({ q with queueEvent := true }, .ok j)
    else (q, .error .encodeError)

/-- `JobsQueue.add` of a newly constructed job. -/
def add (job : Job) : JobsQueue × Except Error JobRef :=
  match job.spec.getLockName with
  | .error e => (q.alloc job, .error e)
  | .ok name => ((q.alloc job).handleLock q.jobCount name).enqueue q.jobCount

/-- `job_locks.pop`; `none` is its `KeyError`. -/
def popLock (name : String) : Option JobsQueue :=
  (q.jobLocks name).map fun _ => { q with jobLocks := update q.jobLocks name none }

def dropUnused (l : LockRef) : Option JobsQueue :=
  if (q.locks l).jobs = ∅ then q.popLock (q.locks l).name else some q

/-- `release_lock`; an error carries the state at the exception. -/
def releaseLock (j : JobRef) : Except JobsQueue JobsQueue :=
  match (q.jobs j).lock with
  | none => .ok q
  | some l =>
    let q := q.setLock l (·.removeJob j)
    match (q.locks l).lock.release with
    | none => .error q
    | some lock =>
      let q := q.setLock l fun s => { s with lock := lock }
      match q.dropUnused l with
      | none => .error q
      | some q => .ok { q with queueEvent := true }

/-- "it has no lock or its not locked". -/
def runnable (j : JobRef) : Bool :=
  match (q.jobs j).lock with
  | none => true
  | some l => !(q.locks l).locked

/-- `next` returns `j`, and `JobsQueue.run` creates the task of its `run`. -/
def handOut (j : JobRef) : JobsQueue :=
  let queue := q.queue.erase j
  { q.setJob j (fun job => { job with handedOut := true, pc := .startLogging }) with
    queue := queue
    queueEvent := if queue = [] then false else q.queueEvent
    scheduler := .waitEvent }

/-- `next` with the job it found: acquire its lock, or suspend. -/
def take (j : JobRef) : JobsQueue :=
  match (q.jobs j).lock with
  | none => q.handOut j
  | some l =>
    match (q.locks l).lock.acquire with
    | some lock => (q.setLock l fun s => { s with lock := lock }).handOut j
    | none =>
      { q.setLock l (fun s => { s with lock := s.lock.wait }) with scheduler := .acquiring j }

/-- `next` between two suspension points. It is not enabled while the event is
clear, or while the lock it waits for is held. -/
def next : Option JobsQueue :=
  match q.scheduler with
  | .waitEvent =>
    if q.queueEvent then
      match q.queue.find? q.runnable with
      | some j => some (q.take j)
      | none => some { q with queueEvent := false }
    else none
  | .acquiring j =>
    match (q.jobs j).lock with
    | none => none
    | some l => (q.locks l).lock.resume.map fun lock =>
        (q.setLock l fun s => { s with lock := lock }).handOut j

end TruenasMiddleware.Jobs.JobsQueue
