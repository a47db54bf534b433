import TruenasMiddleware.Foundation.Transition
import Mathlib.Logic.Function.Basic

/-! `plugins/zettarepl.py`: how a job that asks the zettarepl process for a run of a task learns
of its outcome. The request goes into the command queue of the process, and the reader of
`observer_queue` puts the messages into the channels of the jobs that wait for the task. In between,
a command is accepted or answered by an error, a run begins for every command accepted for its
task, or by itself, and it ends with one message. -/

namespace TruenasMiddleware.Zettarepl

open Transition

inductive Task
  | snapshot (id : Nat)
  | replication (id : Nat)
  | onetime (job : Nat)
  deriving DecidableEq

/-- `task_id` of the messages: `task_` or `job_` and a number. -/
def Task.name : Task → List Char
  | .snapshot id | .replication id => ['t', 'a', 's', 'k', '_'] ++ Nat.toDigits 10 id
  | .onetime job => ['j', 'o', 'b', '_'] ++ Nat.toDigits 10 job

def parseInt (text : List Char) : Option Nat :=
  if text.isEmpty || !text.all Char.isDigit then none else some (Nat.ofDigitChars 10 text 0)

/-- The task of the job that is started for a run without one: `int(message.task_id[5:])`. -/
def Task.fake (task : Task) : Option Task :=
  (parseInt (task.name.drop 5)).map .replication

def Task.isReplication : Task → Bool
  | .snapshot _ => false
  | .replication _ | .onetime _ => true

inductive Kind
  | start
  | progress
  | success
  | error
  deriving DecidableEq

structure Message where
  task : Task
  kind : Kind
  /-- The run which the message is about, and none for the error of an abnormal termination. -/
  run : Option Nat
  deriving DecidableEq

/-- A job stops waiting when it gets the message. -/
def Message.terminal (message : Message) : Bool :=
  message.kind = .success || message.kind = .error

inductive Phase
  /-- The command has been put into the queue, but the job has no channel yet. -/
  | queued
  | waiting
  | returned (message : Message)
  deriving DecidableEq

structure Job where
  task : Task
  phase : Phase
  inbox : List Message
  run : Option Nat

def Job.finished (job : Job) : Bool :=
  match job.phase with
  | .returned _ => true
  | _ => false

structure Process where
  commands : List (Nat × Task)
  /-- Commands that the scheduler has been interrupted for. -/
  accepted : List (Nat × Task)
  runs : List (Task × Nat)

structure Delivery where
  message : Message
  index : Nat

/-- `_join` after an abnormal termination: the tasks whose jobs it has yet to tell. -/
structure Joiner where
  todo : List Task
  delivery : Option Delivery

structure State where
  jobs : Nat → Option Job
  next : Nat
  channels : Task → List Nat
  /-- The tasks that `zettarepl.get_state` reports as `WAITING` or `RUNNING`. -/
  active : List Task
  /-- `self.queue` has been set by a first `start`. -/
  opened : Bool
  process : Option Process
  /-- The process that `self.process` refers to has died, and `_join` has not looked at it. -/
  died : Bool
  observer : List Message
  reader : Option Delivery
  joiner : Option Joiner
  /-- Tasks named by a message, and of the job that was started for it. -/
  started : List (Task × Task)

def start : State where
  jobs _ := none
  next := 0
  channels _ := []
  active := []
  opened := false
  process := none
  died := false
  observer := []
  reader := none
  joiner := none
  started := []

inductive Label
  /-- A job puts the command into `self.queue`. -/
  | request (task : Task)
  | register (job : Nat)
  | receive (job : Nat)
  | command (found : Bool)
  | begin (task : Task)
  | progress (task : Task) (run : Nat)
  | finish (task : Task) (run : Nat) (success : Bool)
  /-- The reader takes a message, and its calls raise or not. -/
  | read (raises : Bool)
  | deliver
  | stop
  | launch
  | crash (startupError : Bool)
  | report (active : List Task)
  | joinBegin (raises : Bool)
  | joinTask (raises : Bool)
  | joinDeliver
  /-- `_join` restarts the process, or fails to. -/
  | joinEnd (restarts : Bool)

variable (state : State)

def State.addJob (job : Job) : State :=
  { state with
    jobs := Function.update state.jobs state.next (some job)
    next := state.next + 1 }

def State.modify (which : Nat → Bool) (change : Job → Job) : State :=
  { state with
    jobs := fun number =>
      if which number then (state.jobs number).map change else state.jobs number }

def Process.new : Process where
  commands := []
  accepted := []
  runs := []

/-- A command that is put into the queue of a process that is gone stays there. -/
def State.request (task : Task) : State :=
  { state.addJob { task, phase := .queued, inbox := [], run := none } with
    process := state.process.map fun process =>
      { process with commands := process.commands ++ [(state.next, task)] } }

def State.register (number : Nat) (task : Task) : State :=
  { state.modify (· == number) fun job => { job with phase := .waiting } with
    channels := Function.update state.channels task (state.channels task ++ [number]) }

/-- A job takes the first message. One that gets a terminal message removes its channel. -/
def State.receive (number : Nat) (task : Task) (message : Message) (rest : List Message) : State :=
  if message.terminal then
    { state.modify (· == number) fun job =>
        { job with phase := .returned message, inbox := rest } with
      channels := Function.update state.channels task ((state.channels task).erase number) }
  else state.modify (· == number) fun job => { job with inbox := rest }

def State.command (process : Process) (number : Nat) (task : Task)
    (rest : List (Nat × Task)) (found : Bool) : State :=
  if found then
    { state with
      process := some
        { process with commands := rest, accepted := process.accepted ++ [(number, task)] } }
  else
    { state.modify (· == number) fun job => { job with run := some state.next } with
      next := state.next + 1
      process := some { process with commands := rest }
      observer := state.observer ++ [⟨task, .error, some state.next⟩] }

def State.begin (process : Process) (task : Task) : State :=
  { state.modify (fun number => process.accepted.contains (number, task)) fun job =>
      { job with run := some state.next } with
    next := state.next + 1
    process := some
      { process with
        accepted := process.accepted.filter fun entry => decide (entry.2 ≠ task)
        runs := process.runs ++ [(task, state.next)] }
    observer := state.observer ++ [⟨task, .start, some state.next⟩] }

def State.post (message : Message) : State :=
  { state with observer := state.observer ++ [message] }

def State.finish (process : Process) (task : Task) (run : Nat) (success : Bool) : State :=
  { state with
    process := some { process with runs := process.runs.erase (task, run) }
    observer := state.observer ++ [⟨task, if success then .success else .error, some run⟩] }

/-- "Start fake job if none are already running". -/
def State.startFake (message : Message) : State :=
  if message.task.isReplication && (state.channels message.task).isEmpty then
    match message.task.fake with
    | none => state
    | some task =>
      { state.addJob { task, phase := .queued, inbox := [], run := message.run } with
        started := state.started ++ [(message.task, task)] }
  else state

def State.read (message : Message) (rest : List Message) : State :=
  match message.kind with
  | .start =>
    State.startFake
      { state with observer := rest, active := state.active.insert message.task } message
  | .progress => { state with observer := rest, reader := some ⟨message, 0⟩ }
  | .success | .error =>
    { state with
      observer := rest
      active := state.active.filter fun task => decide (task ≠ message.task)
      reader := some ⟨message, 0⟩ }

def State.put (number : Nat) (message : Message) : State :=
  state.modify (· == number) fun job => { job with inbox := job.inbox ++ [message] }

/-- The next round of a loop over channels, and the loop after it. -/
def State.round (delivery : Delivery) : State × Option Delivery :=
  match (state.channels delivery.message.task)[delivery.index]? with
  | none => (state, none)
  | some number =>
    (state.put number delivery.message, some { delivery with index := delivery.index + 1 })

def step : Label → Option State -- without a queue the job raises at once
  | .request task => if state.opened then some (state.request task) else none
  | .register number =>
    match state.jobs number with
    | some job => if job.phase = .queued then some (state.register number job.task) else none
    | none => none
  | .receive number =>
    match state.jobs number with
    | some job =>
      match job.phase, job.inbox with
      | .waiting, message :: rest => some (state.receive number job.task message rest)
      | _, _ => none
    | none => none
  | .command found =>
    match state.process with
    | some process =>
      match process.commands with
      | (number, task) :: rest => some (state.command process number task rest found)
      | [] => none
    | none => none
  | .begin task => state.process.map fun process => state.begin process task
  | .progress task run =>
    match state.process with
    | some process =>
      if (task, run) ∈ process.runs then some (state.post ⟨task, .progress, some run⟩) else none
    | none => none
  | .finish task run success =>
    match state.process with
    | some process =>
      if (task, run) ∈ process.runs then some (state.finish process task run success) else none
    | none => none
  | .read raises =>
    match state.reader, state.observer with
    | none, message :: rest =>
      some (if raises then { state with observer := rest } else state.read message rest)
    | _, _ => none
  | .deliver =>
    state.reader.map fun delivery =>
      { (state.round delivery).1 with reader := (state.round delivery).2 }
  | .stop => some { state with process := none, died := false }
  | .launch =>
    if state.process.isNone then
      some { state with opened := true, process := some .new, died := false }
    else none
  | .crash startupError =>
    if state.process.isSome then some { state with process := none, died := !startupError }
    else none
  | .report active => some { state with active := active }
  | .joinBegin raises =>
    if state.died && state.joiner.isNone then
      some { state with
        died := false
        joiner := if raises then none else some ⟨state.active, none⟩ }
    else none
  | .joinTask raises =>
    match state.joiner with
    | some ⟨task :: todo, none⟩ =>
      if raises then some { state with joiner := none }
      else
        some { state with
          active := state.active.filter fun other => decide (other ≠ task)
          joiner := some ⟨todo, some ⟨⟨task, .error, none⟩, 0⟩⟩ }
    | _ => none
  | .joinDeliver =>
    match state.joiner with
    | some ⟨todo, some delivery⟩ =>
      some { (state.round delivery).1 with joiner := some ⟨todo, (state.round delivery).2⟩ }
    | _ => none
  | .joinEnd restarts =>
    match state.joiner with
    | some ⟨[], none⟩ =>
      some { state with
        joiner := none
        process := if restarts && state.process.isNone then some .new else state.process
        died := if restarts && state.process.isNone then false else state.died }
    | _ => none

end TruenasMiddleware.Zettarepl
