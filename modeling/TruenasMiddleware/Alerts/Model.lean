import TruenasMiddleware.Foundation.Dict
import TruenasMiddleware.Foundation.Transition

/-! The alert list of `plugins/alert/alert.py`: `dismiss`, `process_alerts`,
`oneshot_create`, `oneshot_delete` and `flush_alerts`, as steps between the points where one of
them is suspended. An alert is a Python object: `ref` is its identity, so that a change in place
is seen by every list that holds it. -/

namespace TruenasMiddleware.Alerts

inductive Node
  | a
  | b
deriving DecidableEq

def Node.other : Node → Node
  | .a => .b
  | .b => .a

/-- The class and its configuration. `hasArgs` is false for a plain class without fields. -/
structure AlertClass where
  name : String
  title : String := ""
  text : Option String := none
  dismissable : Bool := false
  oneShot : Bool := false
  deletedAutomatically : Bool := true
  expiresAfter : Option Nat := none
  hasArgs : Bool := true
deriving DecidableEq

structure Instance (Args : Type) where
  klass : AlertClass
  args : Option Args
  plain : klass.hasArgs = false → args = none
deriving DecidableEq

structure Alert (Args : Type) where
  ref : Nat
  inst : Instance Args
  datetime : Nat
  lastOccurrence : Nat
  node : Node
  dismissed : Bool
  mail : Option Args
  uuid : Nat
  source : String
  key : String
  text : String
deriving DecidableEq

structure Ident where
  node : Node
  source : String
  klass : String
  key : String
deriving DecidableEq

variable {Args : Type}

namespace Alert

def klass (alert : Alert Args) : AlertClass := alert.inst.klass

def ident (alert : Alert Args) : Ident :=
  ⟨alert.node, alert.source, alert.klass.name, alert.key⟩

/-- `Alert.__eq__`: every attribute, whatever the object. -/
def same [DecidableEq Args] (first second : Alert Args) : Bool :=
  decide (first = { second with ref := first.ref })

end Alert

structure Report (Args : Type) where
  inst : Instance Args
  datetime : Option Nat := none
  mail : Option Args := none
  key : String
deriving DecidableEq

def Report.ident (node : Node) (source : String) (report : Report Args) : Ident :=
  ⟨node, source, report.inst.klass.name, report.key⟩

def uniqueKeys (reports : List (Report Args)) : List (Report Args) :=
  reports.foldl
    (fun kept report => if kept.any (·.key = report.key) then kept else kept ++ [report]) []

variable (alerts : List (Alert Args))

/-- `__handle_alert`, for a report that becomes the object `ref`. -/
def handleAlert (now ref uuid : Nat) (node : Node) (source : String)
    (report : Report Args) : Alert Args :=
  let klass := report.inst.klass
  let existing := alerts.find? fun alert => decide (alert.ident = report.ident node source)
  { ref := ref
    inst := report.inst
    datetime := (existing.map Alert.datetime).getD (report.datetime.getD now)
    lastOccurrence := now
    node := node
    dismissed := (existing.map Alert.dismissed).getD false
    mail := report.mail
    uuid := (existing.map Alert.uuid).getD uuid
    source := source
    key := report.key
    text := klass.text.getD klass.title }

def handleReports (now fresh : Nat) (node : Node) (source : String)
    (reports : List (Report Args)) : List (Alert Args) :=
  reports.zipIdx.map fun (report, i) =>
    handleAlert alerts now (fresh + i) (fresh + i) node source report

/-- A row of `system.alert`. -/
structure Row (Args : Type) where
  node : Node
  source : String
  key : String
  datetime : Nat
  lastOccurrence : Nat
  text : String
  args : Option Args
  dismissed : Bool
  uuid : Nat
  klass : String

def Alert.row (alert : Alert Args) : Row Args where
  node := alert.node
  source := alert.source
  key := alert.key
  datetime := alert.datetime
  lastOccurrence := alert.lastOccurrence
  text := alert.text
  args := alert.inst.args
  dismissed := alert.dismissed
  uuid := alert.uuid
  klass := alert.klass.name

/-- A running `process_alerts`: the copy of the list that it took first, and whether it has
come to its second `__should_run_or_send_alerts`. -/
structure Process (Args : Type) where
  valid : List (Alert Args)
  expired : Bool := false

structure Dismissal (Args : Type) where
  alert : Alert Args
  related : List (Alert Args)

/-- A `flush_alerts` that has emptied the table. Its loop, begun when `index` is not 0, walks the
list object that was the alert list then: `detached` is that list once the service has another
one. `throughout` are the alerts that have been in the alert list since the table was emptied. -/
structure Flush (Args : Type) where
  /-- It is the end of an `oneshot_delete`. -/
  ofDelete : Bool := false
  detached : Option (List (Alert Args)) := none
  index : Nat := 0
  throughout : List Nat

/-- The `oneshot_delete` that holds the lock `process_alerts`: it goes through the classes it was
given, having deleted an alert or not, and then flushes. -/
inductive Deletion
  | idle
  | running (deleted : Bool)
  | flushing
deriving DecidableEq

structure State (Args : Type) where
  alerts : List (Alert Args) := []
  process : Option (Process Args) := none
  dismissals : List (Dismissal Args) := []
  deletion : Deletion := .idle
  flushes : List (Flush Args) := []
  db : List (Row Args) := []
  fresh : Nat := 0
  returned : List Ident := []
  deleted : List Ident := []
  touched : Bool := false

namespace State

def idents : List Ident := alerts.map Alert.ident

variable (state : State Args)

def walked (flush : Flush Args) : List (Alert Args) :=
  flush.detached.getD state.alerts

def stillThere (flush : Flush Args) : Flush Args :=
  { flush with throughout := flush.throughout.filter (· ∈ alerts.map Alert.uuid) }

/-- `self.alerts = alerts`: a loop over the old list goes on with the old list. -/
def assign (alerts : List (Alert Args)) : State Args :=
  { state with
    alerts := alerts
    flushes := state.flushes.map fun flush => { stillThere alerts flush with
      detached := if flush.index = 0 then flush.detached else some (state.walked flush) } }

def shrink (alerts : List (Alert Args)) : State Args :=
  { state with alerts := alerts, flushes := state.flushes.map (stillThere alerts) }

def mutate (change : Alert Args → Alert Args) : State Args :=
  { state with
    alerts := state.alerts.map change
    dismissals := state.dismissals.map fun dismissal =>
      ⟨change dismissal.alert, dismissal.related.map change⟩
    flushes := state.flushes.map fun flush => { flush with
      detached := flush.detached.map (List.map change) } }

end State

def setDismissed (ref : Nat) (dismissed : Bool) (alert : Alert Args) : Alert Args :=
  if alert.ref = ref then { alert with dismissed := dismissed } else alert

def removeAll [DecidableEq Args] (alerts gone : List (Alert Args)) : List (Alert Args) :=
  gone.foldl (fun alerts alert => alerts.eraseP (Alert.same alert)) alerts

def notIn [DecidableEq Args] (left related : List (Alert Args)) : List (Alert Args) :=
  related.filter fun alert => !left.any (Alert.same alert)

inductive Label (Args : Type)
  | dismiss (uuid : Nat)
  /-- The `dismiss` of the class answers the alerts that stay, given by their identities. -/
  | dismissReturn (i : Nat) (left : List Nat)
  | processStart
  /-- The checks of a source have answered on this node and on the other one. -/
  | runSource (name : String) (node : Node) (this other : List (Report Args)) (now : Nat)
  | runBlockedSource (name : String) (node : Node) (now : Nat)
  | expire (now : Nat)
  /-- The second `__should_run_or_send_alerts` answers no, or yes. -/
  | restoreValid
  | processFinish
  | processRaise
  | oneshotCreate (node : Node) (report : Report Args) (now : Nat)
  /-- One of the classes given to `oneshot_delete`. -/
  | oneshotDelete (node : Node) (klass : String) (left : List Nat)
  /-- No class is left. `backup`: the controller is licensed for failover and its status is
  BACKUP. -/
  | oneshotDeleted (backup : Bool)
  | flushStart (backup : Bool)
  | flushStep (i : Nat)
  | flushEnd (i : Nat)

section Step

variable [DecidableEq Args] (state : State Args)

/-- A dismissal has taken place: `dismissed` is the alert, `gone` what it deleted. -/
def record (dismissed : Alert Args) (gone : List (Alert Args)) : State Args :=
  { state with
    returned := dismissed.ident :: state.returned
    deleted := State.idents gone ++ state.deleted
    touched := state.touched || state.process.isSome }

def dismiss (uuid : Nat) : State Args :=
  match state.alerts.find? fun alert => decide (alert.uuid = uuid) with
  | none => state
  | some alert =>
    if alert.klass.dismissable then
      { state with dismissals := state.dismissals ++ [⟨alert, state.alerts.filter fun other =>
          decide ((other.node, other.klass.name) = (alert.node, alert.klass.name))⟩] }
    else if alert.klass.oneShot && !alert.klass.deletedAutomatically then
      record (state.shrink (removeAll state.alerts [alert])) alert [alert]
    else record (state.mutate (setDismissed alert.ref true)) alert []

def Dismissal.gone (dismissal : Dismissal Args) (left : List Nat) : List (Alert Args) :=
  notIn (dismissal.related.filter fun alert => decide (alert.ref ∈ left)) dismissal.related

def dismissReturn (dismissal : Dismissal Args) (left : List Nat) : State Args :=
  record (state.shrink (removeAll state.alerts (dismissal.gone left))) dismissal.alert
    (dismissal.gone left)

def replaceSource (name : String) (reported : List (Alert Args)) : State Args :=
  let state :=
    state.assign (state.alerts.filter (fun alert => decide (alert.source ≠ name)) ++ reported)
  let keeps := fun ident : Ident =>
    decide (ident.source ≠ name) || decide (ident ∈ State.idents reported)
  { state with returned := state.returned.filter keeps, deleted := state.deleted.filter keeps }

def runSource (name : String) (node : Node)
    (this other : List (Report Args)) (now : Nat) : State Args :=
  let this := uniqueKeys this
  let other := uniqueKeys other
  let reported := handleReports state.alerts now state.fresh node name this ++
    handleReports state.alerts now (state.fresh + this.length) node.other name other
  { replaceSource state name reported with fresh := state.fresh + this.length + other.length }

def seenAgain (refs : List Nat) (now : Nat) (alert : Alert Args) : Alert Args :=
  if alert.ref ∈ refs then { alert with lastOccurrence := now } else alert

/-- The alerts of the source that are in the list are its result. An object that only a
suspended dismissal or the loop of a flush still holds is not touched. -/
def runBlockedSource (name : String) (node : Node) (now : Nat) : State Args :=
  let listed := state.alerts.filter fun alert => decide (alert.source = name)
  let state := state.mutate (seenAgain (listed.map Alert.ref) now)
  let of := fun node => state.alerts.filter fun alert =>
    decide (alert.source = name) && decide (alert.node = node)
  replaceSource state name (of node ++ of node.other)

def shouldExpire (now : Nat) (alert : Alert Args) : Bool :=
  alert.klass.oneShot &&
    alert.klass.expiresAfter.any fun lifetime => decide (alert.lastOccurrence + lifetime < now)

/-- Alerts that have gone for another reason than a dismissal need none. -/
def forget (before : List (Alert Args)) : State Args :=
  let gone := fun ident : Ident =>
    decide (ident ∈ State.idents before) && decide (ident ∉ State.idents state.alerts)
  { state with returned := state.returned.filter fun ident => !gone ident }

def expire (now : Nat) : State Args :=
  forget (state.assign (state.alerts.filter fun alert => !shouldExpire now alert)) state.alerts

def deepcopy (fresh : Nat) (alerts : List (Alert Args)) : List (Alert Args) :=
  alerts.zipIdx.map fun (alert, i) => { alert with ref := fresh + i }

def oneshotCreate (node : Node) (report : Report Args) (now : Nat) : State Args :=
  let alert := handleAlert state.alerts now state.fresh state.fresh node "" report
  let created := forget (state.assign
    (state.alerts.filter (fun other => decide (other.uuid ≠ alert.uuid)) ++ [alert])) state.alerts
  -- a one-shot alert that a dismissal deleted begins anew
  { created with
    fresh := state.fresh + 1
    returned := created.returned.filter fun ident =>
      decide (ident ≠ alert.ident) || decide (ident ∉ state.deleted)
    deleted := state.deleted.filter (· ≠ alert.ident) }

def oneshotGone (node : Node) (klass : String) (left : List Nat) : List (Alert Args) :=
  let related := state.alerts.filter fun alert =>
    decide ((alert.node, alert.klass.name) = (node, klass))
  notIn (related.filter fun alert => decide (alert.ref ∈ left)) related

def oneshotDelete (node : Node) (klass : String) (left : List Nat) : State Args :=
  forget (state.shrink (removeAll state.alerts (oneshotGone state node klass left))) state.alerts

/-- Whether the `oneshot_delete` that may go on has deleted an alert. -/
def Deletion.deleted : Deletion → Option Bool
  | .idle => some false
  | .running deleted => some deleted
  | .flushing => none

/-- `flush_alerts` on a controller that is not BACKUP, up to its loop. -/
def flushStart (ofDelete : Bool) : State Args :=
  { state with
    db := []
    flushes := state.flushes ++
      [{ ofDelete := ofDelete, throughout := state.alerts.map Alert.uuid }] }

def flushStep (i : Nat) (flush : Flush Args) (alert : Alert Args) : State Args :=
  { state with
    db := state.db ++ [alert.row]
    flushes := state.flushes.set i { flush with index := flush.index + 1 } }

def flushEnd (i : Nat) (flush : Flush Args) : State Args :=
  { state with
    deletion := if flush.ofDelete then .idle else state.deletion
    flushes := state.flushes.eraseIdx i }

def step : Label Args → Option (State Args)
  | .dismiss uuid => some (dismiss state uuid)
  | .dismissReturn i left =>
    match state.dismissals[i]? with
    | some dismissal =>
      some { dismissReturn state dismissal left with dismissals := state.dismissals.eraseIdx i }
    | none => none
  -- the jobs below share the lock `process_alerts`
  | .processStart =>
    match state.process, state.deletion with
    | none, .idle => some { state with
        process := some ⟨deepcopy state.fresh state.alerts, false⟩
        fresh := state.fresh + state.alerts.length
        touched := false }
    | _, _ => none
  | .runSource name node this other now =>
    match state.process with
    | some ⟨_, false⟩ => some (runSource state name node this other now)
    | _ => none
  | .runBlockedSource name node now =>
    match state.process with
    | some ⟨_, false⟩ => some (runBlockedSource state name node now)
    | _ => none
  | .expire now =>
    match state.process with
    | some ⟨valid, false⟩ => some { expire state now with process := some ⟨valid, true⟩ }
    | _ => none
  | .restoreValid =>
    match state.process with
    | some ⟨valid, true⟩ => some { state.assign valid with process := none }
    | _ => none
  | .processFinish =>
    match state.process with
    | some ⟨_, true⟩ => some { state with process := none }
    | _ => none
  | .processRaise =>
    match state.process with
    | some _ => some { state with process := none }
    | none => none
  | .oneshotCreate node report now =>
    match state.process, state.deletion with
    | none, .idle => some (oneshotCreate state node report now)
    | _, _ => none
  | .oneshotDelete node klass left =>
    match state.process, state.deletion.deleted with
    | none, some deleted => some { oneshotDelete state node klass left with
        deletion := .running (deleted || !(oneshotGone state node klass left).isEmpty) }
    | _, _ => none
  | .oneshotDeleted backup =>
    match state.deletion with
    | .running deleted =>
      if deleted && !backup then some { flushStart state true with deletion := .flushing }
      else some { state with deletion := .idle }
    | _ => none
  | .flushStart backup => some (if backup then state else flushStart state false)
  | .flushStep i =>
    match state.flushes[i]? with
    | some flush => ((state.walked flush)[flush.index]?).map fun alert =>
        flushStep state i flush alert
    | none => none
  | .flushEnd i =>
    match state.flushes[i]? with
    | some flush =>
      if (state.walked flush).length ≤ flush.index then some (flushEnd state i flush) else none
    | none => none

inductive Steps (state : State Args) : Label Args → State Args → Prop
  | dismiss (uuid : Nat) : Steps state (.dismiss uuid) (dismiss state uuid)
  | dismissReturn {i : Nat} {dismissal : Dismissal Args} (left : List Nat)
      (found : state.dismissals[i]? = some dismissal) :
      Steps state (.dismissReturn i left)
        { dismissReturn state dismissal left with dismissals := state.dismissals.eraseIdx i }
  | processStart (idle : state.process = none) :
      Steps state .processStart { state with
        process := some ⟨deepcopy state.fresh state.alerts, false⟩
        fresh := state.fresh + state.alerts.length
        touched := false }
  | runSource {valid : List (Alert Args)} {name : String} {node : Node}
      {this other : List (Report Args)} {now : Nat}
      (running : state.process = some ⟨valid, false⟩) :
      Steps state (.runSource name node this other now) (runSource state name node this other now)
  | runBlockedSource {valid : List (Alert Args)} (name : String) (node : Node) (now : Nat)
      (running : state.process = some ⟨valid, false⟩) :
      Steps state (.runBlockedSource name node now) (runBlockedSource state name node now)
  | expire {valid : List (Alert Args)} (now : Nat) (running : state.process = some ⟨valid, false⟩) :
      Steps state (.expire now) { expire state now with process := some ⟨valid, true⟩ }
  | restoreValid {valid : List (Alert Args)} (running : state.process = some ⟨valid, true⟩) :
      Steps state .restoreValid { state.assign valid with process := none }
  | processFinish : Steps state .processFinish { state with process := none }
  | processRaise : Steps state .processRaise { state with process := none }
  | oneshotCreate (node : Node) (report : Report Args) (now : Nat) (idle : state.process = none) :
      Steps state (.oneshotCreate node report now) (oneshotCreate state node report now)
  | oneshotDelete (node : Node) (klass : String) (left : List Nat) (deleted : Bool) :
      Steps state (.oneshotDelete node klass left)
        { oneshotDelete state node klass left with deletion := .running deleted }
  | oneshotDeleted (backup : Bool) :
      Steps state (.oneshotDeleted backup) { state with deletion := .idle }
  | oneshotFlush (running : state.deletion = .running true) :
      Steps state (.oneshotDeleted false) { flushStart state true with deletion := .flushing }
  | flushRefused : Steps state (.flushStart true) state
  | flushStart : Steps state (.flushStart false) (flushStart state false)
  | flushStep {i : Nat} {flush : Flush Args} {alert : Alert Args}
      (running : state.flushes[i]? = some flush)
      (here : (state.walked flush)[flush.index]? = some alert) :
      Steps state (.flushStep i) (flushStep state i flush alert)
  | flushEnd (i : Nat) (flush : Flush Args) : Steps state (.flushEnd i) (flushEnd state i flush)

theorem step_cases {state next : State Args} {label : Label Args}
    (taken : step state label = some next) : Steps state label next := by
  cases label with simp only [step] at taken
  | dismiss uuid =>
    cases taken
    exact .dismiss uuid
  | oneshotDelete node klass left =>
    split at taken <;> cases taken
    exact .oneshotDelete node klass left _
  | oneshotDeleted backup =>
    split at taken
    · rename_i deleted running
      cases deleted <;> cases backup <;> cases taken
      · exact .oneshotDeleted false
      · exact .oneshotDeleted true
      · exact .oneshotFlush running
      · exact .oneshotDeleted true
    · cases taken
  | flushStart backup =>
    cases backup <;> cases taken
    · exact .flushStart
    · exact .flushRefused
  | flushStep i =>
    split at taken
    · rename_i flush running
      obtain ⟨alert, here, rfl⟩ := Option.map_eq_some_iff.mp taken
      exact .flushStep running here
    · cases taken
  | flushEnd i =>
    split at taken
    · split_ifs at taken
      cases taken
      exact .flushEnd i _
    · cases taken
  | _ =>
    split at taken <;> cases taken
    constructor <;> assumption

end Step

end TruenasMiddleware.Alerts
