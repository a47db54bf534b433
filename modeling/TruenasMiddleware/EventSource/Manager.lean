import TruenasMiddleware.Foundation.Dict
import TruenasMiddleware.Foundation.Transition
import Mathlib.Data.Finset.Basic

/-! `EventSourceManager` of `common/event_source/manager.py`: the tables of subscribers,
subscriptions and event source instances under `subscribe`, `unsubscribe`, `unsubscribe_app` and
`_unsubscribe_all`, with every point at which one of them can raise. -/

namespace TruenasMiddleware.EventSource

open Transition

abbrev Key := String × Option String

inductive Subscriber (App : Type)
  | app (app : App)
  | internal
deriving DecidableEq

structure IdentData (App : Type) where
  subscriber : Subscriber App
  name : String
  arg : Option String

/-- An event source; `started` once a task runs its `process`. -/
structure Instance where
  started : Bool
deriving DecidableEq

/-- What `json.loads` makes of a text: an object, something else, `ValueError` or another
exception. -/
inductive Parsed (Object : Type)
  | object (fields : Object)
  | other
  | invalid
  | raises

inductive Checked
  | valid
  | invalid
  | raises
deriving DecidableEq

/-- The registered event sources, each with the validation by its `args` model. -/
structure Sources (Object : Type) where
  loads : String → Parsed Object
  noFields : Object
  eventSources : String → Option (Object → Checked)

def validateArg {Object : Type} (sources : Sources Object) (model : Object → Checked) :
    Option String → Checked
  | none => model sources.noFields
  | some text =>
    match sources.loads text with
    | .object fields => model fields
    -- `model(**data)` takes a mapping, anything else is a `TypeError`
    | .other => .raises
    | .invalid => .invalid
    | .raises => .raises

/-- The three tables; a `defaultdict` answers its default where nothing was stored. -/
structure Tables (App : Type) where
  idents : List (String × IdentData App) := []
  subscriptions : Key → Finset String := fun _ => ∅
  instances : Key → Option Instance := fun _ => none

inductive Exception
  | identUsed
  | keyError
  | validation
  | terminate
deriving DecidableEq

structure Outcome (App : Type) where
  tables : Tables App
  raised : Option Exception := none

variable {App Object : Type}

def IdentData.key (data : IdentData App) : Key := (data.name, data.arg)

namespace Tables

variable (tables : Tables App)

def setInstance (key : Key) (inst : Option Instance) : Tables App :=
  { tables with instances := Function.update tables.instances key inst }

def setSubscriptions (key : Key) (idents : Finset String) : Tables App :=
  { tables with subscriptions := Function.update tables.subscriptions key idents }

def popIdent (ident : String) : Tables App :=
  { tables with idents := Dict.pop ident tables.idents }

end Tables

/-- `unsubscribe`; the subscribers of `failing` raise in `terminate`. -/
def unsubscribe (failing : List String) (tables : Tables App) (ident : String) : Outcome App :=
  match tables.idents.lookup ident with
  | none => ⟨tables, none⟩
  | some data =>
    let tables := tables.popIdent ident
    if ident ∈ failing then ⟨tables, some .terminate⟩
    else if ident ∉ tables.subscriptions data.key then ⟨tables, some .keyError⟩
    else
      let left := (tables.subscriptions data.key).erase ident
      let tables := tables.setSubscriptions data.key left
      if left ≠ ∅ then ⟨tables, none⟩
      else
        match tables.instances data.key with
        | none => ⟨tables, some .keyError⟩
        | some _ => ⟨tables.setInstance data.key none, none⟩

def addIdent (tables : Tables App) (ident : String) (data : IdentData App) : Tables App :=
  { tables with
    idents := Dict.set ident data tables.idents
    subscriptions := Function.update tables.subscriptions data.key
      (insert ident (tables.subscriptions data.key)) }

def subscribe (sources : Sources Object) (failing : List String) (tables : Tables App)
    (ident : String) (data : IdentData App) : Outcome App :=
  if ident ∈ Dict.keys tables.idents then ⟨tables, some .identUsed⟩
  else
    let tables := addIdent tables ident data
    match tables.instances data.key with
    | some _ => ⟨tables, none⟩
    | none =>
      match sources.eventSources data.name with
      | none => ⟨tables, some .keyError⟩
      | some model =>
        let tables := tables.setInstance data.key (some ⟨false⟩)
        match validateArg sources model data.arg with
        | .raises => ⟨tables, some .validation⟩
        | .invalid => unsubscribe failing tables ident
        | .valid => ⟨tables.setInstance data.key (some ⟨true⟩), none⟩

def terminateEach (failing : List String) (tables : Tables App) : List String → Outcome App
  | [] => ⟨tables, none⟩
  | ident :: rest =>
    if ident ∉ Dict.keys tables.idents then ⟨tables, some .keyError⟩
    else
      let tables := tables.popIdent ident
      if ident ∈ failing then ⟨tables, some .terminate⟩ else terminateEach failing tables rest

def unsubscribeAll (failing : List String) (tables : Tables App) (key : Key)
    (order : List String) : Outcome App :=
  match terminateEach failing tables order with
  | ⟨tables, some error⟩ => ⟨tables, some error⟩
  | ⟨tables, none⟩ => ⟨(tables.setInstance key none).setSubscriptions key ∅, none⟩

def unsubscribeEach (failing : List String) (tables : Tables App) : List String → Outcome App
  | [] => ⟨tables, none⟩
  | ident :: rest =>
    match unsubscribe failing tables ident with
    | ⟨tables, some error⟩ => ⟨tables, some error⟩
    | ⟨tables, none⟩ => unsubscribeEach failing tables rest

section Calls

variable [DecidableEq App] (tables : Tables App)

def identsOf (app : App) : List String :=
  Dict.keys (tables.idents.filter fun entry => decide (entry.2.subscriber = .app app))

def unsubscribeApp (failing : List String) (tables : Tables App) (app : App) : Outcome App :=
  unsubscribeEach failing tables (identsOf tables app)

inductive Call (App : Type)
  | subscribe (ident : String) (data : IdentData App) (failing : List String)
  | unsubscribe (ident : String) (failing : List String)
  /-- `order` is the order in which the set is iterated. -/
  | unsubscribeAll (key : Key) (order : List String) (failing : List String)
  | unsubscribeApp (app : App) (failing : List String)

def perform (sources : Sources Object) (tables : Tables App) : Call App → Outcome App
  | .subscribe ident data failing => subscribe sources failing tables ident data
  | .unsubscribe ident failing => unsubscribe failing tables ident
  | .unsubscribeAll key order failing => unsubscribeAll failing tables key order
  | .unsubscribeApp app failing => unsubscribeApp failing tables app

omit [DecidableEq App] in
/-- A set is iterated in some order, each element once. -/
def Possible : Call App → Prop
  | .unsubscribeAll key order _ => order.Nodup ∧ order.toFinset = tables.subscriptions key
  | _ => True

instance (call : Call App) : Decidable (Possible tables call) := by
  cases call <;> unfold Possible <;> infer_instance

def step (sources : Sources Object) (tables : Tables App) (call : Call App) : Option (Tables App) :=
  if Possible tables call then some (perform sources tables call).tables else none

end Calls

end TruenasMiddleware.EventSource
