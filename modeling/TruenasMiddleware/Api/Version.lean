import TruenasMiddleware.Api.Model

/-! `APIVersionsAdapter._adapt_value`: a value of a model of one API version turned into
a value of the model of the same name in another version. -/

namespace TruenasMiddleware.Api

inductive Direction
  | downgrade
  | upgrade

inductive AdaptError
  | recursionError
  /-- A dictionary had its keys changed during an iteration. -/
  | runtimeError
  /-- `.keys()` of a list element that is not a dictionary. -/
  | attributeError
  | keyError (key : String)

/-- A dictionary that has no room for a new key is rebuilt, which moves its entries
under a running iterator: `find` says which of the entries behind it the iterator
still comes to. -/
structure Rebuild where
  find : List String → List String
  sublist : ∀ entries, (find entries).Sublist entries

def Rebuild.inPlace : Rebuild where
  find := id
  sublist := List.Sublist.refl

def ModelOf.fromPrevious (_ : Model) (value : Object) : Object := value

def ModelOf.toPrevious (_ : Model) (value : Object) : Object := value

def aliasToField (model : Model) : List (String × String) :=
  model.fields.foldl (fun mapping field => Dict.set field.key field.name mapping) []

def nestedModels (items : Object) (current new : FieldType) : Option (Model × Model) :=
  match modelFieldIsModel (some items) none current with
  | none => none
  | some currentNested =>
    match modelFieldIsModel none (some currentNested.name) new with
    | none => none
    | some newNested =>
      if currentNested.name = newNested.name then some (currentNested, newNested) else none

def listModel (fieldType : FieldType) : Option Model :=
  (modelFieldIsListOfModels fieldType).bind (modelFieldIsModel none none)

def listModels (current new : FieldType) : Option (Model × Model) :=
  match listModel current, listModel new with
  | some currentNested, some newNested =>
    if currentNested.name = newNested.name then some (currentNested, newNested) else none
  | _, _ => none

section Value

abbrev Adapter := Model → Model → Object → Except AdaptError Object

variable (recurse : Adapter)

def adaptElements (current new : Model) : List Value → Except AdaptError (List Value)
  | [] => .ok []
  | .dict items :: rest =>
    match recurse current new items with
    | .error error => .error error
    | .ok adapted => (adaptElements current new rest).map (.dict adapted :: ·)
  | _ :: _ => .error .attributeError

def adaptNestedValue (current new : FieldType) : Value → Except AdaptError Value
  | .dict items =>
    match nestedModels items current new with
    | some (current, new) => (recurse current new items).map .dict
    | none => .ok (.dict items)
  | .list values =>
    match listModels current new with
    | some (current, new) => (adaptElements recurse current new values).map .list
    | none => .ok (.list values)
  | value => .ok value

structure Progress where
  value : Object
  presentFields : List String

/-- One turn of the loop over the keys. Also returned is the key that the turn has
added to the dictionary, if it has renamed one. -/
def adaptKey (current new : Model) (progress : Progress) (k : String) :
    Except AdaptError (Progress × Option String) :=
  let currentFieldName := ((aliasToField current).lookup k).getD k
  let newFieldName := ((aliasToField new).lookup k).getD k
  match current.field? currentFieldName, new.field? newFieldName with
  | some currentField, some newField =>
    match progress.value.lookup k with
    | none => .error (.keyError k)
    | some old =>
      match adaptNestedValue recurse currentField.fieldType newField.fieldType old with
      | .error error => .error error
      | .ok adapted =>
        let value := Dict.set k adapted progress.value
        let presentFields := newFieldName :: progress.presentFields
        if k ≠ newField.key ∧ newField.key ∉ Dict.keys value then
          .ok (⟨Dict.set newField.key adapted (Dict.pop k value), presentFields⟩, some newField.key)
        else .ok (⟨value, presentFields⟩, none)
  | _, _ => .ok (progress, none)

/-- The loop over `value.keys()`. An iterator yields no more keys than the dictionary
had when the iteration began, and raises when it comes to one more. -/
def adaptKeys (rebuild : Rebuild) (current new : Model) :
    Nat → List String → Progress → Except AdaptError Progress
  | _, [], progress => .ok progress
  | 0, _ :: _, _ => .error .runtimeError
  | n + 1, k :: rest, progress =>
    match adaptKey recurse current new progress k with
    | .error error => .error error
    | .ok (progress, none) => adaptKeys rebuild current new n rest progress
    | .ok (progress, some key) =>
      adaptKeys rebuild current new n (rebuild.find (rest ++ [key])) progress

end Value

def missingEntry (progress : Progress) (field : Field) : Option (String × Value) :=
  if field.name ∉ progress.presentFields then field.default.map (field.key, ·) else none

/-- The missing fields get their defaults, unless the model is one for updates. -/
def addDefaults (new : Model) (progress : Progress) : Object :=
  if new.forUpdate then progress.value
  else
    new.fields.foldl (fun value field => Dict.write (missingEntry progress field) value)
      progress.value

def Value.isMissing : Value → Bool
  | .missing => true
  | _ => false

/-- The last loop: fields that the new model does not have, and fields left out. -/
def dropOld (current new : Model) (value : Object) : Object :=
  value.filter fun (k, v) => !(decide (k ∈ current.names ∧ k ∉ new.names) || v.isMissing)

def adaptValue (rebuild : Rebuild) (direction : Direction) :
    Nat → Model → Model → Object → Except AdaptError Object
  | 0, _, _, _ => .error .recursionError
  | limit + 1, current, new, value =>
    match adaptKeys (adaptValue rebuild direction limit) rebuild current new value.length
        (Dict.keys value) ⟨value, []⟩ with
    | .error error => .error error
    | .ok progress =>
      let value := addDefaults new progress
      let value :=
        match direction with
        | .downgrade => current.toPrevious value
        | .upgrade => new.fromPrevious value
      .ok (dropOld current new value)

end TruenasMiddleware.Api
