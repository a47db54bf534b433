import TruenasMiddleware.Foundation.Dict

/-! API models: the part of `BaseModel` and of `handler/inspect.py` that the version
adapter reads. A model is strict and forbids extra fields; a field with an alias is
read and written under the alias only. -/

namespace TruenasMiddleware.Api

/-- Values as they go through the adapter. `missing` stands for the objects `undefined`
and `NotRequired`, which mark a field that is left out. -/
inductive Value
  | none
  | bool (b : Bool)
  | int (n : Int)
  | str (text : String)
  | list (items : List Value)
  | dict (items : List (String × Value))
  | missing

abbrev Object := List (String × Value)

inductive PlainType
  | none
  | bool
  | int
  | str
  | dict

structure FieldOf (α : Type) where
  name : String
  aliasName : Option String := none
  fieldType : α
  /-- `none` for a required field. -/
  default : Option Value := none

structure ModelOf (α : Type) where
  name : String
  /-- The metaclass is `ForUpdateMetaclass`. -/
  forUpdate : Bool := false
  fields : List (FieldOf α)

inductive FieldType
  | plain (type : PlainType)
  | model (model : ModelOf FieldType)
  | list (item : FieldType)
  | union (members : List FieldType)

abbrev Field := FieldOf FieldType

abbrev Model := ModelOf FieldType

def FieldOf.key {α : Type} (field : FieldOf α) : String :=
  match field.aliasName with
  | some other => if other = "" then field.name else other
  | none => field.name

namespace ModelOf

variable {α : Type}

def names (model : ModelOf α) : List String := model.fields.map FieldOf.name

def keys (model : ModelOf α) : List String := model.fields.map FieldOf.key

def requires (model : ModelOf α) (field : FieldOf α) : Bool :=
  !model.forUpdate && field.default.isNone

def field? (model : ModelOf α) (name : String) : Option (FieldOf α) :=
  model.fields.find? (·.name == name)

end ModelOf

def PlainType.accepts : PlainType → Value → Bool
  | .none, .none => true
  | .bool, .bool _ => true
  | .int, .int _ => true
  | .str, .str _ => true
  | .dict, .dict _ => true
  | _, _ => false

mutual

def FieldType.accepts : FieldType → Value → Bool
  | .plain type, value => type.accepts value
  | .model ⟨_, forUpdate, fields⟩, .dict items =>
    decide (Dict.keys items).Nodup &&
      (Dict.keys items).all (fields.map FieldOf.key).contains &&
      acceptFields forUpdate fields items
  | .model _, _ => false
  | .list item, .list values => values.all item.accepts
  | .list _, _ => false
  | .union members, value => acceptAny members value

def acceptAny : List FieldType → Value → Bool
  | [], _ => false
  | member :: rest, value => member.accepts value || acceptAny rest value

def acceptFields (forUpdate : Bool) : List (FieldOf FieldType) → Object → Bool
  | [], _ => true
  | ⟨name, aliasName, fieldType, default⟩ :: rest, items =>
    (match items.lookup (FieldOf.key ⟨name, aliasName, fieldType, default⟩) with
      | some value => fieldType.accepts value
      | none => forUpdate || default.isSome) && acceptFields forUpdate rest items

end

def ModelOf.validates (model : Model) (items : Object) : Bool :=
  (FieldType.model model).accepts (.dict items)

mutual

/-- `model_field_is_model`. The members of a union are looked at without the hints,
which then choose among the models found. -/
def modelFieldIsModel (valueHint : Option Object) (nameHint : Option String) :
    FieldType → Option Model
  | .model model => some model
  | .union members => matchingUnionModel valueHint nameHint members
  | _ => none

def matchingUnionModel (valueHint : Option Object) (nameHint : Option String) :
    List FieldType → Option Model
  | [] => none
  | member :: rest =>
    match modelFieldIsModel none none member with
    | none => matchingUnionModel valueHint nameHint rest
    | some result =>
      let chosen : Bool :=
        match valueHint, nameHint with
        | some value, _ => result.validates value
        | none, some name => result.name == name
        | none, none => true
      if chosen then some result else matchingUnionModel valueHint nameHint rest

end

/-- `model_field_is_list_of_models`: the type of the items, whatever it is. -/
def modelFieldIsListOfModels : FieldType → Option FieldType
  | .list item => some item
  | .union members => firstList members
  | _ => none
where
  firstList : List FieldType → Option FieldType
    | [] => none
    | member :: rest =>
      match modelFieldIsListOfModels member with
      | some item => some item
      | none => firstList rest

section Validation

theorem acceptFields_iff {forUpdate : Bool} {fields : List Field} {items : Object} :
    acceptFields forUpdate fields items = true ↔ ∀ field ∈ fields,
      (∀ value, items.lookup field.key = some value → field.fieldType.accepts value = true) ∧
      (items.lookup field.key = none → forUpdate = true ∨ field.default.isSome = true) := by
  induction fields with
  | nil => simp [acceptFields]
  | cons field rest ih =>
    rw [acceptFields, Bool.and_eq_true, ih, List.forall_mem_cons]
    refine and_congr_left fun _ => ?_
    cases found : items.lookup field.key with
    | none | some => simp

theorem requires_eq_false {model : Model} {field : Field} :
    model.requires field = false ↔ model.forUpdate = true ∨ field.default.isSome = true := by
  cases update : model.forUpdate <;> simp [ModelOf.requires, update]

theorem validates_iff {model : Model} {items : Object} :
    model.validates items = true ↔ (Dict.keys items).Nodup ∧
      (∀ key ∈ Dict.keys items, ∃ field ∈ model.fields, field.key = key) ∧
      ∀ field ∈ model.fields, (∀ value, items.lookup field.key = some value →
          field.fieldType.accepts value = true) ∧
        (items.lookup field.key = none → model.requires field = false) := by
  rw [ModelOf.validates, FieldType.accepts, Bool.and_eq_true, Bool.and_eq_true,
    acceptFields_iff, decide_eq_true_eq, and_assoc, List.all_eq_true]
  simp [requires_eq_false]

end Validation

end TruenasMiddleware.Api
