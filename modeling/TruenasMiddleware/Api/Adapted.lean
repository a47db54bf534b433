import Mathlib.Logic.Relation
import TruenasMiddleware.Foundation.Fallible
import TruenasMiddleware.Api.Version

/-! What adapting a value to another version of its model should give, and the pairs of
models that one adaptation goes through. -/

namespace TruenasMiddleware.Api

open List

section Specification

def given (model : Model) (items : Object) (name : String) : Option (Field × Value) :=
  (model.field? name).bind fun field => (items.lookup field.key).map (field, ·)

def defaultFor (model : Model) (field : Field) : Option Value :=
  if model.forUpdate then none else field.default.filter fun value => !value.isMissing

def FieldType.model? : FieldType → Option Model
  | .model inner => some inner
  | _ => none

/-- The models that a dictionary may belong to. -/
def FieldType.models : FieldType → List Model
  | .union members => members.filterMap model?
  | fieldType => fieldType.model?.toList

def FieldType.ownItem? : FieldType → Option FieldType
  | .list item => some item
  | _ => none

/-- The type of the elements of a list. -/
def FieldType.item? : FieldType → Option FieldType
  | .union members => members.findSome? ownItem?
  | fieldType => fieldType.ownItem?

def sameName (model : Model) (other : Model) : Bool := other.name == model.name

/-- The two versions of the model of a dictionary: the first that it is valid for, and
the one of that name in the new type. -/
def versions (items : Object) (current new : FieldType) : Option (Model × Model) :=
  (current.models.find? fun model => model.validates items).bind fun model =>
    (new.models.find? (sameName model)).map (model, ·)

variable (rel : Model → Model → Object → Object → Prop)

/-- A dictionary is adapted where both versions have its model, and everything else is
kept. -/
def DictAdapted (current new : FieldType) : Value → Value → Prop
  | .dict items, result =>
    match versions items current new with
    | some (current, new) => ∃ adapted, result = .dict adapted ∧ rel current new items adapted
    | none => result = .dict items
  | value, result => result = value

/-- So are the elements of a list, one by one. -/
def ValueAdapted (current new : FieldType) : Value → Value → Prop
  | .list values, result =>
    match current.item?, new.item? with
    | some current, some new => ∃ results, result = .list results ∧
        List.Forall₂ (DictAdapted rel current new) values results
    | _, _ => result = .list values
  | value, result => DictAdapted rel current new value result

/-- The new model's fields under their new keys, and nothing else: the fields of the
old model keep their value, the other ones get their default. -/
structure ObjectAdapted (current new : Model) (items result : Object) : Prop where
  only : ∀ key value, result.lookup key = some value → ∃ field ∈ new.fields, field.key = key
  shared : ∀ field ∈ new.fields, ∀ old value, given current items field.name = some (old, value) →
    ∃ adapted, result.lookup field.key = some adapted ∧
      ValueAdapted rel old.fieldType field.fieldType value adapted
  added : ∀ field ∈ new.fields, given current items field.name = none →
    new.requires field = false ∧ result.lookup field.key = defaultFor new field

end Specification

def Adapted : Nat → Model → Model → Object → Object → Prop
  | 0 => fun _ _ _ _ => False
  | depth + 1 => ObjectAdapted (Adapted depth)

structure Level where
  current : Model
  new : Model
  items : Object

variable (current new : FieldType)

def dictLevels : Value → List Level
  | .dict items => (versions items current new).toList.map fun pair => ⟨pair.1, pair.2, items⟩
  | _ => []

def nestedLevels : Value → List Level
  | .list values =>
    match current.item?, new.item? with
    | some current, some new => values.flatMap (dictLevels current new)
    | _, _ => []
  | value => dictLevels current new value

theorem mem_dictLevels {current new : FieldType} {value : Value} {level : Level} :
    level ∈ dictLevels current new value ↔ value = .dict level.items ∧
      versions level.items current new = some (level.current, level.new) := by
  cases value with
  | dict items =>
    rw [dictLevels, mem_map]
    constructor
    · rintro ⟨pair, found, rfl⟩
      exact ⟨rfl, Option.mem_toList.mp found⟩
    · rintro ⟨eq, found⟩
      cases eq
      exact ⟨_, Option.mem_toList.mpr found, rfl⟩
  | _ => simp [dictLevels]

theorem nestedLevels_cases {current new : FieldType} {value : Value} {level : Level}
    (inside : level ∈ nestedLevels current new value) :
    level ∈ dictLevels current new value ∨ ∃ values item newItem, value = .list values ∧
      current.item? = some item ∧ new.item? = some newItem ∧
        ∃ element ∈ values, level ∈ dictLevels item newItem element := by
  cases value with
  | list values =>
    cases old : current.item? with
    | none => simp [nestedLevels, old] at inside
    | some item =>
      cases later : new.item? with
      | none => simp [nestedLevels, old, later] at inside
      | some newItem =>
        simp only [nestedLevels, old, later, mem_flatMap] at inside
        exact .inr ⟨values, item, newItem, rfl, rfl, rfl, inside⟩
  | _ => exact .inl inside

theorem nestedLevels_valid {current new : FieldType} {value : Value} {level : Level}
    (inside : level ∈ nestedLevels current new value) :
    level.current.validates level.items = true := by
  have here : ∀ {current new value}, level ∈ dictLevels current new value →
      level.current.validates level.items = true := by
    intro current new value inside
    obtain ⟨model, found, paired⟩ :=
      Option.bind_eq_some_iff.mp (mem_dictLevels.mp inside).2
    obtain ⟨other, -, eq⟩ := Option.map_eq_some_iff.mp paired
    cases eq
    have valid := List.find?_some found
    exact valid
  obtain inside | ⟨_, _, _, _, _, _, _, _, inside⟩ := nestedLevels_cases inside
  all_goals exact here inside

/-- The first models of two types, if they have one name. -/
def firstModels : Option (Model × Model) :=
  current.models.head?.bind fun model => (new.models.head?.filter (sameName model)).map (model, ·)

/-- The dictionaries of a list belong to the first models of its element types, or to none
that both versions have. -/
def Alike (values : List Value) : Prop :=
  ∀ item ∈ current.item?, ∀ newItem ∈ new.item?, ∀ items, .dict items ∈ values →
    versions items item newItem = firstModels item newItem

/-- A list has nothing but dictionaries if the first models have one name. -/
def Elementwise (values : List Value) : Prop :=
  ∀ item ∈ current.item?, ∀ newItem ∈ new.item?, (firstModels item newItem).isSome = true →
    ∀ element ∈ values, ∃ items, element = .dict items

namespace Level

variable (level : Level)

def nested : List Level :=
  level.new.fields.flatMap fun field =>
    match given level.current level.items field.name with
    | some (old, value) => nestedLevels old.fieldType field.fieldType value
    | none => []

def Reaches : Level → Level → Prop := Relation.ReflTransGen fun outer inner => inner ∈ outer.nested

structure Distinct : Prop where
  currentNames : level.current.names.Nodup
  newNames : level.new.names.Nodup
  currentKeys : level.current.keys.Nodup
  newKeys : level.new.keys.Nodup

def Gives (field : Field) : Prop :=
  field ∈ level.current.fields ∧ field.key ∈ Dict.keys level.items

/-- The last loop of the adapter takes the key for one of a field that is gone. -/
def Drops (key : String) : Prop :=
  key ∈ level.current.names ∧ key ∉ level.new.names

instance (key : String) : Decidable (level.Drops key) :=
  inferInstanceAs (Decidable (_ ∧ _))

/-- What the adapter gets right at one level: the fields given keep their key and do
not lend it to another field, the ones that go away have the name of a field for a key,
no key of the new model is taken for such a name, and the elements of a list are all of
the first model. -/
structure Adaptable : Prop where
  kept : ∀ field, level.Gives field → ∀ other ∈ level.new.fields, other.name = field.name →
    other.key = field.key
  reused : ∀ field, level.Gives field → ∀ other ∈ level.new.fields, other.key = field.key →
    other.name = field.name
  removed : ∀ field, level.Gives field → field.name ∉ level.new.names → level.Drops field.key
  dropped : ∀ field ∈ level.new.fields, (given level.current level.items field.name).isSome = true ∨
      (defaultFor level.new field).isSome = true → ¬ level.Drops field.key
  required : ∀ field ∈ level.new.fields, level.new.requires field = true →
    (given level.current level.items field.name).isSome = true
  lists : ∀ field ∈ level.current.fields, ∀ other ∈ level.new.fields, other.name = field.name →
    ∀ values, level.items.lookup field.key = some (.list values) →
      Alike field.fieldType other.fieldType values ∧
        Elementwise field.fieldType other.fieldType values

/-- No field given lends its key to another field of the new model, and none that has
another key there has the name of a field that is gone for its old one: the value of
one field would stand for another. Nor is a dictionary in a list adapted as one of
another model. -/
structure Unmixed : Prop where
  reused : ∀ field, level.Gives field → ∀ other ∈ level.new.fields, other.key = field.key →
    other.name = field.name
  dropped : ∀ field, level.Gives field → ∀ other ∈ level.new.fields, other.name = field.name →
    other.key ≠ field.key → ¬ level.Drops field.key
  lists : ∀ field ∈ level.current.fields, ∀ other ∈ level.new.fields, other.name = field.name →
    ∀ values, level.items.lookup field.key = some (.list values) →
      Alike field.fieldType other.fieldType values

end Level

section Validity

namespace FieldType

def flat : FieldType → Bool
  | .plain _ | .model _ => true
  | .list _ | .union _ => false

def single : FieldType → Bool
  | .plain _ | .model _ => true
  | .list (.union members) => members.all flat
  | .list item => item.flat
  | .union _ => false

/-- The types that fields are declared with. -/
def supported : FieldType → Bool
  | .union members =>
    members.all single && decide ((members.filterMap ownItem?).length ≤ 1)
  | fieldType => fieldType.single

end FieldType

variable {fieldType current new item : FieldType} {members : List FieldType} {value : Value}
  {items : Object} {values : List Value}

theorem single_of_flat (flat : fieldType.flat = true) : fieldType.single = true := by
  cases fieldType with
  | plain | model => rfl
  | list | union => cases flat

theorem modelFieldIsModel_of_single (single : fieldType.single = true)
    (valueHint : Option Object) (nameHint : Option String) :
    modelFieldIsModel valueHint nameHint fieldType = fieldType.model? := by
  cases fieldType with
  | plain | model | list => simp only [modelFieldIsModel, FieldType.model?]
  | union members => cases single

/-- How the hints choose among the models of a union. -/
def hinted (valueHint : Option Object) (nameHint : Option String) (model : Model) : Bool :=
  match valueHint, nameHint with
  | some value, _ => model.validates value
  | none, some name => model.name == name
  | none, none => true

theorem matchingUnionModel_eq (single : ∀ member ∈ members, member.single = true)
    (valueHint : Option Object) (nameHint : Option String) :
    matchingUnionModel valueHint nameHint members =
      (members.filterMap FieldType.model?).find? (hinted valueHint nameHint) := by
  induction members with
  | nil => simp only [matchingUnionModel, filterMap_nil, find?_nil]
  | cons member rest ih =>
    have later := ih fun other mem => single other (mem_cons_of_mem member mem)
    rw [matchingUnionModel, modelFieldIsModel_of_single (single member mem_cons_self), later]
    cases found : member.model? with
    | none => rw [filterMap_cons_none found]
    | some model =>
      rw [filterMap_cons_some found, find?_cons]
      change (if hinted valueHint nameHint model then _ else _) = _
      cases hinted valueHint nameHint model <;> rfl

variable {model : Model}

theorem single_of_union (supported : (FieldType.union members).supported = true) :
    ∀ member ∈ members, member.single = true := by
  rw [FieldType.supported, Bool.and_eq_true] at supported
  exact all_eq_true.mp supported.1

theorem isModel_validates (supported : fieldType.supported = true)
    (accepted : fieldType.accepts (.dict items) = true) :
    modelFieldIsModel (some items) none fieldType =
      fieldType.models.find? fun model => model.validates items := by
  cases fieldType with
  | union members =>
    rw [modelFieldIsModel, matchingUnionModel_eq (single_of_union supported)]
    rfl
  | model model =>
    have valid : model.validates items = true := accepted
    simp [modelFieldIsModel, FieldType.models, FieldType.model?, valid]
  | plain | list => simp [modelFieldIsModel, FieldType.models, FieldType.model?]

theorem isModel_sameName (supported : fieldType.supported = true) (model : Model) :
    (modelFieldIsModel none (some model.name) fieldType).filter (sameName model) =
      fieldType.models.find? (sameName model) := by
  cases fieldType with
  | union members =>
    rw [modelFieldIsModel, matchingUnionModel_eq (single_of_union supported)]
    change (find? (sameName model) _).filter (sameName model) =
      find? (sameName model) (members.filterMap FieldType.model?)
    cases found : find? (sameName model) (members.filterMap FieldType.model?) with
    | none => rfl
    | some other => rw [Option.filter_some, if_pos (List.find?_some found)]
  | model other =>
    simp [modelFieldIsModel, FieldType.models, FieldType.model?, Option.filter_some]
  | plain | list => simp [modelFieldIsModel, FieldType.models, FieldType.model?]

theorem filter_sameName (model other : Model) :
    ((some other).filter (sameName model)).map (model, ·) =
      if model.name = other.name then some (model, other) else none := by
  by_cases names : model.name = other.name
  · simp [Option.filter_some, sameName, names]
  · simp [Option.filter_some, sameName, names, Ne.symm names]

theorem nestedModels_eq (supported : current.supported = true) (newSupported : new.supported = true)
    (accepted : current.accepts (.dict items) = true) :
    nestedModels items current new = versions items current new := by
  unfold nestedModels versions
  rw [isModel_validates supported accepted]
  cases current.models.find? fun model => model.validates items with
  | none => rfl
  | some model =>
    rw [Option.bind_some, ← isModel_sameName newSupported model]
    dsimp only
    cases modelFieldIsModel none (some model.name) new with
    | none => rfl
    | some other => rw [filter_sameName]

theorem listItem_of_single (single : fieldType.single = true) :
    modelFieldIsListOfModels fieldType = fieldType.ownItem? := by
  cases fieldType with
  | plain | model | list => simp only [modelFieldIsListOfModels, FieldType.ownItem?]
  | union members => cases single

theorem firstList_eq (single : ∀ member ∈ members, member.single = true) :
    modelFieldIsListOfModels.firstList members = members.findSome? FieldType.ownItem? := by
  induction members with
  | nil => simp only [modelFieldIsListOfModels.firstList, findSome?_nil]
  | cons member rest ih =>
    rw [modelFieldIsListOfModels.firstList, listItem_of_single (single member mem_cons_self),
      ih fun other mem => single other (mem_cons_of_mem member mem), findSome?_cons]
    cases member.ownItem? <;> rfl

theorem list_of_ownItem (found : fieldType.ownItem? = some item) : fieldType = .list item := by
  cases fieldType with
  | list other =>
    cases found
    rfl
  | _ => cases found

theorem isModel_item (single : (FieldType.list item).single = true) :
    modelFieldIsModel none none item = item.models.head? := by
  cases item with
  | union members =>
    have flat : ∀ member ∈ members, member.single = true := fun member mem =>
      single_of_flat (all_eq_true.mp single member mem)
    rw [modelFieldIsModel, matchingUnionModel_eq flat, FieldType.models]
    cases members.filterMap FieldType.model? <;> rfl
  | plain | model => simp [modelFieldIsModel, FieldType.models, FieldType.model?]
  | list => cases single

theorem listModel_eq (supported : fieldType.supported = true) :
    listModel fieldType = fieldType.item?.bind fun item => item.models.head? := by
  have isList : modelFieldIsListOfModels fieldType = fieldType.item? ∧
      ∀ item ∈ fieldType.item?, (FieldType.list item).single = true := by
    cases fieldType with
    | union members =>
      refine ⟨?_, fun item found => ?_⟩
      · rw [modelFieldIsListOfModels, firstList_eq (single_of_union supported)]
        rfl
      · obtain ⟨member, mem, own⟩ := exists_of_findSome?_eq_some found
        exact list_of_ownItem own ▸ single_of_union supported member mem
    | list item =>
      refine ⟨listItem_of_single supported, fun other found => ?_⟩
      cases found
      exact supported
    | plain | model => exact ⟨listItem_of_single rfl, nofun⟩
  rw [listModel, isList.1]
  cases found : fieldType.item? with
  | none => rfl
  | some item => exact isModel_item (isList.2 item found)

theorem listModels_eq (supported : current.supported = true) (newSupported : new.supported = true) :
    listModels current new =
      current.item?.bind fun item => new.item?.bind fun newItem => firstModels item newItem := by
  unfold listModels
  rw [listModel_eq supported, listModel_eq newSupported]
  cases current.item? with
  | none => rfl
  | some item =>
    cases new.item? with
    | none =>
      simp only [Option.bind_some, Option.bind_none]
      cases item.models.head? <;> rfl
    | some newItem =>
      simp only [Option.bind_some, firstModels]
      cases item.models.head? with
      | none => rfl
      | some model =>
        cases newItem.models.head? with
        | none => rfl
        | some other => rw [Option.bind_some, filter_sameName]

theorem exists_of_acceptAny (accepted : acceptAny members value = true) :
    ∃ mem ∈ members, mem.accepts value = true := by
  induction members with
  | nil => cases accepted
  | cons mem rest ih =>
    rw [acceptAny, Bool.or_eq_true] at accepted
    rcases accepted with here | later
    · exact ⟨mem, mem_cons_self, here⟩
    · obtain ⟨other, inside, accepted⟩ := ih later
      exact ⟨other, mem_cons_of_mem mem inside, accepted⟩

theorem single_accepts_missing (single : fieldType.single = true) :
    fieldType.accepts .missing = false := by
  cases fieldType with
  | plain type => cases type <;> rfl
  | model | list => rfl
  | union members => cases single

theorem isMissing_of_accepts (accepted : fieldType.accepts value = true)
    (supported : fieldType.supported = true) :
    value.isMissing = false := by
  cases value with
  | missing =>
    cases fieldType with
    | union members =>
      rw [FieldType.accepts] at accepted
      obtain ⟨mem, inside, accepted⟩ := exists_of_acceptAny accepted
      rw [single_accepts_missing (single_of_union supported mem inside)] at accepted
      cases accepted
    | plain type => cases type <;> cases accepted
    | model | list => cases accepted
  | _ => rfl

end Validity

section Nested

variable {rel : Model → Model → Object → Object → Prop} {recurse : Adapter}

def Returns (recurse : Adapter) (rel : Model → Model → Object → Object → Prop) (level : Level) :
    Prop :=
  ∃ result, recurse level.current level.new level.items = .ok result ∧
    rel level.current level.new level.items result

variable {values results : List Value} {value adapted : Value}
  {current new item newItem : FieldType} {old later : Model}

theorem dictAdapted_of_rel {items result : Object}
    (chosen : versions items item newItem = some (old, later))
    (right : rel old later items result) :
    DictAdapted rel item newItem (.dict items) (.dict result) := by
  simp only [DictAdapted, chosen]
  exact ⟨result, rfl, right⟩

theorem adaptElements_returns
    (dicts : ∀ value ∈ values, ∃ items, value = .dict items ∧
      versions items item newItem = some (old, later) ∧ Returns recurse rel ⟨old, later, items⟩) :
    ∃ results, adaptElements recurse old later values = .ok results ∧
      List.Forall₂ (DictAdapted rel item newItem) values results := by
  induction values with
  | nil => exact ⟨[], rfl, .nil⟩
  | cons value rest ih =>
    obtain ⟨items, rfl, chosen, adapted, run, right⟩ := dicts value mem_cons_self
    obtain ⟨results, after, related⟩ :=
      ih fun other mem => dicts other (mem_cons_of_mem _ mem)
    refine ⟨.dict adapted :: results, ?_, .cons (dictAdapted_of_rel chosen right) related⟩
    dsimp only at run
    simp only [adaptElements, run, after]
    rfl

theorem adaptElements_related
    (alike : ∀ items, .dict items ∈ values → versions items item newItem = some (old, later))
    (run : adaptElements recurse old later values = .ok results)
    (related : List.Forall₂ (DictAdapted rel item newItem) values results) :
    ∀ element ∈ values, ∃ items, element = .dict items ∧
      Returns recurse rel ⟨old, later, items⟩ := by
  induction values generalizing results with
  | nil => exact fun _ mem => by cases mem
  | cons value rest ih =>
    cases value with
    | dict first =>
      obtain _ | ⟨right, more⟩ := related
      have chosen := alike first mem_cons_self
      simp only [adaptElements] at run
      cases call : recurse old later first with rw [call] at run
      | error e => cases run
      | ok adapted =>
        obtain ⟨others, tail, joined⟩ := Fallible.map_eq_ok.mp run
        obtain ⟨rfl, rfl⟩ := List.cons.inj joined
        simp only [DictAdapted, chosen] at right
        obtain ⟨_, eq, right⟩ := right
        cases eq
        intro element mem
        rcases mem_cons.mp mem with rfl | mem
        · exact ⟨first, rfl, adapted, call, right⟩
        · exact ih (fun items mem => alike items (mem_cons_of_mem _ mem)) tail more element mem
    | _ => cases run

/-- The functions of the adapter choose the models of the value. -/
structure Chosen (current new : FieldType) (value : Value) : Prop where
  dict : ∀ items, value = .dict items →
    nestedModels items current new = versions items current new
  list : listModels current new =
    current.item?.bind fun item => new.item?.bind fun newItem => firstModels item newItem

theorem chosen_of_accepts (supported : current.supported = true)
    (newSupported : new.supported = true) (accepted : current.accepts value = true) :
    Chosen current new value where
  dict _ eq := nestedModels_eq supported newSupported (eq ▸ accepted)
  list := listModels_eq supported newSupported

theorem adaptNestedValue_returns (chosen : Chosen current new value)
    (lists : ∀ values, value = .list values →
      Alike current new values ∧ Elementwise current new values)
    (calls : ∀ level ∈ nestedLevels current new value, Returns recurse rel level) :
    ∃ adapted, adaptNestedValue recurse current new value = .ok adapted ∧
      ValueAdapted rel current new value adapted := by
  cases value with
  | dict items =>
    have same := chosen.dict items rfl
    cases pair : versions items current new with
    | none =>
      refine ⟨.dict items, ?_, ?_⟩
      · simp only [adaptNestedValue, same, pair]
      · simp only [ValueAdapted, DictAdapted, pair]
    | some models =>
      obtain ⟨adapted, run, right⟩ := calls ⟨models.1, models.2, items⟩
        (mem_dictLevels.mpr ⟨rfl, pair⟩)
      dsimp only at run
      refine ⟨.dict adapted, ?_, dictAdapted_of_rel pair right⟩
      simp only [adaptNestedValue, same, pair, run]
      rfl
  | list values =>
    obtain ⟨alike, elementwise⟩ := lists values rfl
    have same := chosen.list
    cases old : current.item? with
    | none =>
      rw [old, Option.bind_none] at same
      exact ⟨.list values, by simp only [adaptNestedValue, same], by simp only [ValueAdapted, old]⟩
    | some item =>
      cases later : new.item? with
      | none =>
        rw [old, later, Option.bind_some, Option.bind_none] at same
        exact ⟨.list values, by simp only [adaptNestedValue, same],
          by simp only [ValueAdapted, old, later]⟩
      | some newItem =>
        rw [old, later, Option.bind_some, Option.bind_some] at same
        have versions_eq := alike item old newItem later
        simp only [ValueAdapted, old, later]
        cases first : firstModels item newItem with
        | none =>
          refine ⟨.list values, by simp only [adaptNestedValue, same, first], values, rfl, ?_⟩
          refine forall₂_same.mpr fun element mem => ?_
          cases element with
          | dict items => simp only [DictAdapted, (versions_eq items mem).trans first]
          | _ => rfl
        | some models =>
          have dicts : ∀ element ∈ values, ∃ items, element = .dict items ∧
              versions items item newItem = some models ∧
              Returns recurse rel ⟨models.1, models.2, items⟩ := by
            intro element mem
            obtain ⟨items, rfl⟩ :=
              elementwise item old newItem later (by rw [first]; rfl) element mem
            have pair := (versions_eq items mem).trans first
            refine ⟨items, rfl, pair, calls _ ?_⟩
            simp only [nestedLevels, old, later, mem_flatMap]
            exact ⟨_, mem, mem_dictLevels.mpr ⟨rfl, pair⟩⟩
          obtain ⟨results, run, related⟩ := adaptElements_returns dicts
          refine ⟨.list results, ?_, results, rfl, related⟩
          simp only [adaptNestedValue, same, first, run]
          rfl
  | _ => exact ⟨_, rfl, rfl⟩

theorem adaptNestedValue_related (chosen : Chosen current new value)
    (alike : ∀ values, value = .list values → Alike current new values)
    (run : adaptNestedValue recurse current new value = .ok adapted)
    (right : ValueAdapted rel current new value adapted) :
    (∀ level ∈ nestedLevels current new value, Returns recurse rel level) ∧
      ∀ values, value = .list values → Elementwise current new values := by
  cases value with
  | dict items =>
    refine ⟨fun level inside => ?_, nofun⟩
    have inside : level ∈ dictLevels current new (.dict items) := inside
    obtain ⟨eq, pair⟩ := mem_dictLevels.mp inside
    cases eq
    simp only [adaptNestedValue, chosen.dict _ rfl, pair] at run
    simp only [ValueAdapted, DictAdapted, pair] at right
    obtain ⟨result, rfl, related⟩ := right
    obtain ⟨other, call, eq⟩ := Fallible.map_eq_ok.mp run
    cases eq
    exact ⟨_, call, related⟩
  | list values =>
    suffices both : ∀ item ∈ current.item?, ∀ newItem ∈ new.item?,
        (∀ element ∈ values, ∀ level ∈ dictLevels item newItem element,
          Returns recurse rel level) ∧ ((firstModels item newItem).isSome = true →
            ∀ element ∈ values, ∃ items, element = .dict items) by
      refine ⟨fun level inside => ?_, ?_⟩
      · obtain inside | ⟨_, item, newItem, eq, old, later, element, mem, inside⟩ :=
          nestedLevels_cases inside
        · cases (mem_dictLevels.mp inside).1
        · cases eq
          exact (both item old newItem later).1 element mem level inside
      · rintro _ ⟨⟩ item old newItem later
        exact (both item old newItem later).2
    intro item old newItem later
    have same := chosen.list
    rw [Option.mem_def.mp old, Option.mem_def.mp later, Option.bind_some, Option.bind_some] at same
    have versions_eq := alike values rfl item old newItem later
    simp only [ValueAdapted, Option.mem_def.mp old, Option.mem_def.mp later] at right
    obtain ⟨results, rfl, related⟩ := right
    cases first : firstModels item newItem with
    | none =>
      refine ⟨fun element mem level inside => ?_, nofun⟩
      obtain ⟨rfl, pair⟩ := mem_dictLevels.mp inside
      cases ((versions_eq level.items mem).trans first).symm.trans pair
    | some models =>
      simp only [adaptNestedValue, same, first] at run
      obtain ⟨others, call, eq⟩ := Fallible.map_eq_ok.mp run
      cases eq
      have elements := adaptElements_related
        (fun items mem => (versions_eq items mem).trans first) call related
      refine ⟨fun element mem level inside => ?_, fun _ element mem => ?_⟩
      · obtain ⟨items, rfl, returns⟩ := elements element mem
        obtain ⟨eq, pair⟩ := mem_dictLevels.mp inside
        cases eq
        cases ((versions_eq level.items mem).trans first).symm.trans pair
        exact returns
      · exact (elements element mem).imp fun _ => And.left
  | _ => exact ⟨by simp [nestedLevels, dictLevels], nofun⟩

theorem adaptNestedValue_isMissing
    (run : adaptNestedValue recurse current new value = .ok adapted)
    (present : value.isMissing = false) : adapted.isMissing = false := by
  cases value with
  | dict items =>
    cases chosen : nestedModels items current new with simp only [adaptNestedValue, chosen] at run
    | none =>
      cases run
      rfl
    | some pair =>
      obtain ⟨other, -, rfl⟩ := Fallible.map_eq_ok.mp run
      rfl
  | list values =>
    cases chosen : listModels current new with simp only [adaptNestedValue, chosen] at run
    | none =>
      cases run
      rfl
    | some pair =>
      obtain ⟨others, -, rfl⟩ := Fallible.map_eq_ok.mp run
      rfl
  | missing => cases present
  | _ =>
    cases run
    rfl

end Nested

section Depth

mutual

def Value.depth : Value → Nat
  | .dict items => objectDepth items + 1
  | .list values => listDepth values
  | _ => 0

def objectDepth : List (String × Value) → Nat
  | [] => 0
  | (_, value) :: rest => max value.depth (objectDepth rest)

def listDepth : List Value → Nat
  | [] => 0
  | value :: rest => max value.depth (listDepth rest)

end

variable {value : Value}

theorem depth_le_objectDepth {key : String} {items : Object}
    (mem : (key, value) ∈ items) : value.depth ≤ objectDepth items := by
  induction items with
  | nil => cases mem
  | cons entry rest ih =>
    rw [objectDepth]
    rcases mem_cons.mp mem with rfl | mem
    · exact Nat.le_max_left _ _
    · exact Nat.le_trans (ih mem) (Nat.le_max_right _ _)

theorem depth_le_listDepth {values : List Value} (mem : value ∈ values) :
    value.depth ≤ listDepth values := by
  induction values with
  | nil => cases mem
  | cons first rest ih =>
    rw [listDepth]
    rcases mem_cons.mp mem with rfl | mem
    · exact Nat.le_max_left _ _
    · exact Nat.le_trans (ih mem) (Nat.le_max_right _ _)

theorem nestedLevels_depth {current new : FieldType} {level : Level}
    (inside : level ∈ nestedLevels current new value) :
    objectDepth level.items < value.depth := by
  have here : ∀ {current new value}, level ∈ dictLevels current new value →
      objectDepth level.items < value.depth := by
    intro current new value inside
    rw [(mem_dictLevels.mp inside).1, Value.depth]
    exact Nat.lt_succ_self _
  obtain inside | ⟨values, item, newItem, rfl, -, -, element, mem, inside⟩ :=
    nestedLevels_cases inside
  · exact here inside
  · exact Nat.lt_of_lt_of_le (here inside) (depth_le_listDepth mem)

end Depth

end TruenasMiddleware.Api
