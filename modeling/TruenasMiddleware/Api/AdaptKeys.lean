import TruenasMiddleware.Api.Adapted

/-! The loop of `_adapt_value` over the keys of a value. A key is of one of three kinds,
and one turn of the loop is described for each of them; then the loop as a whole. -/

namespace TruenasMiddleware.Api

open List Dict

section Fields

variable {model : Model} {f g : Field}

theorem field_eq (nodup : model.names.Nodup) (left : f ∈ model.fields)
    (right : g ∈ model.fields) (eq : f.name = g.name) : f = g :=
  inj_on_of_nodup_map nodup left right eq

variable {name k : String}

theorem field?_eq_some (nodup : model.names.Nodup) :
    model.field? name = some f ↔ f ∈ model.fields ∧ f.name = name := by
  constructor
  · intro found
    exact ⟨mem_of_find?_eq_some found, by simpa using List.find?_some found⟩
  · rintro ⟨inside, rfl⟩
    cases found : model.field? f.name with
    | none => simpa using List.find?_eq_none.mp found f inside
    | some g =>
      have mem := mem_of_find?_eq_some found
      have eq : g.name = f.name := by simpa using List.find?_some found
      rw [field_eq nodup mem inside eq]

theorem field?_eq_none : model.field? name = none ↔ name ∉ model.names := by
  simp [ModelOf.field?, ModelOf.names]

theorem aliasToField_eq (model : Model) : aliasToField model =
    model.fields.foldl (fun mapping field =>
      write (some (field.key, field.name)) mapping) [] := rfl

theorem lookup_aliasToField_none (other : ∀ field ∈ model.fields, field.key ≠ k) :
    (aliasToField model).lookup k = none := by
  rw [aliasToField_eq, lookup_writes_of_none]
  · rfl
  · intro field mem name written
    cases written
    exact other field mem rfl

theorem lookup_aliasToField_some (inside : f ∈ model.fields)
    (eq : ∀ field ∈ model.fields, field.key = f.key → field.name = f.name) :
    (aliasToField model).lookup f.key = some f.name := by
  rw [aliasToField_eq, lookup_writes_of_some ⟨f, inside, rfl⟩]
  intro field mem name written
  obtain ⟨key, rfl⟩ := Prod.mk.inj (Option.some.inj written)
  exact eq field mem key

end Fields

section Turn

variable {level : Level} {recurse : Adapter} {f : Field}
  {g h : Field} {progress : Progress} {value adapted : Value}

theorem Level.Distinct.field_eq_current (distinct : level.Distinct)
    (left : f ∈ level.current.fields) (right : g ∈ level.current.fields) (eq : f.key = g.key) :
    f = g :=
  inj_on_of_nodup_map distinct.currentKeys left right eq

theorem Level.Distinct.field_eq_new (distinct : level.Distinct)
    (left : f ∈ level.new.fields) (right : g ∈ level.new.fields) (eq : f.key = g.key) : f = g :=
  inj_on_of_nodup_map distinct.newKeys left right eq

/-- The field of the new model that the loop takes for a field of the current one: one
with the same key, or else one whose name is the key. -/
def Level.Routes (level : Level) (f h : Field) : Prop :=
  f ∈ level.current.fields ∧ h ∈ level.new.fields ∧
    (h.key = f.key ∨ h.name = f.key ∧ ∀ g ∈ level.new.fields, g.key ≠ f.key)

def Level.Gone (level : Level) (f : Field) : Prop :=
  f ∈ level.current.fields ∧ (∀ h ∈ level.new.fields, h.key ≠ f.key) ∧ f.key ∉ level.new.names

def Level.Renames (level : Level) (f h : Field) : Prop :=
  level.Routes f h ∧ f.key ≠ h.key ∧ h.key ∉ Dict.keys level.items

theorem Level.kinds (inside : f ∈ level.current.fields) :
    (∃ h, level.Routes f h) ∨ level.Gone f := by
  by_cases key : ∃ h ∈ level.new.fields, h.key = f.key
  · obtain ⟨h, mem, eq⟩ := key
    exact .inl ⟨h, inside, mem, .inl eq⟩
  · have other : ∀ h ∈ level.new.fields, h.key ≠ f.key := fun h mem eq =>
      key ⟨h, mem, eq⟩
    by_cases name : f.key ∈ level.new.names
    · obtain ⟨h, mem, eq⟩ := mem_map.mp name
      exact .inl ⟨h, inside, mem, .inr ⟨eq, other⟩⟩
    · exact .inr ⟨inside, other, name⟩

theorem Level.Routes.key_ne (routes : level.Routes f h) (gone : level.Gone g) :
    f.key ≠ g.key := by
  intro eq
  obtain ⟨-, mem, key | ⟨name, -⟩⟩ := routes
  · exact gone.2.1 h mem (key.trans eq)
  · exact gone.2.2 (mem_map.mpr ⟨h, mem, name.trans eq⟩)

variable (distinct : level.Distinct)
include distinct

theorem Level.Routes.unique (left : level.Routes f h) (right : level.Routes f g) : h = g := by
  obtain ⟨-, hInside, hRoute⟩ := left
  obtain ⟨-, gInside, gRoute⟩ := right
  rcases hRoute with hKey | ⟨hName, none⟩
  · rcases gRoute with gKey | ⟨-, none⟩
    · exact distinct.field_eq_new hInside gInside (hKey.trans gKey.symm)
    · exact absurd hKey (none h hInside)
  · rcases gRoute with gKey | ⟨gName, -⟩
    · exact absurd gKey (none g gInside)
    · exact field_eq distinct.newNames hInside gInside (hName.trans gName.symm)

theorem currentFieldName (inside : f ∈ level.current.fields) :
    ((aliasToField level.current).lookup f.key).getD f.key = f.name := by
  rw [lookup_aliasToField_some inside fun g mem eq =>
    congrArg FieldOf.name (distinct.field_eq_current mem inside eq)]
  rfl

theorem newFieldName (routes : level.Routes f h) :
    ((aliasToField level.new).lookup f.key).getD f.key = h.name := by
  obtain ⟨-, mem, key | ⟨name, none⟩⟩ := routes
  · rw [← key, lookup_aliasToField_some mem fun g other eq =>
      congrArg FieldOf.name (distinct.field_eq_new other mem eq)]
    rfl
  · rw [lookup_aliasToField_none none, name]
    rfl

theorem adaptKey_of_routes (routes : level.Routes f h)
    (found : progress.value.lookup f.key = some value) :
    adaptKey recurse level.current level.new progress f.key =
      (adaptNestedValue recurse f.fieldType h.fieldType value).map fun adapted =>
        let value := Dict.set f.key adapted progress.value
        let presentFields := h.name :: progress.presentFields
        if f.key ≠ h.key ∧ h.key ∉ Dict.keys value then
          (⟨Dict.set h.key adapted (Dict.pop f.key value), presentFields⟩, some h.key)
        else (⟨value, presentFields⟩, none) := by
  have current := (field?_eq_some distinct.currentNames).mpr ⟨routes.1, rfl⟩
  have new := (field?_eq_some distinct.newNames).mpr ⟨routes.2.1, rfl⟩
  unfold adaptKey
  dsimp only
  rw [currentFieldName distinct routes.1, newFieldName distinct routes, current, new, found]
  dsimp only
  cases adaptNestedValue recurse f.fieldType h.fieldType value with
  | error e => rfl
  | ok adapted => exact (apply_ite Except.ok _ _ _).symm

theorem adaptKey_routes (routes : level.Routes f h)
    (found : progress.value.lookup f.key = some value)
    (keys : Dict.keys progress.value = Dict.keys level.items) {after : Progress × Option String}
    (run : adaptKey recurse level.current level.new progress f.key = .ok after) :
    ∃ adapted, adaptNestedValue recurse f.fieldType h.fieldType value = .ok adapted ∧
      (level.Renames f h → after.2 = some h.key) ∧ (¬ level.Renames f h → after =
        (⟨Dict.set f.key adapted progress.value, h.name :: progress.presentFields⟩, none)) := by
  rw [adaptKey_of_routes distinct routes found] at run
  obtain ⟨adapted, nested, rfl⟩ := Fallible.map_eq_ok.mp run
  have there : f.key ∈ Dict.keys progress.value := exists_lookup.mp ⟨_, found⟩
  dsimp only
  rw [keys_set_of_mem adapted there, keys]
  refine ⟨adapted, nested, fun renames => ?_, fun stays => ?_⟩
  · rw [if_pos renames.2]
  · rw [if_neg fun renames => stays ⟨routes, renames⟩]

theorem adaptKey_gone (gone : level.Gone f) (progress : Progress) :
    adaptKey recurse level.current level.new progress f.key = .ok (progress, none) := by
  obtain ⟨mem, key, name⟩ := gone
  have newName : ((aliasToField level.new).lookup f.key).getD f.key = f.key := by
    rw [lookup_aliasToField_none key]
    rfl
  have current := (field?_eq_some distinct.currentNames).mpr ⟨mem, rfl⟩
  have new : level.new.field? f.key = none := field?_eq_none.mpr name
  unfold adaptKey
  dsimp only
  rw [currentFieldName distinct mem, newName, current, new]

end Turn

section Loop

variable {level : Level} {recurse : Adapter}

structure Level.Keyed (level : Level) : Prop where
  nodup : (Dict.keys level.items).Nodup
  declared : ∀ key ∈ Dict.keys level.items, ∃ field ∈ level.current.fields, field.key = key

/-- The state of the loop when the keys in `rest` are left and none was renamed. -/
structure Midway (level : Level) (recurse : Adapter) (rest : List String) (progress : Progress) :
    Prop where
  keys : Dict.keys progress.value = Dict.keys level.items
  waiting : ∀ k ∈ rest, progress.value.lookup k = level.items.lookup k
  routed : ∀ f h, level.Routes f h → f.key ∉ rest → ∀ value,
    level.items.lookup f.key = some value → h.name ∈ progress.presentFields ∧
      ∃ adapted, adaptNestedValue recurse f.fieldType h.fieldType value = .ok adapted ∧
        progress.value.lookup f.key = some adapted
  gone : ∀ f, level.Gone f → progress.value.lookup f.key = level.items.lookup f.key
  present : ∀ name ∈ progress.presentFields, ∃ f h, level.Routes f h ∧ h.name = name ∧
    f.key ∈ Dict.keys level.items

theorem Midway.start (level : Level) (recurse : Adapter) :
    Midway level recurse (Dict.keys level.items) ⟨level.items, []⟩ where
  keys := rfl
  waiting := fun _ _ => rfl
  routed := by
    intro f h _ outside value found
    rw [lookup_eq_none.mpr outside] at found
    cases found
  gone := fun _ _ => rfl
  present := fun _ mem => by cases mem

variable {rest : List String} {progress : Progress} {f h : Field} {n : Nat} {final : Progress}
  (distinct : level.Distinct)
include distinct

theorem Midway.routed_step (routes : level.Routes f h)
    {value adapted : Value} (mid : Midway level recurse (f.key :: rest) progress)
    (fresh : f.key ∉ rest) (found : level.items.lookup f.key = some value)
    (nested : adaptNestedValue recurse f.fieldType h.fieldType value = .ok adapted) :
    Midway level recurse rest
      ⟨Dict.set f.key adapted progress.value, h.name :: progress.presentFields⟩ := by
  have inside : f.key ∈ Dict.keys level.items := exists_lookup.mp ⟨_, found⟩
  refine ⟨?_, ?_, ?_, ?_, ?_⟩
  · rw [keys_set_of_mem adapted (mid.keys ▸ inside), mid.keys]
  · intro k later
    have other : k ≠ f.key := fun eq => fresh (eq ▸ later)
    rw [lookup_set, if_neg other]
    exact mid.waiting k (mem_cons_of_mem _ later)
  · intro f' h' others outside value' found'
    by_cases eq : f'.key = f.key
    · obtain rfl := distinct.field_eq_current others.1 routes.1 eq
      obtain rfl := others.unique distinct routes
      cases found.symm.trans found'
      refine ⟨mem_cons_self, adapted, nested, ?_⟩
      rw [lookup_set, if_pos rfl]
    · have before : f'.key ∉ f.key :: rest := by simp [eq, outside]
      obtain ⟨present, result, run, stored⟩ := mid.routed f' h' others before value' found'
      refine ⟨mem_cons_of_mem _ present, result, run, ?_⟩
      rw [lookup_set, if_neg eq]
      exact stored
  · intro g gone
    rw [lookup_set, if_neg (routes.key_ne gone).symm]
    exact mid.gone g gone
  · intro name mem
    rcases mem_cons.mp mem with rfl | old
    · exact ⟨f, h, routes, rfl, inside⟩
    · exact mid.present name old

omit distinct in
theorem Midway.gone_step (isGone : level.Gone f)
    (mid : Midway level recurse (f.key :: rest) progress) :
    Midway level recurse rest progress where
  keys := mid.keys
  waiting := fun k later => mid.waiting k (List.mem_cons_of_mem _ later)
  routed := by
    intro g h routes outside
    exact mid.routed g h routes (by simp [routes.key_ne isGone, outside])
  gone := mid.gone
  present := mid.present

theorem Midway.step (mem : f ∈ level.current.fields)
    (stays : ∀ h, ¬ level.Renames f h) (there : f.key ∈ Dict.keys level.items)
    (fresh : f.key ∉ rest) (mid : Midway level recurse (f.key :: rest) progress)
    {after : Progress × Option String}
    (run : adaptKey recurse level.current level.new progress f.key = .ok after) :
    after.2 = none ∧ Midway level recurse rest after.1 := by
  rcases Level.kinds mem with ⟨h, routes⟩ | gone
  · obtain ⟨value, found⟩ := exists_lookup.mpr there
    have held := (mid.waiting f.key mem_cons_self).trans found
    obtain ⟨adapted, nested, -, result⟩ := adaptKey_routes distinct routes held mid.keys run
    rw [result (stays h)]
    exact ⟨rfl, mid.routed_step distinct routes fresh found nested⟩
  · rw [adaptKey_gone distinct gone] at run
    cases run
    exact ⟨rfl, mid.gone_step gone⟩

theorem adaptKeys_midway (keyed : level.Keyed) {rebuild : Rebuild}
    (nodup : rest.Nodup) (part : ∀ k ∈ rest, k ∈ Dict.keys level.items)
    (stays : ∀ f h, level.Renames f h → f.key ∉ rest) (mid : Midway level recurse rest progress)
    (run : adaptKeys recurse rebuild level.current level.new n rest progress = .ok final) :
    Midway level recurse [] final := by
  induction rest generalizing n progress with
  | nil =>
    cases n <;> (cases run; exact mid)
  | cons k rest ih =>
    cases n with
    | zero => cases run
    | succ n =>
      obtain ⟨f, mem, rfl⟩ := keyed.declared k (part k mem_cons_self)
      rw [adaptKeys] at run
      cases turn : adaptKey recurse level.current level.new progress f.key with rw [turn] at run
      | error e => cases run
      | ok after =>
        rw [nodup_cons] at nodup
        obtain ⟨eq, next⟩ := mid.step distinct mem
          (fun h renames => stays f h renames mem_cons_self)
          (part f.key mem_cons_self) nodup.1 turn
        obtain ⟨after, renamed⟩ := after
        cases eq
        exact ih nodup.2 (fun k later => part k (mem_cons_of_mem _ later))
          (fun g h renames later => stays g h renames (mem_cons_of_mem _ later)) next run

theorem adaptKeys_returns (keyed : level.Keyed) (rebuild : Rebuild)
    (nodup : rest.Nodup) (part : ∀ k ∈ rest, k ∈ Dict.keys level.items)
    (enough : rest.length ≤ n) (stays : ∀ f h, level.Renames f h → f.key ∉ rest)
    (nested : ∀ f h, level.Routes f h → ∀ value, level.items.lookup f.key = some value →
      ∃ adapted, adaptNestedValue recurse f.fieldType h.fieldType value = .ok adapted)
    (mid : Midway level recurse rest progress) :
    ∃ final, adaptKeys recurse rebuild level.current level.new n rest progress = .ok final := by
  induction rest generalizing n progress with
  | nil => exact ⟨progress, by cases n <;> rfl⟩
  | cons k rest ih =>
    cases n with
    | zero => cases enough
    | succ n =>
      obtain ⟨f, mem, rfl⟩ := keyed.declared k (part k mem_cons_self)
      have there := part f.key mem_cons_self
      rw [nodup_cons] at nodup
      have returned : ∃ after,
          adaptKey recurse level.current level.new progress f.key = .ok after := by
        rcases Level.kinds mem with ⟨h, routes⟩ | gone
        · obtain ⟨value, found⟩ := exists_lookup.mpr there
          obtain ⟨adapted, call⟩ := nested f h routes value found
          rw [adaptKey_of_routes distinct routes ((mid.waiting f.key mem_cons_self).trans found),
            call]
          exact ⟨_, rfl⟩
        · exact ⟨_, adaptKey_gone distinct gone progress⟩
      obtain ⟨after, turn⟩ := returned
      obtain ⟨eq, next⟩ := mid.step distinct mem
        (fun h renames => stays f h renames mem_cons_self) there nodup.1 turn
      obtain ⟨after, renamed⟩ := after
      cases eq
      rw [adaptKeys, turn]
      exact ih nodup.2 (fun k later => part k (mem_cons_of_mem _ later))
        (Nat.le_of_succ_le_succ enough)
        (fun g h renames later => stays g h renames (mem_cons_of_mem _ later)) next

omit distinct in
theorem length_le_of_adaptKeys {current new : Model}
    (run : adaptKeys recurse .inPlace current new n rest progress = .ok final) :
    rest.length ≤ n := by
  induction n generalizing rest progress with
  | zero =>
    cases rest with
    | nil => exact Nat.le_refl 0
    | cons k rest => cases run
  | succ n ih =>
    cases rest with
    | nil => exact Nat.zero_le _
    | cons k rest =>
      rw [adaptKeys] at run
      cases turn : adaptKey recurse current new progress k with rw [turn] at run
      | error e => cases run
      | ok after =>
        obtain ⟨after, renamed⟩ := after
        cases renamed with
        | none => exact Nat.succ_le_succ (ih run)
        | some key =>
          have longer : (rest ++ [key]).length ≤ n := ih run
          rw [length_append] at longer
          exact Nat.succ_le_succ (Nat.le_of_succ_le longer)

theorem not_renames_of_adaptKeys (keyed : level.Keyed)
    (nodup : rest.Nodup) (part : ∀ k ∈ rest, k ∈ Dict.keys level.items)
    (mid : Midway level recurse rest progress)
    (run : adaptKeys recurse .inPlace level.current level.new rest.length rest progress =
      .ok final) :
    ∀ f h, level.Renames f h → f.key ∉ rest := by
  induction rest generalizing progress with
  | nil => exact fun _ _ _ inside => by cases inside
  | cons k rest ih =>
    obtain ⟨f, inside, rfl⟩ := keyed.declared k (part k mem_cons_self)
    have there := part f.key mem_cons_self
    rw [nodup_cons] at nodup
    rw [length_cons, adaptKeys] at run
    cases turn : adaptKey recurse level.current level.new progress f.key with rw [turn] at run
    | error e => cases run
    | ok after =>
      have stays : ∀ h, ¬ level.Renames f h := by
        intro h renames
        obtain ⟨value, found⟩ := exists_lookup.mpr there
        obtain ⟨-, -, renamed, -⟩ := adaptKey_routes distinct renames.1
          ((mid.waiting f.key mem_cons_self).trans found) mid.keys turn
        obtain ⟨after, key⟩ := after
        cases renamed renames
        have longer : (rest ++ [h.key]).length ≤ rest.length := length_le_of_adaptKeys run
        rw [length_append] at longer
        exact absurd longer (Nat.not_succ_le_self _)
      obtain ⟨eq, next⟩ := mid.step distinct inside stays there nodup.1 turn
      obtain ⟨after, renamed⟩ := after
      cases eq
      intro g h renames mem
      rcases mem_cons.mp mem with key | later
      · obtain rfl := distinct.field_eq_current renames.1.1 inside key
        exact stays h renames
      · exact ih nodup.2 (fun k later => part k (mem_cons_of_mem _ later)) next run g h
          renames later

end Loop

end TruenasMiddleware.Api
