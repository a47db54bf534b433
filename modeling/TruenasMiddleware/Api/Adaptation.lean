import TruenasMiddleware.Api.AdaptKeys

/-! When `_adapt_value` does what it should: the passes behind the loop, then one call
of the function and, by induction on the nesting, all calls that it leads to. -/

namespace TruenasMiddleware.Api

open List Option Dict

section Passes

variable {new current : Model} {progress : Progress}

theorem missingEntry_eq_some {field : Field} {k : String} {value : Value} :
    missingEntry progress field = some (k, value) ↔
      field.name ∉ progress.presentFields ∧ field.default = some value ∧ field.key = k := by
  unfold missingEntry
  by_cases absent : field.name ∉ progress.presentFields
  · simp [absent, and_comm]
  · simp [absent]

theorem lookup_addDefaults_kept {k : String}
    (nothing : ∀ h ∈ new.fields, h.key = k → h.name ∈ progress.presentFields) :
    (addDefaults new progress).lookup k = progress.value.lookup k := by
  unfold addDefaults
  by_cases update : new.forUpdate = true
  · rw [if_pos update]
  · rw [if_neg update, lookup_writes_of_none]
    intro h mem value written
    obtain ⟨absent, -, eq⟩ := missingEntry_eq_some.mp written
    exact absent (nothing h mem eq)

theorem lookup_addDefaults_missing {h : Field} (inside : h ∈ new.fields)
    (own : ∀ g ∈ new.fields, g.key = h.key → g = h) (absent : h.name ∉ progress.presentFields)
    (free : progress.value.lookup h.key = none) :
    (addDefaults new progress).lookup h.key = if new.forUpdate then none else h.default := by
  unfold addDefaults
  by_cases update : new.forUpdate = true
  · rw [if_pos update, if_pos update, free]
  · rw [if_neg update, if_neg update]
    have written : ∀ g ∈ new.fields, ∀ value, missingEntry progress g = some (h.key, value) →
        h.default = some value := by
      intro g mem value written
      obtain ⟨-, default, eq⟩ := missingEntry_eq_some.mp written
      rwa [own g mem eq] at default
    cases default : h.default with
    | none =>
      rw [lookup_writes_of_none, free]
      intro g mem value entry
      rw [written g mem value entry] at default
      cases default
    | some value =>
      have entry := missingEntry_eq_some.mpr ⟨absent, default, rfl⟩
      rw [lookup_writes_of_some ⟨h, inside, entry⟩]
      intro g mem other entry
      exact Option.some.inj ((written g mem other entry).symm.trans default)

theorem nodup_addDefaults (nodup : (Dict.keys progress.value).Nodup) :
    (Dict.keys (addDefaults new progress)).Nodup := by
  unfold addDefaults
  by_cases update : new.forUpdate = true
  · rw [if_pos update]
    exact nodup
  · rw [if_neg update]
    exact nodup_writes nodup

theorem lookup_dropOld {value : Object} (nodup : (Dict.keys value).Nodup) (k : String) :
    (dropOld current new value).lookup k = if k ∈ current.names ∧ k ∉ new.names then none
      else (value.lookup k).filter fun v => !v.isMissing := by
  rw [dropOld, lookup_filter nodup]
  by_cases old : k ∈ current.names ∧ k ∉ new.names
  · simp [old]
  · simp [old]

end Passes

section Step

variable {level : Level} {recurse : Adapter}
  {progress : Progress} {value : Value} {name k : String} {f h : Field}

theorem given_eq_some (distinct : level.Distinct) :
    given level.current level.items name = some (f, value) ↔
      f ∈ level.current.fields ∧ f.name = name ∧ level.items.lookup f.key = some value := by
  rw [given, bind_eq_some_iff, ← and_assoc, ← field?_eq_some distinct.currentNames]
  constructor
  · rintro ⟨field, found, read⟩
    obtain ⟨other, stored, eq⟩ := map_eq_some_iff.mp read
    cases eq
    exact ⟨found, stored⟩
  · rintro ⟨found, stored⟩
    exact ⟨f, found, by rw [stored]; rfl⟩

theorem Level.Gives.lookup (gives : level.Gives f) :
    ∃ value, level.items.lookup f.key = some value :=
  exists_lookup.mpr gives.2

theorem gives_of_lookup (mem : f ∈ level.current.fields)
    (found : level.items.lookup f.key = some value) : level.Gives f :=
  ⟨mem, exists_lookup.mp ⟨_, found⟩⟩

theorem given_isSome (distinct : level.Distinct) :
    (given level.current level.items name).isSome = true ↔ ∃ f, level.Gives f ∧ f.name = name := by
  rw [isSome_iff_exists]
  constructor
  · rintro ⟨⟨f, value⟩, found⟩
    obtain ⟨mem, eq, stored⟩ := (given_eq_some distinct).mp found
    exact ⟨f, gives_of_lookup mem stored, eq⟩
  · rintro ⟨f, gives, eq⟩
    obtain ⟨value, found⟩ := gives.lookup
    exact ⟨(f, value), (given_eq_some distinct).mpr ⟨gives.1, eq, found⟩⟩

def finish (level : Level) (progress : Progress) : Object :=
  dropOld level.current level.new (addDefaults level.new progress)

variable (keyed : level.Keyed) (mid : Midway level recurse [] progress)
include keyed mid

theorem lookup_finish_drops (drops : level.Drops k) : (finish level progress).lookup k = none :=
  (lookup_dropOld (nodup_addDefaults (mid.keys ▸ keyed.nodup)) k).trans (if_pos drops)

theorem lookup_finish (stays : ¬ level.Drops k) : (finish level progress).lookup k =
      ((addDefaults level.new progress).lookup k).filter fun v => !v.isMissing :=
  (lookup_dropOld (nodup_addDefaults (mid.keys ▸ keyed.nodup)) k).trans (if_neg stays)

theorem finish_routed (distinct : level.Distinct) (routes : level.Routes f h)
    (stays : ¬ level.Drops f.key) (found : level.items.lookup f.key = some value)
    (present : value.isMissing = false) :
    ∃ adapted, adaptNestedValue recurse f.fieldType h.fieldType value = .ok adapted ∧
      (finish level progress).lookup f.key = some adapted := by
  obtain ⟨named, adapted, run, stored⟩ := mid.routed f h routes not_mem_nil value found
  refine ⟨adapted, run, ?_⟩
  rw [lookup_finish keyed mid stays, lookup_addDefaults_kept, stored, filter_some,
    adaptNestedValue_isMissing run present]
  · rfl
  · intro g there eq
    obtain ⟨-, mem, key | ⟨-, none⟩⟩ := routes
    · rw [distinct.field_eq_new there mem (eq.trans key.symm)]
      exact named
    · exact absurd eq (none g there)

theorem finish_gone (gone : level.Gone f) (stays : ¬ level.Drops f.key)
    (found : level.items.lookup f.key = some value) (present : value.isMissing = false) :
    (finish level progress).lookup f.key = some value := by
  rw [lookup_finish keyed mid stays, lookup_addDefaults_kept, mid.gone f gone, found,
    filter_some, present]
  · rfl
  · exact fun h mem eq => absurd eq (gone.2.1 h mem)

theorem finish_missing (distinct : level.Distinct)
    (straight : ∀ f h, level.Gives f → level.Routes f h → h.name = f.name)
    (inside : h ∈ level.new.fields)
    (missing : given level.current level.items h.name = none)
    (stays : (defaultFor level.new h).isSome = true → ¬ level.Drops h.key) :
    (finish level progress).lookup h.key = defaultFor level.new h := by
  have outside : ∀ f, level.Gives f → f.name ≠ h.name := by
    intro f gives eq
    have some := (given_isSome distinct).mpr ⟨f, gives, eq⟩
    rw [missing] at some
    cases some
  have absent : h.name ∉ progress.presentFields := by
    intro named
    obtain ⟨f, g, routes, name, there⟩ := mid.present h.name named
    exact outside f ⟨routes.1, there⟩ ((straight f g ⟨routes.1, there⟩ routes).symm.trans name)
  have free : progress.value.lookup h.key = none := by
    rw [lookup_eq_none, mid.keys]
    intro there
    obtain ⟨f, mem, eq⟩ := keyed.declared h.key there
    have gives : level.Gives f := ⟨mem, eq ▸ there⟩
    exact outside f gives (straight f h gives ⟨mem, inside, .inl eq.symm⟩).symm
  by_cases drops : level.Drops h.key
  · rw [lookup_finish_drops keyed mid drops]
    cases default : defaultFor level.new h with
    | none => rfl
    | some value => exact absurd drops (stays (by rw [default]; rfl))
  · rw [lookup_finish keyed mid drops, lookup_addDefaults_missing inside
      (fun g mem eq => distinct.field_eq_new mem inside eq) absent free, defaultFor]
    by_cases update : level.new.forUpdate = true
    · rw [if_pos update, if_pos update]
      rfl
    · rw [if_neg update, if_neg update]

theorem finish_only (found : (finish level progress).lookup k = some value)
    (strange : ∀ h ∈ level.new.fields, h.key ≠ k) :
    ∃ f, level.Gives f ∧ f.key = k ∧ ¬ level.Drops k := by
  by_cases drops : level.Drops k
  · rw [lookup_finish_drops keyed mid drops] at found
    cases found
  · rw [lookup_finish keyed mid drops, lookup_addDefaults_kept fun h inside eq =>
      absurd eq (strange h inside)] at found
    have there : k ∈ keys level.items := by
      rw [← mid.keys]
      by_contra absent
      rw [lookup_eq_none.mpr absent] at found
      cases found
    obtain ⟨f, mem, eq⟩ := keyed.declared k there
    exact ⟨f, ⟨mem, eq ▸ there⟩, eq, drops⟩

end Step

section Call

variable {level inner : Level} {rebuild : Rebuild} {direction : Direction} {n : Nat}

theorem adaptValue_succ (level : Level) (rebuild : Rebuild) (direction : Direction) (n : Nat) :
    adaptValue rebuild direction (n + 1) level.current level.new level.items =
      (adaptKeys (adaptValue rebuild direction n) rebuild level.current level.new
        (Dict.keys level.items).length (Dict.keys level.items) ⟨level.items, []⟩).map
        (finish level) := by
  rw [adaptValue, Dict.keys, length_map]
  cases adaptKeys (adaptValue rebuild direction n) rebuild level.current level.new
      level.items.length (level.items.map Prod.fst) ⟨level.items, []⟩ with
  | error e => rfl
  | ok progress => cases direction <;> rfl

structure Level.Valid (level : Level) : Prop extends level.Keyed where
  accepts : ∀ field ∈ level.current.fields, ∀ value, level.items.lookup field.key = some value →
    field.fieldType.accepts value = true

theorem Level.valid_of_validates (valid : level.current.validates level.items = true) :
    level.Valid := by
  obtain ⟨nodup, declared, fields⟩ := validates_iff.mp valid
  exact ⟨⟨nodup, declared⟩, fun field mem => (fields field mem).1⟩

structure Level.Regular (level : Level) : Prop extends level.Distinct where
  supported : ∀ field ∈ level.current.fields, field.fieldType.supported = true
  newSupported : ∀ field ∈ level.new.fields, field.fieldType.supported = true

variable {f h : Field} {value : Value}

theorem Level.Valid.isMissing (valid : level.Valid) (regular : level.Regular)
    (mem : f ∈ level.current.fields)
    (found : level.items.lookup f.key = some value) : value.isMissing = false :=
  isMissing_of_accepts (valid.accepts f mem value found) (regular.supported f mem)

theorem Level.Valid.chosen (valid : level.Valid) (regular : level.Regular)
    (mem : f ∈ level.current.fields) (other : h ∈ level.new.fields)
    (found : level.items.lookup f.key = some value) : Chosen f.fieldType h.fieldType value :=
  chosen_of_accepts (regular.supported f mem) (regular.newSupported h other)
    (valid.accepts f mem value found)

theorem mem_nested (distinct : level.Distinct) :
    inner ∈ level.nested ↔ ∃ f h value, f ∈ level.current.fields ∧ h ∈ level.new.fields ∧
      f.name = h.name ∧ level.items.lookup f.key = some value ∧
        inner ∈ nestedLevels f.fieldType h.fieldType value := by
  rw [Level.nested, mem_flatMap]
  constructor
  · rintro ⟨h, mem, inside⟩
    cases found : given level.current level.items h.name with
    | none => simp [found] at inside
    | some pair =>
      obtain ⟨old, name, stored⟩ := (given_eq_some distinct).mp found
      rw [found] at inside
      exact ⟨pair.1, h, pair.2, old, mem, name, stored, inside⟩
  · rintro ⟨f, h, value, old, mem, name, stored, inside⟩
    refine ⟨h, mem, ?_⟩
    rw [(given_eq_some distinct).mpr ⟨old, name, stored⟩]
    exact inside

theorem Level.Adaptable.straight (adaptable : level.Adaptable)
    (gives : level.Gives f) (routes : level.Routes f h) : h.name = f.name ∧ h.key = f.key := by
  obtain ⟨inside, mem, key | ⟨name, none⟩⟩ := routes
  · exact ⟨adaptable.reused f gives h mem key, key⟩
  · exfalso
    by_cases shared : f.name ∈ level.new.names
    · obtain ⟨g, there, eq⟩ := mem_map.mp shared
      exact none g there (adaptable.kept f gives g there eq)
    · exact (adaptable.removed f gives shared).2 (mem_map.mpr ⟨h, mem, name⟩)

section

variable (regular : level.Regular) (valid : level.Valid) (adaptable : level.Adaptable)
  (nested : ∀ inner ∈ level.nested, Returns (adaptValue rebuild direction n) (Adapted n) inner)
include regular valid adaptable nested

theorem adaptNestedValue_of_adaptable (routes : level.Routes f h)
    (found : level.items.lookup f.key = some value) :
    ∃ adapted, adaptNestedValue (adaptValue rebuild direction n) f.fieldType h.fieldType value =
        .ok adapted ∧ ValueAdapted (Adapted n) f.fieldType h.fieldType value adapted := by
  have eq := (adaptable.straight (gives_of_lookup routes.1 found) routes).1
  refine adaptNestedValue_returns (valid.chosen regular routes.1 routes.2.1 found) ?_ ?_
  · rintro values rfl
    exact adaptable.lists f routes.1 h routes.2.1 eq values found
  · exact fun inner there => nested inner ((mem_nested regular.toDistinct).mpr
      ⟨f, h, value, routes.1, routes.2.1, eq.symm, found, there⟩)

theorem adapted_of_adaptable {progress : Progress}
    (mid : Midway level (adaptValue rebuild direction n) [] progress) :
    ObjectAdapted (Adapted n) level.current level.new level.items (finish level progress) where
  only k value found := by
    by_contra strange
    have strange : ∀ h ∈ level.new.fields, h.key ≠ k := fun h inside eq =>
      strange ⟨h, inside, eq⟩
    obtain ⟨f, gives, rfl, kept⟩ := finish_only valid.toKeyed mid found strange
    refine kept (adaptable.removed f gives fun shared => ?_)
    obtain ⟨h, mem, name⟩ := mem_map.mp shared
    exact strange h mem (adaptable.kept f gives h mem name)
  shared h mem f value found := by
    have distinct := regular.toDistinct
    obtain ⟨inside, name, stored⟩ := (given_eq_some distinct).mp found
    have gives := gives_of_lookup inside stored
    have key := adaptable.kept f gives h mem name.symm
    have routes : level.Routes f h := ⟨inside, mem, .inl key⟩
    have kept : ¬ level.Drops f.key := key ▸ adaptable.dropped h mem
      (.inl ((given_isSome distinct).mpr ⟨f, gives, name⟩))
    obtain ⟨adapted, call, result⟩ := finish_routed valid.toKeyed mid distinct routes kept stored
      (valid.isMissing regular inside stored)
    obtain ⟨other, eq, right⟩ :=
      adaptNestedValue_of_adaptable regular valid adaptable nested routes stored
    cases call.symm.trans eq
    exact ⟨adapted, key ▸ result, right⟩
  added h mem missing := by
    constructor
    · by_contra required
      have some := adaptable.required h mem (by simpa using required)
      rw [missing] at some
      cases some
    · exact finish_missing valid.toKeyed mid regular.toDistinct
        (fun f h gives routes => (adaptable.straight gives routes).1) mem missing
        fun default => adaptable.dropped h mem (.inr default)

theorem returns_of_adaptable :
    Returns (adaptValue rebuild direction (n + 1)) (Adapted (n + 1)) level := by
  have distinct := regular.toDistinct
  have keyed := valid.toKeyed
  have stays : ∀ f h, level.Renames f h → f.key ∉ keys level.items := by
    intro f h renames there
    exact renames.2.1 (adaptable.straight ⟨renames.1.1, there⟩ renames.1).2.symm
  have calls : ∀ f h, level.Routes f h → ∀ value, level.items.lookup f.key = some value →
      ∃ adapted, adaptNestedValue (adaptValue rebuild direction n) f.fieldType h.fieldType value =
        .ok adapted := fun f h routes value found =>
    (adaptNestedValue_of_adaptable regular valid adaptable nested routes found).imp
      fun _ => And.left
  obtain ⟨final, run⟩ := adaptKeys_returns distinct keyed rebuild keyed.nodup (fun _ => id)
    (Nat.le_refl _) stays calls (Midway.start level (adaptValue rebuild direction n))
  have mid := adaptKeys_midway distinct keyed keyed.nodup (fun _ => id) stays
    (Midway.start level (adaptValue rebuild direction n)) run
  refine ⟨finish level final, ?_, adapted_of_adaptable regular valid adaptable nested mid⟩
  rw [adaptValue_succ, run]
  rfl

end

section Necessity

variable {progress : Progress} (regular : level.Regular) (valid : level.Valid)
  (mid : Midway level (adaptValue rebuild direction n) [] progress)
  (adapted : ObjectAdapted (Adapted n) level.current level.new level.items (finish level progress))
include regular valid mid adapted

theorem known_of_adapted (gives : level.Gives f) (kept : ¬ level.Drops f.key) :
    ∃ h ∈ level.new.fields, h.key = f.key := by
  obtain ⟨value, found⟩ := gives.lookup
  have present := valid.isMissing regular gives.1 found
  rcases Level.kinds gives.1 with ⟨h, routes⟩ | gone
  · obtain ⟨result, -, left⟩ :=
      finish_routed valid.toKeyed mid regular.toDistinct routes kept found present
    exact adapted.only f.key result left
  · exact adapted.only f.key value (finish_gone valid.toKeyed mid gone kept found present)

theorem kept_of_adapted (unmixed : level.Unmixed) (gives : level.Gives f)
    (mem : h ∈ level.new.fields) (name : h.name = f.name) : h.key = f.key := by
  by_contra key
  obtain ⟨g, there, eq⟩ := known_of_adapted regular valid mid adapted gives
    (unmixed.dropped f gives h mem name key)
  have equal := unmixed.reused f gives g there eq
  exact key (field_eq regular.newNames mem there (name.trans equal.symm) ▸ eq)

omit regular in
theorem not_drops_of_adapted (mem : h ∈ level.new.fields)
    (expected : (given level.current level.items h.name).isSome = true ∨
      (defaultFor level.new h).isSome = true) : ¬ level.Drops h.key := by
  intro drops
  have gone := lookup_finish_drops valid.toKeyed mid drops
  cases found : given level.current level.items h.name with
  | none =>
    rw [(adapted.added h mem found).2] at gone
    rw [found, gone] at expected
    rcases expected with impossible | impossible <;> cases impossible
  | some pair =>
    obtain ⟨result, left, -⟩ := adapted.shared h mem pair.1 pair.2 found
    rw [gone] at left
    cases left

theorem related_of_adapted (unmixed : level.Unmixed) (inside : f ∈ level.current.fields)
    (mem : h ∈ level.new.fields) (name : h.name = f.name)
    (found : level.items.lookup f.key = some value) :
    (∀ inner ∈ nestedLevels f.fieldType h.fieldType value,
        Returns (adaptValue rebuild direction n) (Adapted n) inner) ∧
      ∀ values, value = .list values → Elementwise f.fieldType h.fieldType values := by
  have distinct := regular.toDistinct
  have gives := gives_of_lookup inside found
  have key := kept_of_adapted regular valid mid adapted unmixed gives mem name
  have stays : ¬ level.Drops f.key := key ▸ not_drops_of_adapted valid mid adapted mem
    (.inl ((given_isSome distinct).mpr ⟨f, gives, name.symm⟩))
  obtain ⟨other, eq, related⟩ := adapted.shared h mem f value
    ((given_eq_some distinct).mpr ⟨inside, name.symm, found⟩)
  obtain ⟨result, run, stored⟩ := finish_routed valid.toKeyed mid distinct
    ⟨inside, mem, .inl key⟩ stays found (valid.isMissing regular inside found)
  rw [key] at eq
  cases stored.symm.trans eq
  refine adaptNestedValue_related (valid.chosen regular inside mem found) ?_ run related
  rintro values rfl
  exact unmixed.lists f inside h mem name values found

theorem adaptable_of_adapted (unmixed : level.Unmixed) : level.Adaptable where
  kept f gives h mem name := kept_of_adapted regular valid mid adapted unmixed gives mem name
  reused := unmixed.reused
  removed f gives removed := by
    by_contra stays
    obtain ⟨h, mem, key⟩ := known_of_adapted regular valid mid adapted gives stays
    exact removed (mem_map.mpr ⟨h, mem, unmixed.reused f gives h mem key⟩)
  dropped h mem expected := not_drops_of_adapted valid mid adapted mem expected
  required h mem required := by
    by_contra lacking
    rw [Bool.not_eq_true, isSome_eq_false_iff, isNone_iff_eq_none] at lacking
    rw [(adapted.added h mem lacking).1] at required
    cases required
  lists f inside h mem name values found :=
    ⟨unmixed.lists f inside h mem name values found,
      (related_of_adapted regular valid mid adapted unmixed inside mem name found).2 values rfl⟩

theorem nested_of_adapted (unmixed : level.Unmixed) (there : inner ∈ level.nested) :
    Returns (adaptValue rebuild direction n) (Adapted n) inner := by
  obtain ⟨f, h, value, inside, mem, name, found, nested⟩ :=
    (mem_nested regular.toDistinct).mp there
  exact (related_of_adapted regular valid mid adapted unmixed inside mem name.symm found).1 inner
    nested

omit mid adapted in
theorem adaptable_of_returns (unmixed : level.Unmixed)
    (right : ∀ rebuild, Returns (adaptValue rebuild direction (n + 1)) (Adapted (n + 1)) level) :
    level.Adaptable ∧ ∀ inner ∈ level.nested, ∀ rebuild,
      Returns (adaptValue rebuild direction n) (Adapted n) inner := by
  have distinct := regular.toDistinct
  have keyed := valid.toKeyed
  -- a dictionary with room for a new key shows that no key is renamed
  have stays : ∀ f h, level.Renames f h → f.key ∉ keys level.items := by
    obtain ⟨result, run, -⟩ := right .inPlace
    rw [adaptValue_succ] at run
    obtain ⟨final, loop, -⟩ := Fallible.map_eq_ok.mp run
    exact not_renames_of_adaptKeys distinct keyed keyed.nodup (fun _ => id)
      (Midway.start level (adaptValue .inPlace direction n)) loop
  have ran : ∀ rebuild, ∃ final, Midway level (adaptValue rebuild direction n) [] final ∧
      ObjectAdapted (Adapted n) level.current level.new level.items (finish level final) := by
    intro rebuild
    obtain ⟨result, run, adapted⟩ := right rebuild
    rw [adaptValue_succ] at run
    obtain ⟨final, loop, rfl⟩ := Fallible.map_eq_ok.mp run
    exact ⟨final, adaptKeys_midway distinct keyed keyed.nodup (fun _ => id) stays
      (Midway.start level (adaptValue rebuild direction n)) loop, adapted⟩
  have adaptable : level.Adaptable := by
    obtain ⟨final, mid, adapted⟩ := ran .inPlace
    exact adaptable_of_adapted regular valid mid adapted unmixed
  refine ⟨adaptable, fun inner there rebuild => ?_⟩
  obtain ⟨final, mid, adapted⟩ := ran rebuild
  exact nested_of_adapted regular valid mid adapted unmixed there

end Necessity

end Call

section Nesting

variable {level inner : Level}

theorem nested_valid (distinct : level.Distinct) (there : inner ∈ level.nested) :
    inner.current.validates inner.items = true ∧
      objectDepth inner.items < objectDepth level.items := by
  obtain ⟨f, h, value, mem, -, -, found, nested⟩ := (mem_nested distinct).mp there
  constructor
  · exact nestedLevels_valid nested
  · exact Nat.lt_of_lt_of_le (nestedLevels_depth nested)
      (depth_le_objectDepth (mem_of_lookup found))

variable {P : Level → Prop} {direction : Direction} {limit : Nat}

theorem forall_reaches (here : P level)
    (nested : ∀ inner ∈ level.nested, ∀ other, inner.Reaches other → P other) :
    ∀ other, level.Reaches other → P other := by
  intro other path
  rcases path.cases_head with rfl | ⟨inner, there, path⟩
  · exact here
  · exact nested inner there other path

theorem returns_of_reaches {rebuild : Rebuild}
    (valid : level.current.validates level.items = true)
    (regular : ∀ other, level.Reaches other → other.Regular)
    (adaptable : ∀ other, level.Reaches other → other.Adaptable)
    (enough : objectDepth level.items < limit) :
    Returns (adaptValue rebuild direction limit) (Adapted limit) level := by
  induction limit generalizing level with
  | zero => cases enough
  | succ limit ih =>
    have isValid := Level.valid_of_validates valid
    refine returns_of_adaptable (regular _ .refl) isValid (adaptable _ .refl) fun inner there => ?_
    obtain ⟨innerValid, deeper⟩ := nested_valid (regular _ .refl).toDistinct there
    exact ih innerValid (fun other path => regular other (.head there path))
      (fun other path => adaptable other (.head there path))
      (Nat.lt_of_lt_of_le deeper (Nat.le_of_lt_succ enough))

theorem reaches_of_returns (valid : level.current.validates level.items = true)
    (regular : ∀ other, level.Reaches other → other.Regular)
    (unmixed : ∀ other, level.Reaches other → other.Unmixed)
    (enough : objectDepth level.items < limit)
    (right : ∀ rebuild, Returns (adaptValue rebuild direction limit) (Adapted limit) level) :
    ∀ other, level.Reaches other → other.Adaptable := by
  induction limit generalizing level with
  | zero => cases enough
  | succ limit ih =>
    have isValid := Level.valid_of_validates valid
    obtain ⟨adaptable, nested⟩ :=
      adaptable_of_returns (regular _ .refl) isValid (unmixed _ .refl) right
    refine forall_reaches adaptable fun inner there => ?_
    obtain ⟨innerValid, deeper⟩ := nested_valid (regular _ .refl).toDistinct there
    exact ih innerValid (fun other path => regular other (.head there path))
      (fun other path => unmixed other (.head there path))
      (Nat.lt_of_lt_of_le deeper (Nat.le_of_lt_succ enough)) (nested inner there)

/-- `_adapt_value` gives the new model's fields under their new keys, however the
dictionaries are laid out, when every level of the value is adaptable, and only then
unless some key stands for two fields. -/
theorem adaptValue_adapted_iff (direction : Direction) (limit : Nat) (current new : Model)
    (items : Object) (valid : current.validates items = true)
    (regular : ∀ level, Level.Reaches ⟨current, new, items⟩ level → level.Regular)
    (enough : objectDepth items < limit) :
    ((∀ level, Level.Reaches ⟨current, new, items⟩ level → level.Adaptable) →
      ∀ rebuild, ∃ result, adaptValue rebuild direction limit current new items = .ok result ∧
        Adapted limit current new items result) ∧
    ((∀ level, Level.Reaches ⟨current, new, items⟩ level → level.Unmixed) →
      ((∀ rebuild, ∃ result, adaptValue rebuild direction limit current new items = .ok result ∧
        Adapted limit current new items result) ↔
      ∀ level, Level.Reaches ⟨current, new, items⟩ level → level.Adaptable)) := by
  have enoughFor : (∀ level, Level.Reaches ⟨current, new, items⟩ level → level.Adaptable) →
      ∀ rebuild, Returns (adaptValue rebuild direction limit) (Adapted limit)
        ⟨current, new, items⟩ :=
    fun adaptable _ => returns_of_reaches valid regular adaptable enough
  exact ⟨enoughFor, fun unmixed =>
    ⟨fun right => reaches_of_returns valid regular unmixed enough right, enoughFor⟩⟩

def contactV1 : Model where
  name := "Contact"
  fields := [{ name := "email", fieldType := .plain .str }]

def contactV2 : Model where
  name := "Contact"
  fields := [{ name := "email", fieldType := .plain .str },
    { name := "phone", fieldType := .plain .str, default := some (.str "") }]

def settingsV1 : Model where
  name := "Settings"
  fields := [{ name := "contacts", fieldType := .list (.union [.model contactV1, .plain .str]) },
    { name := "owner", aliasName := some "Owner",
      fieldType := .union [.model contactV1, .plain .none], default := some .none },
    { name := "theme", fieldType := .plain .str, default := some (.str "dark") }]

def settingsV2 : Model where
  name := "Settings"
  fields := [{ name := "contacts", fieldType := .list (.union [.model contactV2, .plain .str]) },
    { name := "owner", aliasName := some "Owner",
      fieldType := .union [.model contactV2, .plain .none], default := some .none },
    { name := "retries", fieldType := .plain .int, default := some (.int 3) }]

def contact : Object := [("email", .str "root@localhost")]

def settings : Object :=
  [("contacts", .list [.dict contact]), ("Owner", .dict contact), ("theme", .str "light")]

theorem forall_gives {P : Field → Prop}
    (all : ∀ f ∈ level.current.fields, f.key ∈ Dict.keys level.items → P f) :
    ∀ f, level.Gives f → P f :=
  fun f gives => all f gives.1 gives.2

theorem reaches_settings (here : P ⟨settingsV1, settingsV2, settings⟩)
    (nested : P ⟨contactV1, contactV2, contact⟩) :
    ∀ level, Level.Reaches ⟨settingsV1, settingsV2, settings⟩ level → P level := by
  have inner : Level.nested ⟨settingsV1, settingsV2, settings⟩ =
      [⟨contactV1, contactV2, contact⟩, ⟨contactV1, contactV2, contact⟩] := rfl
  have leaf : Level.nested ⟨contactV1, contactV2, contact⟩ = [] := rfl
  refine forall_reaches here fun level there => ?_
  rw [inner] at there
  obtain rfl : level = ⟨contactV1, contactV2, contact⟩ := by simpa using there
  exact forall_reaches nested fun other there => by rw [leaf] at there; cases there

theorem lists_settings (values : List Value) (field : Field) (inside : field ∈ settingsV1.fields)
    (other : Field) (mem : other ∈ settingsV2.fields) (name : other.name = field.name)
    (found : settings.lookup field.key = some (.list values)) :
    Alike field.fieldType other.fieldType values ∧
      Elementwise field.fieldType other.fieldType values := by
  simp only [settingsV1, mem_cons, not_mem_nil, or_false] at inside
  rcases inside with rfl | rfl | rfl
  · cases found
    simp only [settingsV2, mem_cons, not_mem_nil, or_false] at mem
    rcases mem with rfl | rfl | rfl
    · refine ⟨?_, ?_⟩
      · rintro _ ⟨⟩ _ ⟨⟩ items there
        cases mem_singleton.mp there
        rfl
      · rintro _ ⟨⟩ _ ⟨⟩ - element there
        exact ⟨contact, mem_singleton.mp there⟩
    · exact absurd name (by decide)
    · exact absurd name (by decide)
  · cases found
  · cases found

theorem adaptValue_adapted_settings : settingsV1.validates settings = true ∧ ∀ rebuild, ∃ result,
      adaptValue rebuild .upgrade 2 settingsV1 settingsV2 settings = .ok result ∧
        Adapted 2 settingsV1 settingsV2 settings result := by
  refine ⟨by decide, (adaptValue_adapted_iff .upgrade 2 settingsV1 settingsV2 settings (by decide)
    ?_ (by decide)).1 ?_⟩
  · apply reaches_settings
    all_goals exact ⟨⟨by decide, by decide, by decide, by decide⟩, by decide, by decide⟩
  · apply reaches_settings
    · exact ⟨forall_gives (by decide), forall_gives (by decide), forall_gives (by decide),
        by decide, by decide, fun field inside other mem name values =>
          lists_settings values field inside other mem name⟩
    · refine ⟨forall_gives (by decide), forall_gives (by decide), forall_gives (by decide),
        by decide, by decide, fun field inside other _ _ values found => ?_⟩
      cases mem_singleton.mp inside
      cases found

def oneField (aliasName : Option String) (default : Option Value) : Model where
  name := "Settings"
  fields := [⟨"foo", aliasName, .plain .int, default⟩]

/-- A field that gains an alias, a field that loses its alias, a removed field that has an
alias, and a list that has something else than its first model in it. -/
theorem adaptValue_not_adapted : ((oneField none none).validates [("foo", .int 1)] = true ∧
      adaptValue .inPlace .upgrade 1 (oneField none none) (oneField (some "Foo") none)
        [("foo", .int 1)] = .error .runtimeError) ∧
    ((oneField (some "Foo") none).validates [("Foo", .int 1)] = true ∧
      adaptValue .inPlace .upgrade 1 (oneField (some "Foo") none) (oneField none (some (.int 0)))
        [("Foo", .int 1)] = .ok [("Foo", .int 1), ("foo", .int 0)]) ∧
    ((oneField (some "Foo") none).validates [("Foo", .int 1)] = true ∧
      adaptValue .inPlace .upgrade 1 (oneField (some "Foo") none) ⟨"Settings", false, []⟩
        [("Foo", .int 1)] = .ok [("Foo", .int 1)]) ∧
    settingsV1.validates [("contacts", .list [.str "admin"])] = true ∧
      adaptValue .inPlace .upgrade 2 settingsV1 settingsV1 [("contacts", .list [.str "admin"])] =
        .error .attributeError :=
  ⟨⟨by decide, rfl⟩, ⟨by decide, rfl⟩, ⟨by decide, rfl⟩, by decide, rfl⟩

end Nesting

end TruenasMiddleware.Api
