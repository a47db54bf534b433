import TruenasMiddleware.Foundation.Reconcile

/-! Layers of a reconciliation that keep the objects of a configuration: the key of an object, what
is called to add it, and what is called when an item is under its key. -/

namespace Reconcile

open List

variable {α ι δ κ : Type*} [DecidableEq κ]

structure Kind (α ι δ κ : Type*) where
  owns : ι → Bool
  listing : ι → Listing κ
  key : α → Option κ
  add : α → List (Call ι δ)
  update : α → ι → List (Call ι δ)
  delete : ι → List (Call ι δ)
  keeps : κ → Bool

def Kind.layer (kind : Kind α ι δ κ) (objects : List α) : Keyed ι δ κ where
  owns := kind.owns
  key := kind.listing
  entries := objects.filterMap fun object =>
    (kind.key object).map fun key => (key, ⟨kind.add object, kind.update object⟩)
  delete := kind.delete
  keeps := kind.keeps

def Kind.want (kind : Kind α ι δ κ) (objects : List α) (ask : α → Option ι) (key : κ) : Option ι :=
  (objects.find? fun object => kind.key object = some key).bind ask

variable {rules : Rules ι δ} {items : List ι} {kind : Kind α ι δ κ} {objects : List α}
  {ask : α → Option ι}

omit [DecidableEq κ] in
theorem mem_entries {key : κ} {entry : Entry ι δ} : (key, entry) ∈ (kind.layer objects).entries ↔
      ∃ object ∈ objects, kind.key object = some key ∧
        entry = ⟨kind.add object, kind.update object⟩ := by
  simp only [Kind.layer, mem_filterMap, Option.map_eq_some_iff, Prod.mk.injEq]
  constructor
  · rintro ⟨object, mem, _, ofKey, rfl, rfl⟩
    exact ⟨object, mem, ofKey, rfl⟩
  · rintro ⟨object, mem, ofKey, rfl⟩
    exact ⟨object, mem, key, ofKey, rfl, rfl⟩

omit [DecidableEq κ] in
theorem keys_entries : (kind.layer objects).entries.map Prod.fst = objects.filterMap kind.key := by
  rw [Kind.layer, map_filterMap]
  refine congrArg (filterMap · objects) (funext fun object => ?_)
  cases kind.key object <;> rfl

theorem want_of_mem (distinct : (objects.filterMap kind.key).Nodup) {object : α} {key : κ}
    (mem : object ∈ objects) (ofKey : kind.key object = some key) :
    kind.want objects ask key = ask object := by
  induction objects with
  | nil => cases mem
  | cons first rest ih =>
    rw [Kind.want]
    by_cases here : kind.key first = some key
    · rw [List.find?_cons_of_pos (by simpa using here), Option.bind_some]
      rcases mem_cons.mp mem with rfl | later
      · rfl
      · rw [filterMap_cons_some here, nodup_cons] at distinct
        exact absurd (mem_filterMap.mpr ⟨object, later, ofKey⟩) distinct.1
    · rw [List.find?_cons_of_neg (by simpa using here)]
      rcases mem_cons.mp mem with rfl | later
      · exact absurd ofKey here
      · exact ih (distinct.sublist ((sublist_cons_self first rest).filterMap _)) later

theorem wants_iff (distinct : (objects.filterMap kind.key).Nodup) {item : ι} :
    Wants (kind.layer objects) (kind.want objects ask) item ↔
      ∃ object ∈ objects, (kind.key object).isSome = true ∧ ask object = some item := by
  rw [Wants, keys_entries]
  constructor
  · rintro ⟨key, inKeys, asked⟩
    obtain ⟨object, mem, ofKey⟩ := mem_filterMap.mp inKeys
    rw [want_of_mem distinct mem ofKey] at asked
    exact ⟨object, mem, by rw [ofKey]; rfl, asked⟩
  · rintro ⟨object, mem, hasKey, asked⟩
    obtain ⟨key, ofKey⟩ := Option.isSome_iff_exists.mp hasKey
    refine ⟨key, mem_filterMap.mpr ⟨object, mem, ofKey⟩, ?_⟩
    rw [want_of_mem distinct mem ofKey, asked]

/-- Keys go with identities: they tell the objects and the items apart, and the item under the key
of an object is the one with the identity of what the object asks for. -/
structure Kind.Told (rules : Rules ι δ) (kind : Kind α ι δ κ) (objects : List α)
    (ask : α → Option ι) (items : List ι) : Prop where
  distinct : (objects.filterMap kind.key).Nodup
  listed : ∀ item ∈ items, kind.owns item = true →
    kind.listing item ≠ .raises ∧ kind.listing item ≠ .hidden
  apart : ∀ item ∈ items, kind.owns item = true → ∀ other ∈ items, kind.owns other = true →
    kind.listing item = kind.listing other → item = other
  wanted : ∀ object ∈ objects, ∀ key ∈ kind.key object, ∀ new ∈ ask object,
    kind.owns new = true ∧ kind.listing new = .listed key
  ident : ∀ object ∈ objects, ∀ key ∈ kind.key object, ∀ new ∈ ask object,
    ∀ item ∈ items, kind.owns item = true →
      (kind.listing item = .listed key ↔ rules.ident item = rules.ident new)
  idents : ∀ object ∈ objects, ∀ key ∈ kind.key object, ∀ new ∈ ask object,
    ∀ other ∈ objects, ∀ key' ∈ kind.key other, ∀ new' ∈ ask other,
      rules.ident new = rules.ident new' → key = key'

instance [DecidableEq ι] [DecidableEq δ] : Decidable (kind.Told rules objects ask items) :=
  decidable_of_iff
    ((objects.filterMap kind.key).Nodup ∧ (∀ item ∈ items, kind.owns item = true →
        kind.listing item ≠ .raises ∧ kind.listing item ≠ .hidden) ∧
      (∀ item ∈ items, kind.owns item = true → ∀ other ∈ items, kind.owns other = true →
        kind.listing item = kind.listing other → item = other) ∧
      (∀ object ∈ objects, ∀ key ∈ kind.key object, ∀ new ∈ ask object,
        kind.owns new = true ∧ kind.listing new = .listed key) ∧
      (∀ object ∈ objects, ∀ key ∈ kind.key object, ∀ new ∈ ask object,
        ∀ item ∈ items, kind.owns item = true →
          (kind.listing item = .listed key ↔ rules.ident item = rules.ident new)) ∧
      ∀ object ∈ objects, ∀ key ∈ kind.key object, ∀ new ∈ ask object,
        ∀ other ∈ objects, ∀ key' ∈ kind.key other, ∀ new' ∈ ask other,
          rules.ident new = rules.ident new' → key = key')
    ⟨fun ⟨distinct, listed, apart, wanted, ident, idents⟩ =>
        ⟨distinct, listed, apart, wanted, ident, idents⟩,
      fun ⟨distinct, listed, apart, wanted, ident, idents⟩ =>
        ⟨distinct, listed, apart, wanted, ident, idents⟩⟩

structure Kind.Leads (rules : Rules ι δ) (kind : Kind α ι δ κ) (objects : List α)
    (ask : α → Option ι) (items : List ι) : Prop where
  add : ∀ object ∈ objects, ∀ key ∈ kind.key object,
    (∀ item ∈ items, kind.owns item = true → kind.listing item ≠ .listed key) →
      kind.add object = (ask object).toList.map .add
  update : ∀ object ∈ objects, ∀ key ∈ kind.key object,
    ∀ item ∈ items, kind.owns item = true → kind.listing item = .listed key →
      ∃ new, ask object = some new ∧ Swap rules item new (kind.update object item)
  delete : ∀ item, kind.owns item = true → kind.delete item = [.remove (rules.ident item)]

theorem Kind.Told.fits (told : kind.Told rules objects ask items)
    (leads : kind.Leads rules objects ask items) :
    Fits rules (kind.layer objects) (kind.want objects ask) items where
  listed item mem owned := by
    obtain ⟨silent, shown⟩ := told.listed item mem owned
    cases ofItem : kind.listing item with
    | raises => exact absurd ofItem silent
    | hidden => exact absurd ofItem shown
    | listed key => exact ⟨key, ofItem⟩
  apart item mem other mem' owned owned' :=
    told.apart item mem owned other mem' owned'
  distinct := by
    rw [keys_entries]
    exact told.distinct
  wanted key entry mem item asked := by
    obtain ⟨object, inside, ofKey, rfl⟩ := mem_entries.mp mem
    rw [want_of_mem told.distinct inside ofKey] at asked
    exact told.wanted object inside key ofKey item asked
  add key entry mem absent := by
    obtain ⟨object, inside, ofKey, rfl⟩ := mem_entries.mp mem
    rw [want_of_mem told.distinct inside ofKey]
    exact leads.add object inside key ofKey absent
  update key entry mem item present owned listed := by
    obtain ⟨object, inside, ofKey, rfl⟩ := mem_entries.mp mem
    rw [want_of_mem told.distinct inside ofKey]
    exact leads.update object inside key ofKey item present owned listed
  delete := leads.delete
  free key entry mem new asked item present owned same := by
    obtain ⟨object, inside, ofKey, rfl⟩ := mem_entries.mp mem
    rw [want_of_mem told.distinct inside ofKey] at asked
    exact (told.ident object inside key ofKey new asked item present owned).mpr same
  idents key entry mem other entry' mem' item item' asked asked' same := by
    obtain ⟨object, inside, ofKey, rfl⟩ := mem_entries.mp mem
    obtain ⟨object', inside', ofKey', rfl⟩ := mem_entries.mp mem'
    rw [want_of_mem told.distinct inside ofKey] at asked
    rw [want_of_mem told.distinct inside' ofKey'] at asked'
    exact told.idents object inside key ofKey item asked object' inside' other ofKey' item' asked'
      same

/-! ### Tables -/

/-- The objects of a kind, with the item that each of them asks for. -/
structure Table (ι δ κ : Type*) where
  Object : Type
  kind : Kind Object ι δ κ
  objects : List Object
  ask : Object → Option ι

namespace Table

variable {table : Table ι δ κ} {item new : ι}

def layer (table : Table ι δ κ) : Keyed ι δ κ := table.kind.layer table.objects

def want (table : Table ι δ κ) : κ → Option ι := table.kind.want table.objects table.ask

def Asks (table : Table ι δ κ) (item : ι) : Prop :=
  ∃ object ∈ table.objects, (table.kind.key object).isSome = true ∧ table.ask object = some item

def Told (rules : Rules ι δ) (items : List ι) (table : Table ι δ κ) : Prop :=
  table.kind.Told rules table.objects table.ask items

instance [DecidableEq ι] [DecidableEq δ] : Decidable (table.Told rules items) :=
  inferInstanceAs (Decidable (table.kind.Told rules table.objects table.ask items))

structure Leads (rules : Rules ι δ) (items : List ι) (table : Table ι δ κ) : Prop where
  leads : table.kind.Leads rules table.objects table.ask items
  steady : ∀ object ∈ table.objects, ∀ item, table.ask object = some item →
    table.kind.update object item = []

variable (told : table.Told rules items)
include told

theorem Told.wants_iff :
    Wants table.layer table.want item ↔ table.Asks item :=
  Reconcile.wants_iff told.distinct

omit [DecidableEq κ] in
theorem Told.owns_of_asks (asks : table.Asks item) :
    table.kind.owns item = true := by
  obtain ⟨object, mem, hasKey, asked⟩ := asks
  obtain ⟨key, ofKey⟩ := Option.isSome_iff_exists.mp hasKey
  exact (told.wanted object mem key ofKey item asked).1

omit [DecidableEq κ] in
theorem Told.ident_ne_of_stale (present : item ∈ items)
    (owned : table.kind.owns item = true) (stale : Stale table.layer item)
    (asks : table.Asks new) : rules.ident item ≠ rules.ident new := by
  intro eq
  obtain ⟨object, mem, hasKey, asked⟩ := asks
  obtain ⟨key, ofKey⟩ := Option.isSome_iff_exists.mp hasKey
  have listed := (told.ident object mem key ofKey new asked item present owned).mpr eq
  obtain ⟨other, ofOther, outside, _⟩ := stale
  obtain rfl := Listing.listed.inj (listed.symm.trans ofOther)
  rw [layer, keys_entries] at outside
  exact outside (mem_filterMap.mpr ⟨object, mem, ofKey⟩)

omit told

def Leaves (table : Table ι δ κ) (items : List ι) (item : ι) : Prop :=
  table.kind.owns item = true ∧
    (table.Asks item ∨ item ∈ items ∧ Unasked table.layer item ∧ ¬ Stale table.layer item)

theorem Told.left_iff (told : table.Told rules items) :
    Left table.layer table.want items item ↔ table.Leaves items item := by
  rw [Left, told.wants_iff]
  rfl

end Table

structure Tables (rules : Rules ι δ) (level : ι → ℕ) (kept : ι → Prop)
    (tables : List (Table ι δ κ)) (items : List ι) : Prop where
  owns : ∀ n (inside : n < tables.length) item, tables[n].kind.owns item = true ↔ level item = n
  top : ∀ item, level item < tables.length
  told : ∀ table ∈ tables, table.Told rules items
  leads : ∀ table ∈ tables, table.Leads rules items
  spared : ∀ item, kept item → item ∈ items ∧
    ∀ table ∈ tables, table.kind.owns item = true → Unasked table.layer item
  ready : ∀ table ∈ tables, ∀ new, table.Asks new → ∀ present : List ι,
    (∀ item, (∃ other ∈ tables, other.Asks item) ∨ kept item →
      level item < level new → item ∈ present) → rules.ready present new = true
  bare : ∀ table ∈ tables, ∀ item ∈ items, table.kind.owns item = true →
    Stale table.layer item → ∀ other, (∃ table ∈ tables, table.Leaves items other) →
      rules.under (rules.ident item) other = false

section Tables

variable {level : ι → ℕ} {kept : ι → Prop} {tables : List (Table ι δ κ)}
  (sound : Tables rules level kept tables items)
include sound

variable {table other : Table ι δ κ}

theorem Tables.fits (mem : table ∈ tables) : Fits rules table.layer table.want items :=
  (sound.told table mem).fits (sound.leads table mem).leads

omit [DecidableEq κ] in
theorem Tables.eq_of_owns (mem : table ∈ tables) (mem' : other ∈ tables) {item : ι}
    (owned : table.kind.owns item = true) (owned' : other.kind.owns item = true) :
    table = other := by
  obtain ⟨n, inside, rfl⟩ := mem_iff_getElem.mp mem
  obtain ⟨m, inside', rfl⟩ := mem_iff_getElem.mp mem'
  have first := (sound.owns n inside item).mp owned
  have second := (sound.owns m inside' item).mp owned'
  obtain rfl : n = m := first.symm.trans second
  rfl

theorem Tables.settled_iff (item : ι) :
    Settled (tables.map fun table => (table.layer, table.want)) items item ↔
      ∃ table ∈ tables, table.Leaves items item := by
  simp only [Settled, mem_map, exists_exists_and_eq_and]
  exact exists_congr fun table => and_congr_right fun mem => (sound.told table mem).left_iff

theorem Tables.nested :
    Nested rules level (fun item => (∃ table ∈ tables, table.Asks item) ∨ kept item)
      (tables.map fun table => (table.layer, table.want)) 0 items where
  owns n inside item := by
    rw [length_map] at inside
    rw [getElem_map, Nat.zero_add]
    exact sound.owns n inside item
  fits := forall_mem_map.mpr fun _ mem => sound.fits mem
  lower item _ below := absurd below (Nat.not_lt_zero _)
  targets := by
    rw [forall_mem_map]
    rintro table mem item owned (⟨other, mem', asks⟩ | isKept)
    · have owned' := (sound.told other mem').owns_of_asks asks
      obtain rfl := sound.eq_of_owns mem mem' owned owned'
      exact .inl ((sound.told table mem).wants_iff.mpr asks)
    · obtain ⟨present, unasked⟩ := sound.spared item isKept
      exact .inr ⟨present, unasked table mem owned⟩
  ready := by
    rw [forall_mem_map]
    intro table mem new wants
    exact sound.ready table mem new ((sound.told table mem).wants_iff.mp wants)
  bare := by
    rw [forall_mem_map]
    intro table mem item present owned stale other settled
    exact sound.bare table mem item present owned stale other ((sound.settled_iff other).mp settled)
  top item := by
    rw [length_map, Nat.zero_add]
    exact sound.top item

theorem Tables.steady (mem : table ∈ tables) (key : κ) (entry : Entry ι δ)
    (inside : (key, entry) ∈ table.layer.entries) (item : ι) (asked : table.want key = some item) :
    entry.update item = [] := by
  obtain ⟨object, present, ofKey, rfl⟩ := mem_entries.mp inside
  rw [Table.want, want_of_mem (sound.told table mem).distinct present ofKey] at asked
  exact (sound.leads table mem).steady object present item asked

theorem Tables.render [DecidableEq δ]
    (leveled : Leveled rules level) (unique : Unique rules items) {order : List κ → List κ}
    (perm : ∀ keys, (order keys).Perm keys) (calls : List (Call ι δ)) :
    ∃ after, Reconcile.render rules (tables.map fun table => table.layer.plan order)
        ⟨items, calls⟩ = .ok after ∧ Unique rules after.items ∧
      (∀ item, item ∈ after.items ↔ ∃ table ∈ tables, table.Leaves items item) ∧
      ∀ order' : List κ → List κ, (∀ keys, (order' keys).Perm keys) →
        ∀ table ∈ tables, table.layer.plan order' after.items = ⟨[], []⟩ := by
  have unique' : Unique rules (State.mk items calls).items := unique
  obtain ⟨after, ran, uniqueAfter, mem⟩ := render_settles perm leveled unique' sound.nested
  rw [map_map] at ran
  have left (item : ι) : item ∈ after.items ↔ ∃ table ∈ tables, table.Leaves items item := by
    rw [mem item, if_neg (Nat.not_lt_zero _), sound.settled_iff]
  refine ⟨after, ran, uniqueAfter, left, fun order' perm' table inside => ?_⟩
  refine (sound.fits inside).plan_settled perm' (sound.steady inside) fun item owned => ?_
  rw [left item, (sound.told table inside).left_iff]
  constructor
  · rintro ⟨other, inside', leaves⟩
    obtain rfl := sound.eq_of_owns inside inside' owned leaves.1
    exact leaves
  · exact fun leaves => ⟨table, inside, leaves⟩

end Tables

end Reconcile
