import TruenasMiddleware.Foundation.Dict
import Mathlib.Data.List.Perm.Basic

/-! Reconciliation of a store with a configuration, in nested layers. A layer compares its items
with its entries by key; it adds and updates when it is entered and removes when it is left. The
store refuses an item whose identity is in use or that lacks what it needs, and drops with an item
what is under it. When what an item needs lies in earlier layers and what is under it in later
ones, the layers leave exactly the items that their entries ask for. -/

namespace Reconcile

open List

variable {ι δ κ : Type*} [DecidableEq δ] [DecidableEq κ]

/-- What the store goes by. -/
structure Rules (ι δ : Type*) where
  ident : ι → δ
  /-- The items have what the item needs. -/
  ready : List ι → ι → Bool
  under : δ → ι → Bool

inductive Call (ι δ : Type*)
  | add (item : ι)
  | remove (ident : δ)
  | alter (item : ι)
  /-- No call: an exception is raised. -/
  | fail

structure State (ι δ : Type*) where
  items : List ι
  calls : List (Call ι δ)

variable (rules : Rules ι δ)

/-- The items without that of the identity and those under it. -/
def without (ident : δ) (items : List ι) : List ι :=
  items.filter fun other => decide (rules.ident other ≠ ident) && !rules.under ident other

def altered (new : ι) (items : List ι) : List ι :=
  items.map fun other => if rules.ident other = rules.ident new then new else other

/-- After an exception there is the state that was reached. -/
def exec (state : State ι δ) (call : Call ι δ) : Except (State ι δ) (State ι δ) :=
  let issued := { state with calls := state.calls ++ [call] }
  match call with
  | .add item =>
    if (state.items.any fun other => rules.ident other = rules.ident item) ||
        !rules.ready state.items item then .error issued
    else .ok { issued with items := state.items ++ [item] }
  | .remove ident =>
    if state.items.any fun other => rules.ident other = ident then
      .ok { issued with items := without rules ident state.items }
    else .error issued
  | .alter item =>
    if state.items.any fun other => rules.ident other = rules.ident item then
      .ok { issued with items := altered rules item state.items }
    else .error issued
  | .fail => .error state

def execAll (calls : List (Call ι δ)) (state : State ι δ) : Except (State ι δ) (State ι δ) :=
  calls.foldlM (exec rules) state

structure Plan (ι δ : Type*) where
  enter : List (Call ι δ)
  leave : List (Call ι δ)

/-- Nested context managers: what follows an exception does not take place. -/
def render (rules : Rules ι δ) :
    List (List ι → Plan ι δ) → State ι δ → Except (State ι δ) (State ι δ)
  | [], state => .ok state
  | plan :: rest, state => do
    let entered ← execAll rules (plan state.items).enter state
    let inner ← render rules rest entered
    execAll rules (plan state.items).leave inner

inductive Listing (κ : Type*)
  | raises
  | hidden
  | listed (key : κ)
  deriving DecidableEq

structure Entry (ι δ : Type*) where
  add : List (Call ι δ)
  update : ι → List (Call ι δ)

structure Keyed (ι δ κ : Type*) where
  owns : ι → Bool
  key : ι → Listing κ
  entries : List (κ × Entry ι δ)
  delete : ι → List (Call ι δ)
  keeps : κ → Bool

def Keyed.config (layer : Keyed ι δ κ) : List (κ × Entry ι δ) :=
  layer.entries.foldl (fun dict entry => Dict.write (some entry) dict) []

def Keyed.listing (layer : Keyed ι δ κ) (item : ι) : Option (κ × ι) :=
  match layer.key item with
  | .listed key => some (key, item)
  | .raises | .hidden => none

def Keyed.live (layer : Keyed ι δ κ) (items : List ι) : Option (List (κ × ι)) :=
  if (items.filter layer.owns).any fun item => decide (layer.key item = .raises) then none
  else some ((items.filter layer.owns).foldl
    (fun dict item => Dict.write (layer.listing item) dict) [])

def Keyed.plan (order : List κ → List κ) (layer : Keyed ι δ κ) (items : List ι) : Plan ι δ :=
  match layer.live items with
  | none => { enter := [.fail], leave := [] }
  | some live =>
    let configKeys := Dict.keys layer.config
    let addKeys := configKeys.filter fun key => decide (key ∉ Dict.keys live)
    let updateKeys := configKeys.filter fun key => decide (key ∈ Dict.keys live)
    let removeKeys := (Dict.keys live).filter fun key =>
      decide (key ∉ configKeys) && !layer.keeps key
    { enter :=
        ((order addKeys).flatMap fun key => (layer.config.lookup key).elim [] Entry.add) ++
        (order updateKeys).flatMap fun key =>
          match layer.config.lookup key, live.lookup key with
          | some entry, some item => entry.update item
          | _, _ => []
      leave := (order removeKeys).flatMap fun key => (live.lookup key).elim [] layer.delete }

/-! ### Deals -/

def Unique (items : List ι) : Prop :=
  ∀ item ∈ items, ∀ other ∈ items, rules.ident item = rules.ident other → item = other

/-- What an item needs is on earlier levels, and what is under it on later ones. -/
structure Leveled (level : ι → ℕ) : Prop where
  ready : ∀ {items after new}, (∀ item ∈ items, level item < level new → item ∈ after) →
    rules.ready items new = true → rules.ready after new = true
  under : ∀ {item other}, rules.under (rules.ident item) other = true → level item < level other
  ident : ∀ {item other}, rules.ident item = rules.ident other → level item = level other

/-- Calls that put `new` in the place of `old`. -/
inductive Swap (rules : Rules ι δ) (old : ι) : ι → List (Call ι δ) → Prop
  | keep : Swap rules old old []
  | alter {new : ι} (same : rules.ident old = rules.ident new) : Swap rules old new [.alter new]
  | replace {new : ι} (same : rules.ident old = rules.ident new)
      (bare : ∀ item, rules.under (rules.ident old) item = false) :
      Swap rules old new [.remove (rules.ident old), .add new]

structure Deal (ι δ : Type*) where
  old : Option ι
  new : Option ι
  calls : List (Call ι δ)

inductive Deal.Legal (rules : Rules ι δ) (items : List ι) : Deal ι δ → Prop
  | skip : Legal rules items ⟨none, none, []⟩
  | add {new : ι} (free : ∀ item ∈ items, rules.ident item ≠ rules.ident new)
      (ready : rules.ready items new = true) : Legal rules items ⟨none, some new, [.add new]⟩
  | swap {old new : ι} {calls : List (Call ι δ)} (member : old ∈ items)
      (ready : rules.ready items new = true) (swap : Swap rules old new calls) :
      Legal rules items ⟨some old, some new, calls⟩
  | remove {old : ι} (member : old ∈ items)
      (bare : ∀ item ∈ items, rules.under (rules.ident old) item = false) :
      Legal rules items ⟨some old, none, [.remove (rules.ident old)]⟩

def Deal.About (deal : Deal ι δ) (item : ι) : Prop :=
  deal.old = some item ∨ deal.new = some item

def Deal.Apart (deal other : Deal ι δ) : Prop :=
  ∀ item, deal.About item → ∀ item', other.About item' → rules.ident item ≠ rules.ident item'

def Deal.Done (deal : Deal ι δ) (items after : List ι) : Prop :=
  ∀ item, item ∈ after ↔ (item ∈ items ∧ deal.old ≠ some item) ∨ deal.new = some item

variable {rules : Rules ι δ} {level : ι → ℕ} {state : State ι δ} {items after : List ι}

theorem execAll_nil (state : State ι δ) : execAll rules [] state = .ok state := rfl

variable {next : State ι δ} {calls : List (Call ι δ)} {n : ℕ} {key other : κ}

theorem execAll_cons_of_ok {call : Call ι δ}
    (done : exec rules state call = .ok next) (rest : List (Call ι δ)) :
    execAll rules (call :: rest) state = execAll rules rest next := by
  rw [execAll, foldlM_cons, done]
  rfl

theorem execAll_append_of_ok
    (done : execAll rules calls state = .ok next) (more : List (Call ι δ)) :
    execAll rules (calls ++ more) state = execAll rules more next := by
  rw [execAll, foldlM_append, ← execAll, done]
  rfl

variable {item old item' : ι}

theorem exec_add (free : ∀ other ∈ state.items, rules.ident other ≠ rules.ident item)
    (ready : rules.ready state.items item = true) :
    exec rules state (.add item) = .ok ⟨state.items ++ [item], state.calls ++ [.add item]⟩ := by
  have unused : (state.items.any fun other => rules.ident other = rules.ident item) = false := by
    simpa using free
  simp [exec, unused, ready]

theorem exec_remove (mem : item ∈ state.items) : exec rules state (.remove (rules.ident item)) =
      .ok ⟨without rules (rules.ident item) state.items,
        state.calls ++ [.remove (rules.ident item)]⟩ := by
  have used : (state.items.any fun other => rules.ident other = rules.ident item) = true :=
    any_eq_true.mpr ⟨item, mem, decide_eq_true rfl⟩
  simp [exec, used]

variable {new : ι}

theorem exec_alter (mem : old ∈ state.items) (eq : rules.ident old = rules.ident new) :
    exec rules state (.alter new) =
      .ok ⟨altered rules new state.items, state.calls ++ [.alter new]⟩ := by
  have used : (state.items.any fun other => rules.ident other = rules.ident new) = true :=
    any_eq_true.mpr ⟨old, mem, decide_eq_true eq⟩
  simp [exec, used]

theorem mem_without (unique : Unique rules items) (mem : old ∈ items)
    (bare : ∀ item ∈ items, rules.under (rules.ident old) item = false) :
    item ∈ without rules (rules.ident old) items ↔ item ∈ items ∧ item ≠ old := by
  simp only [without, mem_filter, Bool.and_eq_true, decide_eq_true_eq, Bool.not_eq_true']
  constructor
  · rintro ⟨present, other, _⟩
    exact ⟨present, fun eq => other (congrArg rules.ident eq)⟩
  · rintro ⟨present, other⟩
    exact ⟨present, fun eq => other (unique item present old mem eq), bare item present⟩

theorem mem_altered (unique : Unique rules items) (mem : old ∈ items)
    (eq : rules.ident old = rules.ident new) :
    item ∈ altered rules new items ↔ (item ∈ items ∧ item ≠ old) ∨ item = new := by
  rw [altered, mem_map]
  constructor
  · rintro ⟨other, present, rfl⟩
    by_cases here : rules.ident other = rules.ident new
    · exact .inr (if_pos here)
    · rw [if_neg here]
      exact .inl ⟨present, fun equal => here (equal ▸ eq)⟩
  · rintro (⟨present, other⟩ | rfl)
    · refine ⟨item, present, if_neg fun here => other ?_⟩
      exact unique item present old mem (here.trans eq.symm)
    · exact ⟨old, mem, if_pos eq⟩

omit [DecidableEq δ] in
theorem Swap.ident (swap : Swap rules old new calls) :
    rules.ident old = rules.ident new := by
  cases swap with
  | keep => rfl
  | alter eq => exact eq
  | replace eq _ => exact eq

theorem Swap.exec (swap : Swap rules old new calls)
    (leveled : Leveled rules level) (unique : Unique rules state.items) (mem : old ∈ state.items)
    (ready : rules.ready state.items new = true) :
    ∃ after, execAll rules calls state = .ok ⟨after, state.calls ++ calls⟩ ∧
      ∀ item, item ∈ after ↔ (item ∈ state.items ∧ item ≠ old) ∨ item = new := by
  cases swap with
  | keep =>
    refine ⟨state.items, by rw [append_nil, execAll_nil], fun item => ?_⟩
    by_cases eq : item = old
    · simp [eq, mem]
    · simp [eq]
  | alter eq =>
    refine ⟨altered rules new state.items, ?_, fun item => mem_altered unique mem eq⟩
    rw [execAll_cons_of_ok (exec_alter mem eq), execAll_nil]
  | replace eq bare =>
    have removed {item : ι} :
        item ∈ without rules (rules.ident old) state.items ↔ item ∈ state.items ∧ item ≠ old :=
      mem_without unique mem fun item _ => bare item
    refine ⟨without rules (rules.ident old) state.items ++ [new], ?_, fun item => ?_⟩
    · rw [execAll_cons_of_ok (exec_remove mem), execAll_cons_of_ok (exec_add ?_ ?_),
        execAll_nil, append_assoc, singleton_append]
      · intro other present clash
        obtain ⟨present, different⟩ := removed.mp present
        exact different (unique other present old mem (clash.trans eq.symm))
      · refine leveled.ready (fun item present lower => removed.mpr ⟨present, ?_⟩) ready
        rintro rfl
        exact absurd (leveled.ident eq) (Nat.ne_of_lt lower)
    · rw [mem_append, removed, mem_singleton]

theorem Deal.Legal.exec {deal : Deal ι δ} (legal : deal.Legal rules state.items)
    (leveled : Leveled rules level) (unique : Unique rules state.items) :
    ∃ after, execAll rules deal.calls state = .ok ⟨after, state.calls ++ deal.calls⟩ ∧
      deal.Done state.items after := by
  cases legal with
  | skip => exact ⟨state.items, by rw [append_nil, execAll_nil], fun item => by simp⟩
  | @add new free ready =>
    refine ⟨state.items ++ [new], ?_, fun item => ?_⟩
    · rw [execAll_cons_of_ok (exec_add free ready), execAll_nil]
    · simp [eq_comm]
  | swap mem ready swap =>
    obtain ⟨after, done, turned⟩ := swap.exec leveled unique mem ready
    refine ⟨after, done, fun item => ?_⟩
    rw [turned item]
    simp [eq_comm]
  | @remove old mem bare =>
    refine ⟨without rules (rules.ident old) state.items, ?_, fun item => ?_⟩
    · rw [execAll_cons_of_ok (exec_remove mem), execAll_nil]
    · rw [mem_without unique mem bare]
      simp [eq_comm]

omit [DecidableEq δ] in
theorem Deal.Legal.unique {deal : Deal ι δ} (legal : deal.Legal rules items)
    (unique : Unique rules items) (done : deal.Done items after) : Unique rules after := by
  have free : ∀ item, deal.new = some item → ∀ other ∈ items, deal.old ≠ some other →
      rules.ident other ≠ rules.ident item := by
    cases legal with
    | skip => intro item come; cases come
    | add free ready =>
      intro item come other present _
      exact Option.some.inj come ▸ free other present
    | swap mem ready swap =>
      intro item come other present different clash
      cases come
      exact different (congrArg some (unique other present _ mem
        (clash.trans swap.ident.symm)).symm)
    | remove mem bare => intro item come; cases come
  intro item mem other again eq
  rcases (done item).mp mem with ⟨before, kept⟩ | come
  · rcases (done other).mp again with ⟨present, _⟩ | new
    · exact unique item before other present eq
    · exact absurd eq (free other new item before kept)
  · rcases (done other).mp again with ⟨present, kept⟩ | new
    · exact absurd eq.symm (free item come other present kept)
    · exact Option.some.inj (come.symm.trans new)

omit [DecidableEq δ] in
theorem Deal.Legal.persist {deal other : Deal ι δ} (legal : deal.Legal rules items)
    (leveled : Leveled rules level) (onLevel : ∀ item, deal.About item → level item = n)
    (otherOnLevel : ∀ item, other.About item → level item = n) (apart : other.Apart rules deal)
    (done : other.Done items after) : deal.Legal rules after := by
  have kept {item : ι} (mem : item ∈ items) (about : deal.About item) : item ∈ after :=
    (done item).mpr (.inl ⟨mem, fun gone => apart item (.inl gone) item about rfl⟩)
  have ready {new : ι} (about : deal.About new) (ready : rules.ready items new = true) :
      rules.ready after new = true := by
    refine leveled.ready (fun item mem lower => (done item).mpr (.inl ⟨mem, ?_⟩)) ready
    intro gone
    rw [otherOnLevel item (.inl gone), onLevel new about] at lower
    exact absurd lower (Nat.lt_irrefl n)
  cases legal with
  | skip => exact .skip
  | add free isReady =>
    refine .add (fun item mem => ?_) (ready (.inr rfl) isReady)
    rcases (done item).mp mem with ⟨before, _⟩ | come
    · exact free item before
    · exact apart item (.inr come) _ (.inr rfl)
  | swap mem isReady swap =>
    exact .swap (kept mem (.inl rfl)) (ready (.inr rfl) isReady) swap
  | @remove old mem bare =>
    refine .remove (kept mem (.inl rfl)) fun item present => ?_
    rcases (done item).mp present with ⟨before, _⟩ | come
    · exact bare item before
    · refine Bool.eq_false_iff.mpr fun below => ?_
      have lower := leveled.under below
      rw [onLevel old (.inl rfl), otherOnLevel item (.inr come)] at lower
      exact absurd lower (Nat.lt_irrefl n)

theorem execAll_deals (leveled : Leveled rules level) {deals : List (Deal ι δ)}
    (unique : Unique rules state.items) (legal : ∀ deal ∈ deals, deal.Legal rules state.items)
    (onLevel : ∀ deal ∈ deals, ∀ item, deal.About item → level item = n)
    (apart : deals.Pairwise (Deal.Apart rules)) :
    ∃ after, execAll rules (deals.flatMap Deal.calls) state =
        .ok ⟨after, state.calls ++ deals.flatMap Deal.calls⟩ ∧ Unique rules after ∧
      ∀ item, item ∈ after ↔ (item ∈ state.items ∧ ∀ deal ∈ deals, deal.old ≠ some item) ∨
          ∃ deal ∈ deals, deal.new = some item := by
  induction deals generalizing state with
  | nil => exact ⟨state.items, by simp [execAll_nil], unique, fun item => by simp⟩
  | cons deal rest ih =>
    rw [pairwise_cons] at apart
    have first := legal deal mem_cons_self
    obtain ⟨between, ran, done⟩ := first.exec leveled unique
    have later (other : Deal ι δ) (mem : other ∈ rest) : other.Legal rules between :=
      (legal other (mem_cons_of_mem _ mem)).persist leveled
        (onLevel other (mem_cons_of_mem _ mem)) (onLevel deal mem_cons_self)
        (apart.1 other mem) done
    obtain ⟨after, ranRest, uniqueAfter, doneRest⟩ :=
      @ih ⟨between, state.calls ++ deal.calls⟩ (first.unique unique done) later
        (fun other mem => onLevel other (mem_cons_of_mem _ mem)) apart.2
    refine ⟨after, ?_, uniqueAfter, fun item => ?_⟩
    · rw [flatMap_cons, execAll_append_of_ok ran, ranRest, append_assoc]
    · rw [doneRest item]
      simp only [done item, forall_mem_cons, exists_mem_cons_iff]
      constructor
      · rintro (⟨⟨before, notFirst⟩ | come, notRest⟩ | come)
        · exact .inl ⟨before, notFirst, notRest⟩
        · exact .inr (.inl come)
        · exact .inr (.inr come)
      · rintro (⟨before, notFirst, notRest⟩ | come | come)
        · exact .inl ⟨.inl ⟨before, notFirst⟩, notRest⟩
        · refine .inl ⟨.inr come, fun other mem gone => ?_⟩
          exact apart.1 other mem item (.inr come) item (.inl gone) rfl
        · exact .inr come

/-! ### Layers -/

variable {layer : Keyed ι δ κ} {want : κ → Option ι}

/-- The entries and the items of a layer fit: keys tell them apart, what an entry does for its key
leads to the item that it asks for, and the identity of this item is not in use under another
key. -/
structure Fits (rules : Rules ι δ) (layer : Keyed ι δ κ) (want : κ → Option ι) (items : List ι) :
    Prop where
  listed : ∀ item ∈ items, layer.owns item = true → ∃ key, layer.key item = .listed key
  apart : ∀ item ∈ items, ∀ other ∈ items, layer.owns item = true → layer.owns other = true →
    layer.key item = layer.key other → item = other
  distinct : (layer.entries.map Prod.fst).Nodup
  wanted : ∀ key entry, (key, entry) ∈ layer.entries → ∀ item, want key = some item →
    layer.owns item = true ∧ layer.key item = .listed key
  add : ∀ key entry, (key, entry) ∈ layer.entries →
    (∀ item ∈ items, layer.owns item = true → layer.key item ≠ .listed key) →
      entry.add = (want key).toList.map .add
  update : ∀ key entry, (key, entry) ∈ layer.entries →
    ∀ item ∈ items, layer.owns item = true → layer.key item = .listed key →
      ∃ new, want key = some new ∧ Swap rules item new (entry.update item)
  delete : ∀ item, layer.owns item = true → layer.delete item = [.remove (rules.ident item)]
  free : ∀ key entry, (key, entry) ∈ layer.entries → ∀ new, want key = some new →
    ∀ item ∈ items, layer.owns item = true → rules.ident item = rules.ident new →
      layer.key item = .listed key
  idents : ∀ key entry, (key, entry) ∈ layer.entries → ∀ other entry', (other, entry') ∈
    layer.entries → ∀ item item', want key = some item → want other = some item' →
      rules.ident item = rules.ident item' → key = other

def Wants (layer : Keyed ι δ κ) (want : κ → Option ι) (item : ι) : Prop :=
  ∃ key ∈ layer.entries.map Prod.fst, want key = some item

def Unasked (layer : Keyed ι δ κ) (item : ι) : Prop :=
  ∃ key, layer.key item = .listed key ∧ key ∉ layer.entries.map Prod.fst

/-- The layer has been entered: what the entries ask for is there, beside the items that no entry
has the key of. -/
def Entered (layer : Keyed ι δ κ) (want : κ → Option ι) (items after : List ι) : Prop :=
  ∀ item, item ∈ after ↔
    Wants layer want item ∨ item ∈ items ∧ (layer.owns item = true → Unasked layer item)

/-- The layer has the item under the key. -/
abbrev Keyed.Has (layer : Keyed ι δ κ) (items : List ι) (key : κ) (item : ι) : Prop :=
  item ∈ items ∧ layer.owns item = true ∧ layer.key item = .listed key

def Stale (layer : Keyed ι δ κ) (item : ι) : Prop :=
  ∃ key, layer.key item = .listed key ∧ key ∉ layer.entries.map Prod.fst ∧ layer.keeps key = false

omit [DecidableEq δ] in
theorem lookup_config (distinct : (layer.entries.map Prod.fst).Nodup)
    {entry : Entry ι δ} : layer.config.lookup key = some entry ↔ (key, entry) ∈ layer.entries := by
  refine (Dict.lookup_writes ?_).trans (by simp)
  rintro _ mem _ mem' one another ⟨⟩ ⟨⟩
  have first := Dict.lookup_of_mem distinct mem
  have second := Dict.lookup_of_mem distinct mem'
  exact Option.some.inj (first.symm.trans second)

omit [DecidableEq δ] in
theorem mem_keys_config (distinct : (layer.entries.map Prod.fst).Nodup) :
    key ∈ Dict.keys layer.config ↔ key ∈ layer.entries.map Prod.fst := by
  rw [← Dict.exists_lookup]
  simp only [lookup_config distinct, mem_map, Prod.exists, exists_and_right, exists_eq_right]

omit [DecidableEq δ] [DecidableEq κ] in
theorem listing_eq_some {item value : ι} :
    layer.listing item = some (key, value) ↔ layer.key item = .listed key ∧ item = value := by
  rw [Keyed.listing]
  cases layer.key item <;> simp

omit [DecidableEq δ] in
theorem exists_live
    (listed : ∀ item ∈ items, layer.owns item = true → ∃ key, layer.key item = .listed key)
    (apart : ∀ item ∈ items, ∀ other ∈ items, layer.owns item = true → layer.owns other = true →
      layer.key item = layer.key other → item = other) :
    ∃ live, layer.live items = some live ∧ (Dict.keys live).Nodup ∧
      ∀ key item, live.lookup key = some item ↔ layer.Has items key item := by
  have quiet : ((items.filter layer.owns).any fun item =>
      decide (layer.key item = .raises)) = false := by
    rw [any_eq_false]
    intro item mem raised
    obtain ⟨mem, owned⟩ := mem_filter.mp mem
    obtain ⟨key, found⟩ := listed item mem owned
    rw [found] at raised
    cases of_decide_eq_true raised
  refine ⟨_, if_neg (by simp [quiet]), Dict.nodup_writes nodup_nil, fun key item => ?_⟩
  rw [Dict.lookup_writes]
  · simp [listing_eq_some, and_assoc]
  · intro item mem other mem' one another eq eq'
    obtain ⟨ofKey, rfl⟩ := listing_eq_some.mp eq
    obtain ⟨ofOther, rfl⟩ := listing_eq_some.mp eq'
    obtain ⟨mem, owned⟩ := mem_filter.mp mem
    obtain ⟨mem', owned'⟩ := mem_filter.mp mem'
    exact apart item mem other mem' owned owned' (ofKey.trans ofOther.symm)

def Keyed.deal (layer : Keyed ι δ κ) (want : κ → Option ι) (live : List (κ × ι)) (key : κ) :
    Deal ι δ :=
  match live.lookup key with
  | none => ⟨none, want key, (want key).toList.map .add⟩
  | some item =>
    ⟨some item, want key, (layer.config.lookup key).elim [] fun entry => entry.update item⟩

omit [DecidableEq δ] in
theorem deal_old (live : List (κ × ι)) (key : κ) :
    (layer.deal want live key).old = live.lookup key := by
  rw [Keyed.deal]
  split
  · rename_i missing
    exact missing.symm
  · rename_i found
    exact found.symm

omit [DecidableEq δ] in
theorem deal_new (live : List (κ × ι)) (key : κ) : (layer.deal want live key).new = want key := by
  rw [Keyed.deal]
  split <;> rfl

omit [DecidableEq δ] [DecidableEq κ] in
theorem key_unique (ofKey : layer.key item = .listed key)
    (ofOther : layer.key item = .listed other) : key = other :=
  Listing.listed.inj (ofKey.symm.trans ofOther)

omit [DecidableEq δ] [DecidableEq κ] in
theorem Fits.key_eq (fits : Fits rules layer want items) (unique : Unique rules items)
    (inConfig : key ∈ layer.entries.map Prod.fst)
    (otherInConfig : other ∈ layer.entries.map Prod.fst)
    (holds : layer.Has items key item ∨ want key = some item)
    (holds' : layer.Has items other item' ∨ want other = some item')
    (eq : rules.ident item = rules.ident item') : key = other := by
  obtain ⟨⟨_, entry⟩, mem, rfl⟩ := mem_map.mp inConfig
  obtain ⟨⟨_, entry'⟩, mem', rfl⟩ := mem_map.mp otherInConfig
  rcases holds with ⟨present, owned, ofKey⟩ | asked
  · rcases holds' with ⟨present', _, ofOther⟩ | asked'
    · obtain rfl := unique item present item' present' eq
      exact key_unique ofKey ofOther
    · have ofOther := fits.free _ _ mem' item' asked' item present owned eq
      exact key_unique ofKey ofOther
  · rcases holds' with ⟨present', owned', ofOther⟩ | asked'
    · have ofKey := fits.free _ _ mem item asked item' present' owned' eq.symm
      exact key_unique ofKey ofOther
    · exact fits.idents _ _ mem _ _ mem' item item' asked asked' eq

section Phases

variable {order : List κ → List κ} {n first : ℕ} (perm : ∀ keys, (order keys).Perm keys)
include perm

omit [DecidableEq δ] in
theorem Fits.plan_enter (fits : Fits rules layer want items) {live : List (κ × ι)}
    (listed : layer.live items = some live)
    (lookup : ∀ key item, live.lookup key = some item ↔ layer.Has items key item) :
    ∃ keys : List κ, keys.Nodup ∧ (∀ key, key ∈ keys ↔ key ∈ layer.entries.map Prod.fst) ∧
      (layer.plan order items).enter =
        (keys.map fun key => layer.deal want live key).flatMap Deal.calls := by
  have nodup : (Dict.keys layer.config).Nodup := Dict.nodup_writes nodup_nil
  refine ⟨order ((Dict.keys layer.config).filter fun key => decide (key ∉ Dict.keys live)) ++
    order ((Dict.keys layer.config).filter fun key => decide (key ∈ Dict.keys live)), ?_, ?_, ?_⟩
  · refine nodup_append.mpr ⟨?_, ?_, ?_⟩
    · exact (perm _).nodup_iff.mpr (nodup.filter _)
    · exact (perm _).nodup_iff.mpr (nodup.filter _)
    · rintro key mem _ again rfl
      have absent := (mem_filter.mp ((perm _).subset mem)).2
      have present := (mem_filter.mp ((perm _).subset again)).2
      exact of_decide_eq_true absent (of_decide_eq_true present)
  · intro key
    rw [mem_append, (perm _).mem_iff, (perm _).mem_iff, mem_filter, mem_filter,
      ← and_or_left, mem_keys_config fits.distinct]
    refine and_iff_left ?_
    by_cases present : key ∈ Dict.keys live <;> simp [present]
  · simp only [Keyed.plan, listed, map_append, flatMap_append, flatMap_map]
    congr 1
    · refine flatMap_congr fun key mem => ?_
      obtain ⟨inConfig, absent⟩ := mem_filter.mp ((perm _).subset mem)
      have missing : live.lookup key = none := Dict.lookup_eq_none.mpr (of_decide_eq_true absent)
      obtain ⟨entry, found⟩ := Dict.exists_lookup.mpr inConfig
      have adds := fits.add key entry ((lookup_config fits.distinct).mp found)
        fun item present owned ofKey => ?_
      · simp only [Keyed.deal, missing, found, Option.elim_some, adds]
      · rw [(lookup key item).mpr ⟨present, owned, ofKey⟩] at missing
        cases missing
    · refine flatMap_congr fun key mem => ?_
      obtain ⟨inConfig, present⟩ := mem_filter.mp ((perm _).subset mem)
      obtain ⟨entry, found⟩ := Dict.exists_lookup.mpr inConfig
      obtain ⟨item, there⟩ := Dict.exists_lookup.mpr (of_decide_eq_true present)
      simp only [Keyed.deal, there, found, Option.elim_some]

theorem Fits.enter (fits : Fits rules layer want state.items) (leveled : Leveled rules level)
    (unique : Unique rules state.items)
    (owns : ∀ item, layer.owns item = true ↔ level item = n)
    (ready : ∀ new, Wants layer want new → rules.ready state.items new = true) :
    ∃ after, execAll rules (layer.plan order state.items).enter state =
        .ok ⟨after, state.calls ++ (layer.plan order state.items).enter⟩ ∧ Unique rules after ∧
      Entered layer want state.items after := by
  obtain ⟨live, listed, _, lookup⟩ := exists_live fits.listed fits.apart
  obtain ⟨keys, nodup, inKeys, plan⟩ := fits.plan_enter perm listed lookup
  have about {key : κ} {item : ι} (about : (layer.deal want live key).About item) :
      layer.Has state.items key item ∨ want key = some item := by
    rw [Deal.About, deal_old, deal_new] at about
    exact about.imp_left (lookup key item).mp
  have entryOf {key : κ} (mem : key ∈ keys) : ∃ entry, (key, entry) ∈ layer.entries := by
    obtain ⟨⟨_, entry⟩, inEntries, rfl⟩ := mem_map.mp ((inKeys key).mp mem)
    exact ⟨entry, inEntries⟩
  have legal (key : κ) (mem : key ∈ keys) :
      (layer.deal want live key).Legal rules state.items := by
    obtain ⟨entry, inEntries⟩ := entryOf mem
    rw [Keyed.deal]
    split
    · rename_i missing
      cases asked : want key with
      | none => exact .skip
      | some new =>
        refine .add (fun item present eq => ?_) (ready new ⟨key, (inKeys key).mp mem, asked⟩)
        have owned : layer.owns item = true := by
          rw [owns, leveled.ident eq, ← owns]
          exact (fits.wanted key entry inEntries new asked).1
        have ofKey := fits.free key entry inEntries new asked item present owned eq
        rw [(lookup key item).mpr ⟨present, owned, ofKey⟩] at missing
        cases missing
    · rename_i item found
      obtain ⟨present, owned, ofKey⟩ := (lookup key item).mp found
      obtain ⟨new, asked, swap⟩ := fits.update key entry inEntries item present owned ofKey
      rw [asked, (lookup_config fits.distinct).mpr inEntries]
      exact .swap present (ready new ⟨key, (inKeys key).mp mem, asked⟩) swap
  have onLevel (key : κ) (mem : key ∈ keys) (item : ι)
      (isAbout : (layer.deal want live key).About item) : level item = n := by
    obtain ⟨entry, inEntries⟩ := entryOf mem
    rcases about isAbout with ⟨_, owned, _⟩ | asked
    · exact (owns item).mp owned
    · exact (owns item).mp (fits.wanted key entry inEntries item asked).1
  have apart : (keys.map fun key => layer.deal want live key).Pairwise (Deal.Apart rules) := by
    refine pairwise_map.mpr (nodup.imp_of_mem fun {key other} first second different => ?_)
    intro item isAbout item' isAbout' eq
    exact different (fits.key_eq unique ((inKeys key).mp first) ((inKeys other).mp second)
      (about isAbout) (about isAbout') eq)
  obtain ⟨after, ran, uniqueAfter, done⟩ := execAll_deals leveled unique
    (forall_mem_map.mpr legal) (forall_mem_map.mpr onLevel) apart
  rw [← plan] at ran
  refine ⟨after, ran, uniqueAfter, fun item => ?_⟩
  rw [done item, or_comm]
  simp only [mem_map, exists_exists_and_eq_and, deal_new, forall_exists_index, and_imp,
    forall_apply_eq_imp_iff₂, deal_old]
  refine or_congr ?_ (and_congr_right fun present => ?_)
  · simp only [Wants, inKeys]
  · constructor
    · intro unasked owned
      obtain ⟨key, ofKey⟩ := fits.listed item present owned
      refine ⟨key, ofKey, fun inConfig => ?_⟩
      exact unasked key ((inKeys key).mpr inConfig) ((lookup key item).mpr ⟨present, owned, ofKey⟩)
    · intro unasked key mem found
      obtain ⟨_, owned, ofKey⟩ := (lookup key item).mp found
      obtain ⟨other, ofOther, outside⟩ := unasked owned
      obtain rfl := key_unique ofKey ofOther
      exact outside ((inKeys key).mp mem)

theorem Fits.leave (fits : Fits rules layer want items) (leveled : Leveled rules level)
    (unique : Unique rules state.items) (uniqueBefore : Unique rules items)
    (owns : ∀ item, layer.owns item = true ↔ level item = n)
    (present : ∀ item ∈ items, layer.owns item = true → Stale layer item → item ∈ state.items)
    (bare : ∀ item ∈ items, layer.owns item = true → Stale layer item →
      ∀ other ∈ state.items, rules.under (rules.ident item) other = false) :
    ∃ after, execAll rules (layer.plan order items).leave state =
        .ok ⟨after, state.calls ++ (layer.plan order items).leave⟩ ∧ Unique rules after ∧
      ∀ item, item ∈ after ↔ item ∈ state.items ∧
        ¬ (item ∈ items ∧ layer.owns item = true ∧ Stale layer item) := by
  obtain ⟨live, listed, nodupLive, lookup⟩ := exists_live fits.listed fits.apart
  obtain ⟨keys, isKeys⟩ : ∃ keys, keys = order ((Dict.keys live).filter fun key =>
      decide (key ∉ Dict.keys layer.config) && !layer.keeps key) := ⟨_, rfl⟩
  have nodup : keys.Nodup := isKeys ▸ (perm _).nodup_iff.mpr (nodupLive.filter _)
  have inKeys (key : κ) : key ∈ keys ↔ (∃ item, live.lookup key = some item) ∧
      key ∉ layer.entries.map Prod.fst ∧ layer.keeps key = false := by
    rw [isKeys, (perm _).mem_iff, mem_filter, ← Dict.exists_lookup, Bool.and_eq_true,
      decide_eq_true_eq, mem_keys_config fits.distinct, Bool.not_eq_true']
  have stale {key : κ} {item : ι} (mem : key ∈ keys) (found : live.lookup key = some item) :
      item ∈ items ∧ layer.owns item = true ∧ Stale layer item := by
    obtain ⟨before, owned, ofKey⟩ := (lookup key item).mp found
    exact ⟨before, owned, key, ofKey, ((inKeys key).mp mem).2⟩
  let deal (key : κ) : Deal ι δ :=
    ⟨live.lookup key, none, (live.lookup key).elim [] layer.delete⟩
  have plan : (layer.plan order items).leave = (keys.map deal).flatMap Deal.calls := by
    simp only [Keyed.plan, listed, isKeys, flatMap_map, deal]
  have legal (key : κ) (mem : key ∈ keys) : (deal key).Legal rules state.items := by
    obtain ⟨item, found⟩ := ((inKeys key).mp mem).1
    obtain ⟨before, owned, isStale⟩ := stale mem found
    simp only [deal, found, Option.elim_some, fits.delete item owned]
    exact .remove (present item before owned isStale) (bare item before owned isStale)
  have about {key : κ} {item : ι} (isAbout : (deal key).About item) : live.lookup key = some item :=
    isAbout.elim id fun absent => by cases absent
  have apart : (keys.map deal).Pairwise (Deal.Apart rules) := by
    refine pairwise_map.mpr (nodup.imp fun {key other} different => ?_)
    intro item isAbout item' isAbout' eq
    obtain ⟨before, _, ofKey⟩ := (lookup key item).mp (about isAbout)
    obtain ⟨before', _, ofOther⟩ := (lookup other item').mp (about isAbout')
    obtain rfl := uniqueBefore item before item' before' eq
    exact different (key_unique ofKey ofOther)
  obtain ⟨after, ran, uniqueAfter, done⟩ := execAll_deals leveled unique (forall_mem_map.mpr legal)
    (forall_mem_map.mpr fun key _ item isAbout =>
      (owns item).mp ((lookup key item).mp (about isAbout)).2.1) apart
  rw [← plan] at ran
  refine ⟨after, ran, uniqueAfter, fun item => ?_⟩
  rw [done item]
  simp only [mem_map, exists_exists_and_eq_and, forall_exists_index, and_imp,
    forall_apply_eq_imp_iff₂, deal]
  constructor
  · rintro (⟨there, kept⟩ | ⟨_, _, absent⟩)
    · refine ⟨there, fun ⟨before, owned, key, ofKey, outside⟩ => ?_⟩
      have found := (lookup key item).mpr ⟨before, owned, ofKey⟩
      exact kept key ((inKeys key).mpr ⟨⟨item, found⟩, outside⟩) found
    · cases absent
  · rintro ⟨there, kept⟩
    exact .inl ⟨there, fun key mem found => kept (stale mem found)⟩

def Left (layer : Keyed ι δ κ) (want : κ → Option ι) (items : List ι) (item : ι) : Prop :=
  layer.owns item = true ∧
    (Wants layer want item ∨ item ∈ items ∧ Unasked layer item ∧ ¬ Stale layer item)

def Settled (layers : List (Keyed ι δ κ × (κ → Option ι))) (items : List ι) (item : ι) : Prop :=
  ∃ layer ∈ layers, Left layer.1 layer.2 items item

/-- Layers on the levels from `first` on. `target` is what items rely on: it is there on the levels
before, and asked for or left alone by the layers. -/
structure Nested (rules : Rules ι δ) (level : ι → ℕ) (target : ι → Prop)
    (layers : List (Keyed ι δ κ × (κ → Option ι))) (first : ℕ) (items : List ι) : Prop where
  owns : ∀ n (inside : n < layers.length) item,
    layers[n].1.owns item = true ↔ level item = first + n
  fits : ∀ layer ∈ layers, Fits rules layer.1 layer.2 items
  lower : ∀ item, target item → level item < first → item ∈ items
  targets : ∀ layer ∈ layers, ∀ item, layer.1.owns item = true → target item →
    Wants layer.1 layer.2 item ∨ item ∈ items ∧ Unasked layer.1 item
  ready : ∀ layer ∈ layers, ∀ new, Wants layer.1 layer.2 new → ∀ present : List ι,
    (∀ item, target item → level item < level new → item ∈ present) → rules.ready present new = true
  bare : ∀ layer ∈ layers, ∀ item ∈ items, layer.1.owns item = true → Stale layer.1 item →
    ∀ other, Settled layers items other → rules.under (rules.ident item) other = false
  top : ∀ item, level item < first + layers.length

section Nested

omit [DecidableEq δ] [DecidableEq κ] perm

theorem Fits.of_same (fits : Fits rules layer want items)
    (eq : ∀ item, layer.owns item = true → (item ∈ after ↔ item ∈ items)) :
    Fits rules layer want after where
  listed item mem owned := fits.listed item ((eq item owned).mp mem) owned
  apart item mem other present owned owned' :=
    fits.apart item ((eq item owned).mp mem) other ((eq other owned').mp present) owned owned'
  distinct := fits.distinct
  wanted := fits.wanted
  add key entry mem absent :=
    fits.add key entry mem fun item present owned =>
      absent item ((eq item owned).mpr present) owned
  update key entry mem item present owned :=
    fits.update key entry mem item ((eq item owned).mp present) owned
  delete := fits.delete
  free key entry mem new asked item present owned :=
    fits.free key entry mem new asked item ((eq item owned).mp present) owned
  idents := fits.idents

variable {item : ι}

theorem settled_congr {layers : List (Keyed ι δ κ × (κ → Option ι))}
    (eq : (∃ layer ∈ layers, layer.1.owns item = true) → (item ∈ after ↔ item ∈ items)) :
    Settled layers after item ↔ Settled layers items item := by
  refine exists_congr fun layer => and_congr_right fun mem => and_congr_right fun owned => ?_
  rw [eq ⟨layer, mem, owned⟩]

theorem Stale.unasked (stale : Stale layer item) : Unasked layer item := by
  obtain ⟨key, ofKey, outside, _⟩ := stale
  exact ⟨key, ofKey, outside⟩

theorem Fits.wants_owned (fits : Fits rules layer want items)
    (wants : Wants layer want item) :
    layer.owns item = true ∧ ¬ Unasked layer item := by
  obtain ⟨key, inConfig, asked⟩ := wants
  obtain ⟨⟨_, entry⟩, mem, rfl⟩ := mem_map.mp inConfig
  obtain ⟨owned, ofKey⟩ := fits.wanted _ entry mem item asked
  refine ⟨owned, fun ⟨other, ofOther, outside⟩ => outside ?_⟩
  obtain rfl := key_unique ofKey ofOther
  exact inConfig

variable {target : ι → Prop} {rest : List (Keyed ι δ κ × (κ → Option ι))} {first : ℕ}
  (nested : Nested rules level target ((layer, want) :: rest) first items)
include nested

theorem Nested.owns_first (item : ι) : layer.owns item = true ↔ level item = first :=
  nested.owns 0 (Nat.zero_lt_succ _) item

theorem Nested.owns_rest (n : ℕ) (inside : n < rest.length) (item : ι) :
    rest[n].1.owns item = true ↔ level item = first + 1 + n := by
  rw [Nat.add_assoc, Nat.add_comm 1 n]
  exact nested.owns (n + 1) (Nat.succ_lt_succ inside) item

theorem Nested.level_rest {other : Keyed ι δ κ × (κ → Option ι)} (mem : other ∈ rest)
    (owned : other.1.owns item = true) : first < level item := by
  obtain ⟨n, inside, rfl⟩ := mem_iff_getElem.mp mem
  rw [(nested.owns_rest n inside item).mp owned]
  omega

variable (done : Entered layer want items after)
include done

theorem Nested.mem_entered (different : level item ≠ first) : item ∈ after ↔ item ∈ items := by
  have unowned : ¬ layer.owns item = true :=
    fun owned => different ((nested.owns_first item).mp owned)
  rw [done item]
  constructor
  · rintro (wants | ⟨present, _⟩)
    · exact absurd ((nested.fits _ mem_cons_self).wants_owned wants).1 unowned
    · exact present
  · exact fun present => .inr ⟨present, fun owned => absurd owned unowned⟩

theorem Nested.settled_rest (item : ι) :
    Settled rest after item ↔ Settled rest items item :=
  settled_congr fun ⟨_, mem, owned⟩ =>
    nested.mem_entered done (Nat.ne_of_gt (nested.level_rest mem owned))

theorem Nested.tail : Nested rules level target rest (first + 1) after where
  owns := nested.owns_rest
  fits other member := by
    refine (nested.fits other (mem_cons_of_mem _ member)).of_same fun item owned => ?_
    exact nested.mem_entered done (Nat.ne_of_gt (nested.level_rest member owned))
  lower item isTarget below := by
    rcases Nat.lt_succ_iff_lt_or_eq.mp below with below | here
    · exact (nested.mem_entered done (Nat.ne_of_lt below)).mpr (nested.lower item isTarget below)
    · have owned := (nested.owns_first item).mpr here
      rw [done item]
      refine (nested.targets _ mem_cons_self item owned isTarget).imp_right ?_
      exact fun ⟨present, unasked⟩ => ⟨present, fun _ => unasked⟩
  targets other member item owned isTarget := by
    rw [nested.mem_entered done (Nat.ne_of_gt (nested.level_rest member owned))]
    exact nested.targets other (mem_cons_of_mem _ member) item owned isTarget
  ready other member := nested.ready other (mem_cons_of_mem _ member)
  bare other member item present owned stale item' settled := by
    rw [nested.mem_entered done (Nat.ne_of_gt (nested.level_rest member owned))] at present
    rw [nested.settled_rest done] at settled
    refine nested.bare other (mem_cons_of_mem _ member) item present owned stale item' ?_
    obtain ⟨by_, inRest, left⟩ := settled
    exact ⟨by_, mem_cons_of_mem _ inRest, left⟩
  top item := by
    have bound := nested.top item
    rw [length_cons] at bound
    omega

end Nested

theorem render_settles {layers : List (Keyed ι δ κ × (κ → Option ι))}
    {target : ι → Prop} (leveled : Leveled rules level)
    (unique : Unique rules state.items)
    (nested : Nested rules level target layers first state.items) :
    ∃ after, render rules (layers.map fun layer => layer.1.plan order) state = .ok after ∧
      Unique rules after.items ∧ ∀ item, item ∈ after.items ↔
        if level item < first then item ∈ state.items else Settled layers state.items item := by
  induction layers generalizing state first with
  | nil =>
    refine ⟨state, rfl, unique, fun item => ?_⟩
    have below : level item < first := nested.top item
    rw [if_pos below]
  | cons layer rest ih =>
    obtain ⟨layer, want⟩ := layer
    have fits := nested.fits (layer, want) mem_cons_self
    obtain ⟨entered, ranEnter, uniqueEntered, done⟩ := fits.enter perm leveled unique
      nested.owns_first fun new wants => nested.ready _ mem_cons_self new wants _
        fun item isTarget below => nested.lower item isTarget (by
          rwa [(nested.owns_first new).mp (fits.wants_owned wants).1] at below)
    obtain ⟨inner, ranInner, uniqueInner, doneInner⟩ :=
      @ih ⟨entered, state.calls ++ (layer.plan order state.items).enter⟩ _ uniqueEntered
        (nested.tail done)
    have keptInner {item : ι} (below : level item < first + 1) :
        item ∈ inner.items ↔ item ∈ entered := by
      rw [doneInner item, if_pos below]
    obtain ⟨after, ranLeave, uniqueAfter, doneAfter⟩ := fits.leave perm leveled uniqueInner unique
      nested.owns_first
      (fun item present owned stale => by
        have here := (nested.owns_first item).mp owned
        rw [keptInner (by omega), done item]
        exact .inr ⟨present, fun _ => stale.unasked⟩)
      (fun item present owned stale other there => by
        refine Bool.eq_false_iff.mpr fun under => ?_
        have below := leveled.under under
        rw [(nested.owns_first item).mp owned] at below
        rw [doneInner other, if_neg (by omega), nested.settled_rest done] at there
        obtain ⟨by_, inRest, left⟩ := there
        have free := nested.bare _ mem_cons_self item present owned stale other
          ⟨by_, mem_cons_of_mem _ inRest, left⟩
        rw [under] at free
        cases free)
    refine ⟨⟨after, inner.calls ++ (layer.plan order state.items).leave⟩, ?_, uniqueAfter, ?_⟩
    · simp only [map_cons, render, ranEnter]
      exact (congrArg (· >>= _) ranInner).trans ranLeave
    intro item
    rw [doneAfter item]
    rcases Nat.lt_trichotomy (level item) first with below | here | above
    · have unowned : ¬ layer.owns item = true :=
        fun owned => Nat.ne_of_lt below ((nested.owns_first item).mp owned)
      rw [if_pos below, keptInner (by omega), nested.mem_entered done (Nat.ne_of_lt below)]
      exact and_iff_left fun ⟨_, owned, _⟩ => unowned owned
    · have owned := (nested.owns_first item).mpr here
      rw [if_neg (by omega), keptInner (by omega), done item]
      constructor
      · rintro ⟨wants | ⟨present, unasked⟩, kept⟩
        · exact ⟨_, mem_cons_self, owned, .inl wants⟩
        · exact ⟨_, mem_cons_self, owned, .inr ⟨present, unasked owned,
            fun stale => kept ⟨present, owned, stale⟩⟩⟩
      · rintro ⟨by_, mem, isOwned, left⟩
        obtain rfl : by_ = (layer, want) := by
          rcases mem_cons.mp mem with eq | inRest
          · exact eq
          · exact absurd here (Nat.ne_of_gt (nested.level_rest inRest isOwned))
        rcases left with wants | ⟨present, unasked, kept⟩
        · exact ⟨.inl wants, fun ⟨_, _, stale⟩ => (fits.wants_owned wants).2 stale.unasked⟩
        · exact ⟨.inr ⟨present, fun _ => unasked⟩, fun ⟨_, _, stale⟩ => kept stale⟩
    · have unowned : ¬ layer.owns item = true :=
        fun owned => Nat.ne_of_gt above ((nested.owns_first item).mp owned)
      rw [if_neg (by omega), doneInner item, if_neg (by omega), nested.settled_rest done]
      constructor
      · rintro ⟨⟨by_, inRest, left⟩, _⟩
        exact ⟨by_, mem_cons_of_mem _ inRest, left⟩
      · rintro ⟨by_, mem, left⟩
        refine ⟨⟨by_, ?_, left⟩, fun ⟨_, owned, _⟩ => unowned owned⟩
        rcases mem_cons.mp mem with rfl | inRest
        · exact absurd left.1 unowned
        · exact inRest

omit [DecidableEq δ] in
theorem Fits.plan_settled (fits : Fits rules layer want items)
    (steady : ∀ key entry, (key, entry) ∈ layer.entries → ∀ item, want key = some item →
      entry.update item = [])
    (settled : ∀ item, layer.owns item = true → (item ∈ after ↔ Left layer want items item)) :
    layer.plan order after = ⟨[], []⟩ := by
  have wanted {key : κ} {entry : Entry ι δ} (mem : (key, entry) ∈ layer.entries) {item : ι}
      (asked : want key = some item) : item ∈ after := by
    have owned := (fits.wanted key entry mem item asked).1
    exact (settled item owned).mpr ⟨owned, .inl ⟨key, mem_map.mpr ⟨_, mem, rfl⟩, asked⟩⟩
  -- an item that is left under the key of an entry is what the entry asks for
  have asks {key : κ} {entry : Entry ι δ} (mem : (key, entry) ∈ layer.entries) {item : ι}
      (present : item ∈ after) (owned : layer.owns item = true)
      (ofKey : layer.key item = .listed key) : want key = some item := by
    rcases ((settled item owned).mp present).2 with ⟨other, inConfig, asked⟩ | ⟨_, unasked, _⟩
    · obtain ⟨⟨_, entry'⟩, mem', rfl⟩ := mem_map.mp inConfig
      have ofOther := (fits.wanted _ entry' mem' item asked).2
      obtain rfl := key_unique ofKey ofOther
      exact asked
    · obtain ⟨other, ofOther, outside⟩ := unasked
      obtain rfl := key_unique ofKey ofOther
      exact absurd (mem_map.mpr ⟨_, mem, rfl⟩) outside
  have listed (item : ι) (present : item ∈ after) (owned : layer.owns item = true) :
      ∃ key, layer.key item = .listed key := by
    rcases ((settled item owned).mp present).2 with ⟨key, inConfig, asked⟩ | ⟨before, _⟩
    · obtain ⟨⟨_, entry⟩, mem, rfl⟩ := mem_map.mp inConfig
      exact ⟨_, (fits.wanted _ entry mem item asked).2⟩
    · exact fits.listed item before owned
  have apart (item : ι) (present : item ∈ after) (other : ι) (again : other ∈ after)
      (owned : layer.owns item = true) (owned' : layer.owns other = true)
      (eq : layer.key item = layer.key other) : item = other := by
    obtain ⟨key, ofKey⟩ := listed item present owned
    by_cases inConfig : key ∈ layer.entries.map Prod.fst
    · obtain ⟨⟨_, entry⟩, mem, rfl⟩ := mem_map.mp inConfig
      have first := asks mem present owned ofKey
      have second := asks mem again owned' (eq.symm.trans ofKey)
      exact Option.some.inj (first.symm.trans second)
    · have before {item : ι} (present : item ∈ after) (owned : layer.owns item = true)
          (ofKey : layer.key item = .listed key) : item ∈ items := by
        rcases ((settled item owned).mp present).2 with wants | ⟨before, _⟩
        · exact absurd ⟨key, ofKey, inConfig⟩ (fits.wants_owned wants).2
        · exact before
      exact fits.apart item (before present owned ofKey) other
        (before again owned' (eq.symm.trans ofKey)) owned owned' eq
  obtain ⟨live, isLive, _, lookup⟩ := exists_live listed apart
  simp only [Keyed.plan, isLive, Plan.mk.injEq, append_eq_nil_iff, flatMap_eq_nil_iff]
  refine ⟨⟨fun key mem => ?_, fun key mem => ?_⟩, fun key mem => ?_⟩
  · obtain ⟨inConfig, absent⟩ := mem_filter.mp ((perm _).subset mem)
    have missing : live.lookup key = none := Dict.lookup_eq_none.mpr (of_decide_eq_true absent)
    obtain ⟨entry, found⟩ := Dict.exists_lookup.mpr inConfig
    have inEntries := (lookup_config fits.distinct).mp found
    have unasked : want key = none := by
      refine Option.eq_none_iff_forall_ne_some.mpr fun item asked => ?_
      obtain ⟨owned, ofKey⟩ := fits.wanted key entry inEntries item asked
      rw [(lookup key item).mpr ⟨wanted inEntries asked, owned, ofKey⟩] at missing
      cases missing
    have adds := fits.add key entry inEntries fun item present owned ofKey => by
      obtain ⟨new, asked, _⟩ := fits.update key entry inEntries item present owned ofKey
      rw [unasked] at asked
      cases asked
    rw [found, Option.elim_some, adds, unasked]
    rfl
  · obtain ⟨inConfig, present⟩ := mem_filter.mp ((perm _).subset mem)
    obtain ⟨entry, found⟩ := Dict.exists_lookup.mpr inConfig
    obtain ⟨item, there⟩ := Dict.exists_lookup.mpr (of_decide_eq_true present)
    have inEntries := (lookup_config fits.distinct).mp found
    obtain ⟨inAfter, owned, ofKey⟩ := (lookup key item).mp there
    rw [found, there]
    exact steady key entry inEntries item (asks inEntries inAfter owned ofKey)
  · obtain ⟨inLive, outside⟩ := mem_filter.mp ((perm _).subset mem)
    simp only [Bool.and_eq_true, decide_eq_true_eq, Bool.not_eq_true',
      mem_keys_config fits.distinct] at outside
    obtain ⟨item, there⟩ := Dict.exists_lookup.mpr inLive
    obtain ⟨inAfter, owned, ofKey⟩ := (lookup key item).mp there
    rcases ((settled item owned).mp inAfter).2 with wants | ⟨_, _, kept⟩
    · exact absurd ⟨key, ofKey, outside.1⟩ (fits.wants_owned wants).2
    · exact absurd ⟨key, ofKey, outside⟩ kept

end Phases

theorem render_settled {plans : List (List ι → Plan ι δ)}
    (nothing : ∀ plan ∈ plans, plan state.items = ⟨[], []⟩) :
    render rules plans state = .ok state := by
  induction plans with
  | nil => rfl
  | cons plan rest ih =>
    have inner := ih fun other mem => nothing other (mem_cons_of_mem _ mem)
    simp only [render, nothing plan mem_cons_self, execAll_nil]
    exact congrArg (· >>= execAll rules []) inner

theorem render_skip {plan : List ι → Plan ι δ} (nothing : ∀ items, plan items = ⟨[], []⟩)
    (front back : List (List ι → Plan ι δ)) (state : State ι δ) :
    render rules (front ++ plan :: back) state = render rules (front ++ back) state := by
  induction front generalizing state with
  | nil =>
    simp only [nil_append, render, nothing, execAll_nil]
    change (render rules back state >>= fun inner => execAll rules [] inner) = _
    cases render rules back state <;> rfl
  | cons first rest ih => simp only [cons_append, render, ih]

end Reconcile
