import TruenasMiddleware.Foundation.Kinds

/-! What the calls of a reconciliation can do to the items, whether or not the run gets through. A
property that the calls of every component keep holds of what any run leaves. -/

namespace Reconcile

open List

variable {α ι δ κ : Type*} [DecidableEq δ] [DecidableEq κ] {rules : Rules ι δ}

def outcome : Except (State ι δ) (State ι δ) → State ι δ
  | .ok state => state
  | .error state => state

inductive Effect (rules : Rules ι δ) : Call ι δ → List ι → List ι → Prop
  | none {call : Call ι δ} {items : List ι} : Effect rules call items items
  | add {item : ι} {items : List ι} (free : ∀ other ∈ items, rules.ident other ≠ rules.ident item) :
      Effect rules (.add item) items (items ++ [item])
  | remove {ident : δ} {items : List ι} :
      Effect rules (.remove ident) items (without rules ident items)
  | alter {item : ι} {items : List ι} :
      Effect rules (.alter item) items (altered rules item items)

theorem exec_effect (state : State ι δ) (call : Call ι δ) :
    Effect rules call state.items (outcome (exec rules state call)).items := by
  cases call with
  | fail => exact .none
  | add item =>
    rw [exec]
    split
    · exact .none
    · next accepted =>
      refine .add fun other mem eq => accepted ?_
      rw [any_eq_true.mpr ⟨other, mem, decide_eq_true eq⟩, Bool.true_or]
  | remove ident =>
    rw [exec]
    split
    · exact .remove
    · exact .none
  | alter item =>
    rw [exec]
    split
    · exact .alter
    · exact .none

omit [DecidableEq κ] in
theorem Effect.unique {call : Call ι δ} {items after : List ι}
    (effect : Effect rules call items after) (unique : Unique rules items) :
    Unique rules after := by
  cases effect with
  | none => exact unique
  | add free =>
    intro item mem other mem' eq
    rcases mem_append.mp mem with old | new <;> rcases mem_append.mp mem' with old' | new'
    · exact unique item old other old' eq
    · exact absurd (mem_singleton.mp new' ▸ eq) (free item old)
    · exact absurd (mem_singleton.mp new ▸ eq.symm) (free other old')
    · exact (mem_singleton.mp new).trans (mem_singleton.mp new').symm
  | remove =>
    intro item mem other mem'
    exact unique item (mem_filter.mp mem).1 other (mem_filter.mp mem').1
  | @alter new _ =>
    intro item mem other mem' eq
    obtain ⟨old, present, rfl⟩ := mem_map.mp mem
    obtain ⟨old', present', rfl⟩ := mem_map.mp mem'
    by_cases here : rules.ident old = rules.ident new <;>
      by_cases there : rules.ident old' = rules.ident new
    · rw [if_pos here, if_pos there]
    · rw [if_pos here, if_neg there] at eq
      exact absurd eq.symm there
    · rw [if_neg here, if_pos there] at eq
      exact absurd eq here
    · rw [if_neg here, if_neg there] at eq ⊢
      exact unique old present old' present' eq

/-! ### Properties that calls keep -/

section Keeps

variable {P : List ι → Prop} {Good : Call ι δ → Prop}
  (keep : ∀ {call : Call ι δ} {items after : List ι}, Good call → Effect rules call items after →
    P items → P after)

include keep

variable {state : State ι δ}

omit [DecidableEq κ] in
theorem execAll_keeps {calls : List (Call ι δ)} (good : ∀ call ∈ calls, Good call)
    (start : P state.items) : P (outcome (execAll rules calls state)).items := by
  induction calls generalizing state with
  | nil => exact start
  | cons call rest ih =>
    have next : P (outcome (exec rules state call)).items :=
      keep (good call mem_cons_self) (exec_effect state call) start
    rw [execAll, foldlM_cons]
    cases done : exec rules state call with rw [done] at next
    | error after =>
      exact next
    | ok after =>
      exact ih (fun other mem => good other (mem_cons_of_mem _ mem)) next

omit [DecidableEq κ] in
theorem render_keeps {plans : List (List ι → Plan ι δ)}
    (good : ∀ plan ∈ plans, ∀ items, ∀ call ∈ (plan items).enter ++ (plan items).leave, Good call)
    (start : P state.items) :
    P (outcome (render rules plans state)).items := by
  induction plans generalizing state with
  | nil => exact start
  | cons plan rest ih =>
    have calls := good plan mem_cons_self state.items
    have entered := execAll_keeps keep (fun call mem => calls call (mem_append_left _ mem)) start
    rw [render]
    cases enter : execAll rules (plan state.items).enter state with
    | error after =>
      rw [enter] at entered
      exact entered
    | ok after =>
      have entered : P after.items := by
        rw [enter] at entered
        exact entered
      have inner := ih (fun other mem => good other (mem_cons_of_mem _ mem)) entered
      change P (outcome (render rules rest after >>= execAll rules _)).items
      cases inside : render rules rest after with rw [inside] at inner
      | error stopped => exact inner
      | ok settled =>
        exact execAll_keeps keep (fun call mem => calls call (mem_append_right _ mem)) inner

end Keeps

/-! ### The calls of a layer -/

section Calls

omit [DecidableEq δ]

variable {items : List ι} {order : List κ → List κ} {call : Call ι δ} {kind : Kind α ι δ κ}
  {objects : List α}

theorem mem_live {layer : Keyed ι δ κ} {live : List (κ × ι)} (isLive : layer.live items = some live)
    {key : κ} {item : ι} (found : live.lookup key = some item) :
    item ∈ items ∧ layer.owns item = true ∧ layer.key item = .listed key := by
  rw [Keyed.live] at isLive
  split at isLive <;> cases isLive
  rcases Dict.mem_writes (Dict.mem_of_lookup found) with old | ⟨source, mem, written⟩
  · cases old
  · obtain ⟨present, owned⟩ := mem_filter.mp mem
    obtain ⟨ofSource, rfl⟩ := listing_eq_some.mp written
    exact ⟨present, owned, ofSource⟩

theorem mem_config {key : κ} {entry : Entry ι δ}
    (found : (kind.layer objects).config.lookup key = some entry) :
    ∃ object ∈ objects, kind.key object = some key ∧
      entry = ⟨kind.add object, kind.update object⟩ := by
  rcases Dict.mem_writes (Dict.mem_of_lookup found) with old | ⟨source, mem, written⟩
  · cases old
  · cases written
    exact mem_entries.mp mem

theorem mem_plan_enter (mem : call ∈ ((kind.layer objects).plan order items).enter) :
    call = .fail ∨ ∃ object ∈ objects, call ∈ kind.add object ∨
      ∃ item ∈ items, kind.owns item = true ∧ call ∈ kind.update object item := by
  rw [Keyed.plan] at mem
  split at mem
  · exact .inl (mem_singleton.mp mem)
  · next live isLive =>
    refine .inr ?_
    rcases mem_append.mp mem with added | updated
    · obtain ⟨key, _, inCalls⟩ := mem_flatMap.mp added
      cases found : (kind.layer objects).config.lookup key with rw [found] at inCalls
      | none => cases inCalls
      | some entry =>
        obtain ⟨object, inside, _, rfl⟩ := mem_config found
        exact ⟨object, inside, .inl inCalls⟩
    · obtain ⟨key, _, inCalls⟩ := mem_flatMap.mp updated
      split at inCalls
      · next entry item found there =>
        obtain ⟨object, inside, _, rfl⟩ := mem_config found
        obtain ⟨present, owned, _⟩ := mem_live isLive there
        exact ⟨object, inside, .inr ⟨item, present, owned, inCalls⟩⟩
      · cases inCalls

theorem mem_plan_leave (perm : ∀ keys, (order keys).Perm keys)
    (mem : call ∈ ((kind.layer objects).plan order items).leave) :
    ∃ item, kind.owns item = true ∧ call ∈ kind.delete item ∧
      ∃ key, kind.listing item = .listed key ∧ kind.keeps key = false := by
  rw [Keyed.plan] at mem
  split at mem
  · cases mem
  · next live isLive =>
    obtain ⟨key, inKeys, inCalls⟩ := mem_flatMap.mp mem
    have dropped := (Bool.and_eq_true_iff.mp (mem_filter.mp ((perm _).subset inKeys)).2).2
    cases there : live.lookup key with rw [there] at inCalls
    | none => cases inCalls
    | some item =>
      obtain ⟨_, owned, listed⟩ := mem_live isLive there
      exact ⟨item, owned, inCalls, key, listed, Bool.not_eq_true' _ ▸ dropped⟩

end Calls

end Reconcile
