import Mathlib.Data.List.Basic

/-! Computations in `Except` and `Option` that have returned: what has returned on the
way, what a loop has added up, and what it has kept. -/

namespace Fallible

open List

variable {ε α β γ σ : Type} {x : Except ε α} {y : β} {list : List α}

theorem bind_eq_ok {f : α → Except ε β} : (x >>= f) = .ok y ↔ ∃ a, x = .ok a ∧ f a = .ok y := by
  cases x with
  | error | ok => simp [bind, Except.bind]

theorem bind_unit_eq_ok {x : Except ε Unit} {f : Unit → Except ε α} {y : α} :
    (x >>= f) = .ok y ↔ x = .ok () ∧ f () = .ok y := by
  rw [bind_eq_ok]
  exact ⟨fun ⟨_, first, later⟩ => ⟨first, later⟩, fun ⟨first, later⟩ => ⟨(), first, later⟩⟩

theorem map_eq_ok {f : α → β} : x.map f = .ok y ↔ ∃ a, x = .ok a ∧ f a = y := by
  cases x with
  | error | ok => simp [Except.map]

theorem forM_eq_ok {f : α → Except ε Unit} : forM list f = .ok () ↔ ∀ a ∈ list, f a = .ok () := by
  induction list with
  | nil => simp [pure, Except.pure]
  | cons a rest ih =>
    rw [forM_cons, bind_unit_eq_ok, forall_mem_cons, ih]

theorem foldlM_flatMap {body : σ → α → Except ε σ} {given : α → List γ}
    {Adds : List γ → σ → σ → Prop} {before after : σ}
    (run : list.foldlM body before = .ok after) (nil : ∀ state, Adds [] state state)
    (append : ∀ first second before middle after, Adds first before middle →
      Adds second middle after → Adds (first ++ second) before after)
    (turn : ∀ before a after, body before a = .ok after → Adds (given a) before after) :
    Adds (list.flatMap given) before after := by
  induction list generalizing before with
  | nil =>
    obtain rfl : before = after := Except.ok.inj run
    exact nil before
  | cons a rest ih =>
    rw [foldlM_cons] at run
    obtain ⟨middle, first, later⟩ := bind_eq_ok.mp run
    rw [flatMap_cons]
    exact append _ _ before middle after (turn before a middle first) (ih later)

theorem findM?_stops {p : α → Option Bool} {found : Option α} (run : list.findM? p = some found) :
    ∃ before, (∀ a ∈ before, p a = some false) ∧ (found = none ∧ list = before ∨
      ∃ a rest, found = some a ∧ list = before ++ a :: rest ∧ p a = some true) := by
  induction list with
  | nil =>
    cases run
    exact ⟨[], nofun, .inl ⟨rfl, rfl⟩⟩
  | cons a rest ih =>
    obtain ⟨answer, first, later⟩ := Option.bind_eq_some_iff.mp run
    cases answer with
    | false =>
      obtain ⟨before, others, ⟨absent, rfl⟩ | ⟨b, after, given, rfl, here⟩⟩ := ih later
      · exact ⟨a :: rest, forall_mem_cons.mpr ⟨first, others⟩, .inl ⟨absent, rfl⟩⟩
      · exact ⟨a :: before, forall_mem_cons.mpr ⟨first, others⟩, .inr ⟨b, after, given, rfl, here⟩⟩
    | true =>
      cases later
      exact ⟨[], nofun, .inr ⟨a, rest, rfl, rfl, first⟩⟩

section Optional

variable {σ β : Type*} {turn : σ → β → Option σ} {P : σ → Prop} {items : List β} {start result : σ}

theorem foldlM_some {Q : β → Prop} (init : P start)
    (keep : ∀ s b t, P s → turn s b = some t → P t ∧ Q b)
    (run : items.foldlM turn start = some result) : P result ∧ ∀ b ∈ items, Q b := by
  induction items generalizing start with
  | nil =>
    cases run
    exact ⟨init, forall_mem_nil _⟩
  | cons b rest ih =>
    rw [foldlM_cons] at run
    obtain ⟨next, taken, run⟩ := Option.bind_eq_some_iff.mp run
    obtain ⟨kept, here⟩ := keep start b next init taken
    obtain ⟨final, later⟩ := ih kept run
    exact ⟨final, forall_mem_cons.mpr ⟨here, later⟩⟩

theorem exists_foldlM_some (init : P start)
    (keep : ∀ s, P s → ∀ b ∈ items, ∃ t, turn s b = some t ∧ P t) :
    ∃ result, items.foldlM turn start = some result := by
  induction items generalizing start with
  | nil => exact ⟨start, rfl⟩
  | cons b rest ih =>
    obtain ⟨next, taken, kept⟩ := keep start init b mem_cons_self
    obtain ⟨result, run⟩ := ih kept fun s known c mem =>
      keep s known c (mem_cons_of_mem b mem)
    refine ⟨result, ?_⟩
    rw [foldlM_cons, taken]
    exact run

end Optional

end Fallible
