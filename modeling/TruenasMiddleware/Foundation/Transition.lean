import Mathlib.Logic.Relation

/-! Runs of a labelled transition system given by a partial step function.
`none` means that the label is not enabled. Every run carries a condition on
the state before a step and its label, so that "in every run whose steps all
meet `ok`" is a statement about `Reach step ok`; `Always` is the empty one. -/

namespace Transition

variable {σ α : Type*}

def Always : σ → α → Prop := fun _ _ => True

instance (s : σ) (a : α) : Decidable (Always s a) := .isTrue trivial

inductive Reach (step : σ → α → Option σ) (ok : σ → α → Prop) (start : σ) : σ → Prop
  | start : Reach step ok start start
  | next {s t : σ} {a : α} : Reach step ok start s → ok s a → step s a = some t →
      Reach step ok start t

variable {step : σ → α → Option σ} {ok : σ → α → Prop} {start s t : σ}
  {P : σ → Prop} {labels : List α}

theorem Reach.invariant_of_reach (init : P start)
    (keep : ∀ s a t, Reach step ok start s → P s → ok s a → step s a = some t → P t)
    (reached : Reach step ok start s) : P s := by
  induction reached with
  | start => exact init
  | next before met taken ih => exact keep _ _ _ before ih met taken

theorem Reach.invariant (init : P start)
    (keep : ∀ s a t, P s → ok s a → step s a = some t → P t)
    (reached : Reach step ok start s) : P s :=
  reached.invariant_of_reach init fun s a t _ => keep s a t

theorem Reach.always (reached : Reach step ok start s) : Reach step Always start s := by
  induction reached with
  | start => exact .start
  | next _ _ taken ih => exact .next ih trivial taken

/-- Execute a list of labels; `none` as soon as one of them is not enabled or
does not meet the condition. -/
def exec (step : σ → α → Option σ) (ok : σ → α → Prop) [∀ s a, Decidable (ok s a)] :
    σ → List α → Option σ
  | s, [] => some s
  | s, a :: rest => if ok s a then (step s a).bind fun t => exec step ok t rest else none

theorem exec_always_cons (s : σ) (a : α) (rest : List α) :
    exec step Always s (a :: rest) = (step s a).bind fun t => exec step Always t rest :=
  if_pos trivial

theorem reach_exec [∀ s a, Decidable (ok s a)]
    (reached : Reach step ok start s) (run : exec step ok s labels = some t) :
    Reach step ok start t := by
  induction labels generalizing s with
  | nil =>
    cases run
    exact reached
  | cons a rest ih =>
    rw [exec] at run
    split at run
    · rename_i met
      obtain ⟨u, taken, run⟩ := Option.bind_eq_some_iff.mp run
      exact ih (.next reached met taken) run
    · cases run

theorem exists_reach [∀ s a, Decidable (ok s a)] (labels : List α)
    (run : ∃ s, exec step ok start labels = some s ∧ P s) : ∃ s, Reach step ok start s ∧ P s :=
  run.imp fun _ => And.imp_left (reach_exec .start)

theorem exists_reach_of_exec [∀ s a, Decidable (ok s a)] [DecidablePred P] (labels : List α)
    (found : (exec step ok start labels).any fun s => decide (P s)) :
    ∃ s, Reach step ok start s ∧ P s := by
  obtain ⟨s, run, holds⟩ := (Option.any_eq_true _ _).mp found
  exact exists_reach labels ⟨s, run, of_decide_eq_true holds⟩

theorem exists_reach_of_run [∀ s a, Decidable (ok s a)] [DecidablePred P] {Q : σ → Prop}
    (labels : List α) (found : (exec step ok start labels).any fun s => decide (P s))
    (follows : ∀ s, Reach step ok start s → P s → Q s) : ∃ s, Reach step ok start s ∧ Q s := by
  obtain ⟨s, reached, holds⟩ := exists_reach_of_exec labels found
  exact ⟨s, reached, follows s reached holds⟩

section Calls

-- calls that run side by side, each at its stage
variable {calls : List σ} {i j : Nat} {new stage : σ}

theorem getElem?_append_new (found : (calls ++ [new])[j]? = some stage) :
    calls[j]? = some stage ∨ stage = new := by
  rw [List.getElem?_append] at found
  split at found
  · exact .inl found
  · exact .inr (List.mem_singleton.mp (List.mem_of_getElem? found))

theorem getElem?_move (found : (calls.set i new)[j]? = some stage) :
    j = i ∧ stage = new ∨ j ≠ i ∧ calls[j]? = some stage := by
  rw [List.getElem?_set] at found
  split at found
  · rename_i eq
    split at found
    · exact .inl ⟨eq.symm, (Option.some.inj found).symm⟩
    · cases found
  · rename_i other
    exact .inr ⟨Ne.symm other, found⟩

end Calls

end Transition
