import TruenasMiddleware.Foundation.Fallible

/-! Computations that may raise and that record what they have done. The record survives an
exception, so that a computation that raises is judged by what it did before. The rules say when a
property of the record holds after a computation, one step at a time. -/

namespace Recorded

/-- A computation with exceptions `ε` that records entries `β`. -/
abbrev Run (ε β α : Type) := ExceptT ε (StateM (List β)) α

variable {ε β α γ : Type}

def attempt (x : Except ε α) : Run ε β α :=
  ExceptT.mk (pure x)

def perform (x : Except ε Unit) (entry : β) : Run ε β Unit :=
  ExceptT.mk fun record => match x with
    | .ok _ => (.ok (), record ++ [entry])
    | .error e => (.error e, record)

def recordAfter (run : Run ε β α) (record : List β) : List β :=
  (StateT.run (m := Id) run.run record).2

@[simp] theorem recordAfter_attempt (x : Except ε α) (record : List β) :
    recordAfter (attempt x) record = record := rfl

section Rules

variable {Q : List β → Prop} {record : List β} {entry : β} {x : Except ε α} {y : Except ε Unit}
  {f : α → Run ε β γ} {g : Unit → Run ε β γ}

theorem attempt_bind_iff_of_good (good : Q record) :
    Q (recordAfter (attempt x >>= f) record) ↔ ∀ a, x = .ok a → Q (recordAfter (f a) record) := by
  cases x with
  | error e => exact iff_of_true good fun _ returns => by cases returns
  | ok a =>
    refine ⟨fun after b returns => ?_, fun after => after a rfl⟩
    obtain rfl : a = b := Except.ok.inj returns
    exact after

theorem perform_bind_iff_of_good (good : Q record) :
    Q (recordAfter (perform y entry >>= g) record) ↔
      (y = .ok () → Q (recordAfter (g ()) (record ++ [entry]))) := by
  cases y with
  | error e => exact iff_of_true good fun returns => by cases returns
  | ok => exact ⟨fun after _ => after, fun after => after rfl⟩

theorem attempt_bind_iff_of_bad (bad : ¬Q record) :
    Q (recordAfter (attempt x >>= f) record) ↔ ∃ a, x = .ok a ∧ Q (recordAfter (f a) record) := by
  cases x with
  | error e => exact iff_of_false bad fun ⟨_, returns, _⟩ => by cases returns
  | ok a =>
    refine ⟨fun after => ⟨a, rfl, after⟩, fun ⟨b, returns, after⟩ => ?_⟩
    obtain rfl : a = b := Except.ok.inj returns
    exact after

theorem perform_bind_iff_of_bad (bad : ¬Q record) : Q (recordAfter (perform y entry >>= g) record) ↔
      y = .ok () ∧ Q (recordAfter (g ()) (record ++ [entry])) := by
  cases y with
  | error e => exact iff_of_false bad fun ⟨returns, _⟩ => by cases returns
  | ok => exact ⟨fun after => ⟨rfl, after⟩, fun both => both.2⟩

end Rules

end Recorded
