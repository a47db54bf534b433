import Mathlib.Logic.Function.Basic
import Mathlib.Tactic.SplitIfs

/-! The expiry of values in the `KVCache` of `plugins/cache.py`. Times and timeouts are counted in
ticks of the clock, whose readings are floats in the source; no timeout is negative. -/

namespace TruenasMiddleware.Tdb.KvCache

variable {Value : Type}

structure Entry (Value : Type) where
  timeout : Nat
  value : Value

structure State (Value : Type) where
  store : String → Option (Entry Value) := fun _ => none
  /-- What was stored last under a key and until when it is valid; not read by the program. -/
  last : String → Option (Value × Option Nat) := fun _ => none

inductive Call (Value : Type)
  | put (key : String) (value : Value) (timeout : Nat)
  | get (key : String)
  | pop (key : String)
  /-- With what `method` returns if it is called. -/
  | getOrPut (key : String) (timeout : Nat) (value : Value)
  | hasKey (key : String)
  | cleanupExpired

def expired (now : Nat) (entry : Entry Value) : Bool :=
  entry.timeout != 0 && decide (entry.timeout < now)

namespace State

variable (state : State Value) (now : Nat)

def get (key : String) : Option Value :=
  ((state.store key).filter fun entry => !expired now entry).map Entry.value

def hasKey (key : String) : Bool := (state.store key).isSome

def remove (key : String) : State Value :=
  { state with store := Function.update state.store key none }

def save (key : String) (value : Value) (timeout stored : Nat) : State Value where
  store := Function.update state.store key (some ⟨stored, value⟩)
  last := Function.update state.last key
    (some (value, if timeout = 0 then none else some (now + timeout)))

/-- `get_or_put` stores a timeout of 0 as any other. -/
def step : Call Value → State Value
  | .put key value timeout =>
    state.save now key value timeout (if timeout = 0 then 0 else now + timeout)
  | .get key => if (state.get now key).isSome then state else state.remove key
  | .pop key => state.remove key
  | .getOrPut key timeout value =>
    if (state.get now key).isSome then state else state.save now key value timeout (now + timeout)
  | .hasKey _ => state
  | .cleanupExpired =>
    { state with store := fun key => (state.store key).filter fun entry => !expired now entry }

/-- The value is the last one stored under the key, and still valid. -/
def Valid (key : String) (value : Value) : Prop :=
  ∃ deadline, state.last key = some (value, deadline) ∧ ∀ time ∈ deadline, now ≤ time

def Right : Call Value → Prop
  | .put _ _ _ => True
  | .get key => ∀ value ∈ state.get now key, state.Valid now key value
  | .pop key => ∀ entry ∈ state.store key, state.Valid now key entry.value
  | .getOrPut key timeout value => (state.step now (.getOrPut key timeout value)).Valid now key
      ((state.get now key).getD value)
  | .hasKey key => state.hasKey key = (state.get now key).isSome
  | .cleanupExpired => ∀ key, (state.step now .cleanupExpired).store key ≠ state.store key →
      state.get now key = none

/-- `pop` and `has_key` do not look at the timeout. -/
def Timely : Call Value → Prop
  | .pop key => ∀ entry ∈ state.store key, ∀ saved ∈ state.last key, ∀ time ∈ saved.2, now ≤ time
  | .hasKey key => ∀ entry ∈ state.store key, expired now entry = false
  | _ => True

/-- What is stored was stored last, and its deadline is its timeout. -/
def Inv : Prop :=
  ∀ key, ∀ entry ∈ state.store key, ∃ deadline, state.last key = some (entry.value, deadline) ∧
    ∀ time ∈ deadline, time ≠ 0 ∧ entry.timeout = time

end State

variable {state : State Value} {now : Nat}

theorem State.Inv.valid (inv : state.Inv) {key : String} {value : Value}
    (found : value ∈ state.get now key) : state.Valid now key value := by
  obtain ⟨entry, kept, rfl⟩ := Option.map_eq_some_iff.mp found
  obtain ⟨stored, fresh⟩ := Option.filter_eq_some_iff.mp kept
  obtain ⟨deadline, last, eq⟩ := inv key entry stored
  refine ⟨deadline, last, fun time mem => ?_⟩
  obtain ⟨nonzero, rfl⟩ := eq time mem
  simpa [expired, nonzero] using fresh

theorem State.Inv.save (inv : state.Inv) (key : String) (value : Value) {timeout stored : Nat}
    (agrees : timeout ≠ 0 → stored = now + timeout) :
    (state.save now key value timeout stored).Inv := by
  intro other entry found
  by_cases eq : other = key
  · subst eq
    simp only [State.save, Function.update_self, Option.mem_def, Option.some.injEq] at found ⊢
    subst found
    refine ⟨_, rfl, fun time mem => ?_⟩
    split_ifs at mem with none
    cases mem
    exact ⟨by omega, agrees none⟩
  · simp only [State.save, Function.update_of_ne eq] at found ⊢
    exact inv other entry found

theorem State.Inv.step (inv : state.Inv) (call : Call Value) : (state.step now call).Inv := by
  have removed (key : String) : (state.remove key).Inv := by
    intro other entry found
    by_cases eq : other = key
    · simp [State.remove, eq] at found
    · exact inv other entry (by simpa [State.remove, eq] using found)
  cases call with
  | put key value timeout => exact inv.save key value fun nonzero => if_neg nonzero
  | get key =>
    rw [State.step]
    split_ifs
    · exact inv
    · exact removed key
  | pop key => exact removed key
  | getOrPut key timeout value =>
    rw [State.step]
    split_ifs
    · exact inv
    · exact inv.save key value fun _ => rfl
  | hasKey key => exact inv
  | cleanupExpired =>
    exact fun key entry found => inv key entry (Option.filter_eq_some_iff.mp found).1

theorem State.Inv.right_iff (inv : state.Inv) (call : Call Value) :
    state.Right now call ↔ state.Timely now call := by
  cases call with
  | put key value timeout => exact Iff.rfl
  | get key => exact iff_of_true (fun value => inv.valid) trivial
  | pop key =>
    refine forall₂_congr fun entry stored => ?_
    obtain ⟨deadline, last, -⟩ := inv key entry stored
    simp [State.Valid, last]
  | getOrPut key timeout value =>
    refine iff_of_true ?_ trivial
    rw [State.Right, State.step]
    cases found : state.get now key with
    | some cached => exact inv.valid found
    | none =>
      refine ⟨_, Function.update_self .., fun time mem => ?_⟩
      split_ifs at mem <;> cases mem
      exact Nat.le_add_right now timeout
  | hasKey key =>
    rw [State.Right, State.Timely, State.hasKey, State.get]
    cases state.store key with
    | none => simp
    | some entry => cases old : expired now entry <;> simp [old]
  | cleanupExpired =>
    refine iff_of_true (fun key changed => ?_) trivial
    simp only [State.step, State.get] at changed ⊢
    cases stored : state.store key with
    | none => rfl
    | some entry =>
      cases old : expired now entry <;> simp_all

/-- The state after the calls, each at its time. -/
def run (calls : List (Nat × Call Value)) : State Value :=
  calls.foldl (fun state call => state.step call.1 call.2) {}

theorem inv_run (calls : List (Nat × Call Value)) : (run calls).Inv :=
  calls.foldlRecOn _ (fun _ _ stored => by cases stored) fun _ inv call _ => inv.step call.2

/-- An answer is right unless `pop` is called for a key whose value has expired, or `has_key` for
one whose stored timeout has passed. -/
theorem cache_right_iff (calls : List (Nat × Call Value)) (now : Nat) (call : Call Value) :
    (run calls).Right now call ↔ (run calls).Timely now call :=
  (inv_run calls).right_iff call

/-- A value that has expired is said to be there and popped. -/
theorem expired_value_served :
    let state := run [(1, .put "key" 7 5)]
    state.get 9 "key" = none ∧ state.hasKey "key" = true ∧
      ((state.store "key").map Entry.value) = some 7 ∧ ¬ state.Valid 9 "key" 7 := by
  refine ⟨by decide, by decide, by decide, ?_⟩
  rintro ⟨deadline, last, inside⟩
  cases last
  exact absurd (inside 6 rfl) (by decide)

end TruenasMiddleware.Tdb.KvCache
