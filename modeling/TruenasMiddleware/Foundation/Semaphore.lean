import Mathlib.Data.Finset.Card

/-! `asyncio.Semaphore` as a single event loop can observe it, with the task cancellation that
`acquire()` meets at its only suspension point. `release()` hands its permit to a waiting task,
which runs later; a cancellation in between makes it give the permit back. Which waiting task is
woken, and whether a new one may overtake those that wait, is left open. -/

namespace Asyncio

open Function

/-- Where a task is with respect to one semaphore. -/
inductive Place
  | outside
  /-- Suspended in `acquire()`, its future pending. -/
  | pending
  /-- The future has its result, the task has not run since. -/
  | woken
  /-- As `woken`, and the task has been cancelled since. -/
  | revoked
  /-- The future was cancelled, the task has not run since. -/
  | withdrawn
  | inside
deriving DecidableEq

def Place.holds : Place → Bool
  | .woken | .revoked | .inside => true
  | .outside | .pending | .withdrawn => false

def Place.present : Place → Bool
  | .outside => false
  | .pending | .woken | .revoked | .withdrawn | .inside => true

def Place.isInside (place : Place) : Bool := place = .inside

structure Semaphore (α : Type*) where
  value : Nat
  place : α → Place
  tasks : Finset α
  known : ∀ task, place task ≠ .outside → task ∈ tasks

namespace Semaphore

variable {α : Type*}

def create (value : Nat) : Semaphore α := ⟨value, fun _ => .outside, ∅, fun _ h => absurd rfl h⟩

def number (p : Place → Bool) (s : Semaphore α) : Nat :=
  (s.tasks.filter fun task => p (s.place task)).card

def permits (s : Semaphore α) : Nat := s.value + s.number Place.holds

theorem number_create (p : Place → Bool) (value : Nat) :
    (create value : Semaphore α).number p = 0 :=
  rfl

theorem permits_create (value : Nat) : (create value : Semaphore α).permits = value :=
  rfl

theorem inside_le_permits (s : Semaphore α) : s.number Place.isInside ≤ s.permits := by
  have holding : s.number Place.isInside ≤ s.number Place.holds := by
    refine Finset.card_le_card (Finset.monotone_filter_right _ fun task _ mem => ?_)
    rw [of_decide_eq_true mem, Place.holds]
  exact holding.trans (Nat.le_add_left _ _)

structure Moves (s s' : Semaphore α) (source dest : Place) : Prop where
  number : ∀ p : Place → Bool, p .outside = false →
    s'.number p + (p source).toNat = s.number p + (p dest).toNat
  permits : s'.permits = s.permits

section Moves

variable {s s' : Semaphore α} {source dest : Place} {p : Place → Bool}
  (moves : Moves s s' source dest)
include moves

variable (absent : p .outside = false)
include absent

theorem Moves.joins
    (before : p source = false) (after : p dest = true) : s'.number p = s.number p + 1 := by
  simpa [before, after] using moves.number p absent

theorem Moves.stays (eq : p source = p dest) : s'.number p = s.number p := by
  simpa [eq] using moves.number p absent

theorem Moves.leaves
    (before : p source = true) (after : p dest = false) : s'.number p + 1 = s.number p := by
  simpa [before, after] using moves.number p absent

end Moves

variable [DecidableEq α]

def move (task : α) (dest : Place) (value : Nat) (s : Semaphore α) : Semaphore α where
  value := value
  place := update s.place task dest
  tasks := insert task s.tasks
  known other present := by
    by_cases same : other = task
    · exact same ▸ Finset.mem_insert_self _ _
    · rw [update_of_ne same] at present
      exact Finset.mem_insert_of_mem (s.known other present)

/-- `acquire()` up to its suspension point. -/
def acquire (task : α) (atOnce : Bool) (s : Semaphore α) : Option (Semaphore α) :=
  if s.place task ≠ .outside then none
  else if atOnce = false then some (s.move task .pending s.value)
  else if 0 < s.value then some (s.move task .inside (s.value - 1))
  else none

def wake (task : α) (s : Semaphore α) : Option (Semaphore α) :=
  if s.place task = .pending ∧ 0 < s.value then some (s.move task .woken (s.value - 1)) else none

/-- `task.cancel()`. A task that is not suspended in `acquire()` gets the
exception elsewhere. -/
def cancel (task : α) (s : Semaphore α) : Semaphore α :=
  match s.place task with
  | .pending => s.move task .withdrawn s.value
  | .woken => s.move task .revoked s.value
  | .outside | .revoked | .withdrawn | .inside => s

/-- The suspended task runs again: `acquire()` returns or raises `CancelledError`. -/
def resume (task : α) (s : Semaphore α) : Option (Semaphore α) :=
  match s.place task with
  | .woken => some (s.move task .inside s.value)
  | .revoked => some (s.move task .outside (s.value + 1))
  | .withdrawn => some (s.move task .outside s.value)
  | .outside | .pending | .inside => none

/-- `release()` by a task that is inside. -/
def release (task : α) (s : Semaphore α) : Option (Semaphore α) :=
  if s.place task = .inside then some (s.move task .outside (s.value + 1)) else none

theorem number_move {p : Place → Bool} (absent : p .outside = false) (task : α) (dest : Place)
    (value : Nat) (s : Semaphore α) :
    number p (s.move task dest value) + (p (s.place task)).toNat = number p s + (p dest).toNat := by
  have others : ((insert task s.tasks).filter fun t => p (update s.place task dest t)).erase task =
        (s.tasks.filter fun t => p (s.place t)).erase task := by
    ext other
    by_cases eq : other = task
    · simp [eq]
    · simp [eq]
  have count : ∀ (place : α → Place) (tasks : Finset α), (p (place task) → task ∈ tasks) →
      (tasks.filter fun t => p (place t)).card =
        ((tasks.filter fun t => p (place t)).erase task).card + (p (place task)).toNat := by
    intro place tasks known
    cases counted : p (place task) with
    | false => rw [Finset.erase_eq_of_notMem (by simp [counted]), Bool.toNat_false, Nat.add_zero]
    | true =>
      rw [Bool.toNat_true, Finset.card_erase_add_one]
      simpa [counted] using known counted
  have before := count s.place s.tasks fun counted =>
    s.known task fun out => by simp [out, absent] at counted
  have after := count (update s.place task dest) (insert task s.tasks)
    fun _ => Finset.mem_insert_self _ _
  rw [others, update_self] at after
  have unfolded : number p (s.move task dest value) = ((insert task s.tasks).filter
      fun t => p (update s.place task dest t)).card := rfl
  rw [unfolded, after, number, before]
  omega

variable {task : α} {s s' : Semaphore α}

theorem moves_move {source dest : Place} {value : Nat}
    (place : s.place task = source)
    (balance : value + dest.holds.toNat = s.value + source.holds.toNat) :
    Moves s (s.move task dest value) source dest := by
  have moved := fun (p : Place → Bool) (absent : p .outside = false) =>
    place ▸ number_move absent task dest value s
  refine ⟨moved, ?_⟩
  have held := moved Place.holds rfl
  simp only [permits, move] at held ⊢
  omega

theorem acquire_moves {atOnce : Bool}
    (taken : s.acquire task atOnce = some s') :
    Moves s s' .outside (if atOnce then .inside else .pending) := by
  unfold acquire at taken
  split_ifs at taken with present wait free <;> cases taken
  · subst wait
    exact moves_move (not_not.mp present) rfl
  · rw [Bool.not_eq_false] at wait
    subst wait
    exact moves_move (not_not.mp present) (Nat.sub_add_cancel free)

theorem wake_moves (taken : s.wake task = some s') : Moves s s' .pending .woken := by
  unfold wake at taken
  split_ifs at taken with free
  cases taken
  exact moves_move free.1 (Nat.sub_add_cancel free.2)

theorem cancel_moves (task : α) (s : Semaphore α) :
    s.cancel task = s ∨ Moves s (s.cancel task) .pending .withdrawn ∨
      Moves s (s.cancel task) .woken .revoked := by
  unfold cancel
  split <;> rename_i place
  · exact .inr (.inl (moves_move place rfl))
  · exact .inr (.inr (moves_move place rfl))
  all_goals exact .inl rfl

theorem resume_moves (taken : s.resume task = some s') :
    s.place task = .woken ∧ Moves s s' .woken .inside ∨
      s.place task = .revoked ∧ Moves s s' .revoked .outside ∨
      s.place task = .withdrawn ∧ Moves s s' .withdrawn .outside := by
  unfold resume at taken
  split at taken <;> rename_i place <;> cases taken
  · exact .inl ⟨place, moves_move place rfl⟩
  · exact .inr (.inl ⟨place, moves_move place rfl⟩)
  · exact .inr (.inr ⟨place, moves_move place rfl⟩)

theorem release_moves (taken : s.release task = some s') : Moves s s' .inside .outside := by
  unfold release at taken
  split_ifs at taken with place
  cases taken
  exact moves_move place rfl

end Semaphore

end Asyncio
