import TruenasMiddleware.Foundation.Semaphore
import TruenasMiddleware.Foundation.Transition

/-!
`SoftHardSemaphore`, which bounds the calls of one connection.

`__aenter__` counts the task before it suspends in `softsemaphore.acquire()`,
and the context's `__aexit__` runs only for a task that got inside. A
cancellation that ends the wait therefore takes the task away and leaves its
count behind.
-/

namespace TruenasMiddleware.Concurrency

open Asyncio Transition Option

structure SoftHardSemaphore (α : Type*) where
  softlimit : Nat
  hardlimit : Nat
  softsemaphore : Semaphore α
  counter : Int

structure SoftHardSemaphoreLimit where
  hardlimit : Nat

namespace SoftHardSemaphore

variable {α : Type*}

def init (softlimit hardlimit : Nat) : SoftHardSemaphore α where
  softlimit := softlimit
  hardlimit := hardlimit
  softsemaphore := .create softlimit
  counter := 0

def present (s : SoftHardSemaphore α) : Nat := s.softsemaphore.number Place.present

def inside (s : SoftHardSemaphore α) : Nat := s.softsemaphore.number Place.isInside

theorem present_init (soft hard : Nat) : (init soft hard : SoftHardSemaphore α).present = 0 :=
  Semaphore.number_create _ _

variable [DecidableEq α]

/-- `__aenter__` up to its suspension point. `none` is a semaphore that cannot
do what `atOnce` says. -/
def aenter (task : α) (atOnce : Bool) (s : SoftHardSemaphore α) :
    Option (Except SoftHardSemaphoreLimit (SoftHardSemaphore α)) :=
  if s.counter ≥ s.hardlimit then some (.error ⟨s.hardlimit⟩)
  else (s.softsemaphore.acquire task atOnce).map fun softsemaphore =>
    .ok { s with counter := s.counter + 1, softsemaphore }

/-- `__aexit__`, the same whether the body returned, raised or was cancelled. -/
def aexit (task : α) (s : SoftHardSemaphore α) : Option (SoftHardSemaphore α) :=
  (s.softsemaphore.release task).map fun softsemaphore =>
    { s with counter := s.counter - 1, softsemaphore }

end SoftHardSemaphore

inductive Label (α : Type*)
  | enter (task : α) (atOnce : Bool)
  | wake (task : α)
  | resume (task : α)
  | leave (task : α)
  | cancel (task : α)

variable {α : Type*} [DecidableEq α] (s : SoftHardSemaphore α)

/-- The state after `__aenter__`: a refused task has counted nothing. -/
def settle : Except SoftHardSemaphoreLimit (SoftHardSemaphore α) → SoftHardSemaphore α
  | .ok s' => s'
  | .error _ => s

def step : Label α → Option (SoftHardSemaphore α)
  | .enter task atOnce => (s.aenter task atOnce).map (settle s)
  | .wake task =>
    (s.softsemaphore.wake task).map fun softsemaphore => { s with softsemaphore }
  | .resume task =>
    (s.softsemaphore.resume task).map fun softsemaphore => { s with softsemaphore }
  | .leave task => s.aexit task
  | .cancel task => some { s with softsemaphore := s.softsemaphore.cancel task }

def Undisturbed : Label α → Prop
  | .resume task =>
    s.softsemaphore.place task ≠ .revoked ∧ s.softsemaphore.place task ≠ .withdrawn
  | .enter .. | .wake _ | .leave _ | .cancel _ => True

instance : (label : Label α) → Decidable (Undisturbed s label)
  | .resume _ => inferInstanceAs (Decidable (_ ∧ _))
  | .enter .. | .wake _ | .leave _ | .cancel _ => .isTrue trivial

inductive Stepped (s : SoftHardSemaphore α) (label : Label α) : SoftHardSemaphore α → Prop
  | kept {sem : Semaphore α} (calm : Undisturbed s label)
      (permits : sem.permits = s.softsemaphore.permits)
      (same : sem.number Place.present = s.present) :
      Stepped s label { s with softsemaphore := sem }
  | entered {sem : Semaphore α} (calm : Undisturbed s label) (room : s.counter < s.hardlimit)
      (permits : sem.permits = s.softsemaphore.permits)
      (joined : sem.number Place.present = s.present + 1) :
      Stepped s label { s with counter := s.counter + 1, softsemaphore := sem }
  | left {sem : Semaphore α} (calm : Undisturbed s label)
      (permits : sem.permits = s.softsemaphore.permits)
      (gone : sem.number Place.present + 1 = s.present) :
      Stepped s label { s with counter := s.counter - 1, softsemaphore := sem }
  /-- The task is gone and its count stays. -/
  | cancelled {sem : Semaphore α} (disturbed : ¬ Undisturbed s label)
      (permits : sem.permits = s.softsemaphore.permits)
      (gone : sem.number Place.present + 1 = s.present) :
      Stepped s label { s with softsemaphore := sem }

variable {s s' : SoftHardSemaphore α} {label : Label α}

theorem step_cases (taken : step s label = some s') : Stepped s label s' := by
  cases label with
  | enter task atOnce =>
    simp only [step, SoftHardSemaphore.aenter] at taken
    split_ifs at taken with full
    · cases taken
      exact .kept trivial rfl rfl
    · simp only [map_map, map_eq_some_iff] at taken
      obtain ⟨sem, acquired, rfl⟩ := taken
      have moves := Semaphore.acquire_moves acquired
      exact .entered trivial (not_le.mp full) moves.permits
        (moves.joins rfl rfl (by cases atOnce <;> rfl))
  | wake task =>
    obtain ⟨sem, woken, rfl⟩ := map_eq_some_iff.mp taken
    have moves := Semaphore.wake_moves woken
    exact .kept trivial moves.permits (moves.stays rfl rfl)
  | resume task =>
    obtain ⟨sem, resumed, rfl⟩ := map_eq_some_iff.mp taken
    obtain ⟨place, moves⟩ | ⟨place, moves⟩ | ⟨place, moves⟩ := Semaphore.resume_moves resumed
    · exact .kept (by simp [Undisturbed, place]) moves.permits (moves.stays rfl rfl)
    all_goals
      exact .cancelled (by simp [Undisturbed, place]) moves.permits (moves.leaves rfl rfl rfl)
  | leave task =>
    obtain ⟨sem, released, rfl⟩ := map_eq_some_iff.mp taken
    have moves := Semaphore.release_moves released
    exact .left trivial moves.permits (moves.leaves rfl rfl rfl)
  | cancel task =>
    cases taken
    obtain eq | moves | moves := s.softsemaphore.cancel_moves task
    · rw [eq]
      exact .kept trivial rfl rfl
    all_goals exact .kept trivial moves.permits (moves.stays rfl rfl)

/-- What holds in every run: the permits are those of the soft limit, and the
counter lies between the tasks present and the hard limit. -/
structure Bounded (soft hard : Nat) (s : SoftHardSemaphore α) : Prop where
  hardlimit : s.hardlimit = hard
  permits : s.softsemaphore.permits = soft
  counted : s.present ≤ s.counter
  room : s.counter ≤ hard

variable {soft hard : Nat}

theorem Bounded.step (bounded : Bounded soft hard s) (taken : step s label = some s') :
    Bounded soft hard s' := by
  obtain ⟨limit, total, counted, room⟩ := bounded
  cases step_cases taken with
  | kept _ permits eq =>
    exact ⟨limit, permits.trans total, by rwa [SoftHardSemaphore.present, eq], room⟩
  | entered _ free permits joined =>
    refine ⟨limit, permits.trans total, ?_, by rwa [limit] at free⟩
    rw [SoftHardSemaphore.present, joined]
    push_cast
    omega
  | @left sem _ permits gone =>
    refine ⟨limit, permits.trans total, ?_, ?_⟩
    · show (sem.number Place.present : Int) ≤ s.counter - 1
      omega
    · exact (Int.sub_le_self _ (by decide)).trans room
  | @cancelled sem _ permits gone =>
    refine ⟨limit, permits.trans total, ?_, room⟩
    show (sem.number Place.present : Int) ≤ s.counter
    omega

theorem Bounded.reach (reached : Reach Concurrency.step Always (.init soft hard) s) :
    Bounded soft hard s := by
  refine reached.invariant ⟨rfl, Semaphore.permits_create _, ?_, Int.natCast_nonneg _⟩
    fun _ _ _ bounded _ taken => bounded.step taken
  rw [SoftHardSemaphore.present_init]
  rfl

theorem counter_step_iff (right : s.counter = s.present) (taken : step s label = some s') :
    s'.counter = s'.present ↔ Undisturbed s label := by
  cases step_cases taken with
  | kept calm _ eq =>
    refine iff_of_true ?_ calm
    rw [SoftHardSemaphore.present, eq, right]
  | entered calm _ _ joined =>
    refine iff_of_true ?_ calm
    rw [SoftHardSemaphore.present, joined, right]
    rfl
  | @left sem calm _ gone =>
    refine iff_of_true ?_ calm
    show s.counter - 1 = (sem.number Place.present : Int)
    omega
  | @cancelled sem disturbed _ gone =>
    refine iff_of_false ?_ disturbed
    show ¬ s.counter = (sem.number Place.present : Int)
    omega

theorem counter_of_undisturbed (reached : Reach step Undisturbed (.init soft hard) s) :
    s.counter = s.present := by
  refine reached.invariant (P := fun s => s.counter = s.present) ?_
    fun _ _ _ kept calm taken => (counter_step_iff kept taken).mpr calm
  rw [SoftHardSemaphore.present_init]
  rfl

/-- In every run at most `softlimit` tasks are inside and at most `hardlimit`
wait or are inside. The counter is the number of those tasks in every run where
no cancellation ends a wait, and the first step that does end one makes it too
high by one. -/
theorem counter_eq_present (softlimit hardlimit : Nat) :
    (∀ s : SoftHardSemaphore α, Reach step Always (.init softlimit hardlimit) s →
      s.inside ≤ softlimit ∧ s.present ≤ hardlimit) ∧
    ∀ s : SoftHardSemaphore α, Reach step Undisturbed (.init softlimit hardlimit) s →
      s.counter = s.present ∧
      ((∀ task, s.softsemaphore.place task = .outside) → s.counter = 0) ∧
      ∀ label s', step s label = some s' → (s'.counter = s'.present ↔ Undisturbed s label) := by
  refine ⟨fun s reached => ?_, fun s reached => ?_⟩
  · have bounded := Bounded.reach reached
    constructor
    · exact bounded.permits ▸ s.softsemaphore.inside_le_permits
    · exact_mod_cast bounded.counted.trans bounded.room
  · have kept := counter_of_undisturbed reached
    refine ⟨kept, fun ended => ?_, fun label s' taken => counter_step_iff kept taken⟩
    rw [kept, SoftHardSemaphore.present, Semaphore.number,
      Finset.filter_false_of_mem fun task _ => by simp [ended task, Place.present]]
    rfl

def handover : List (Label Nat) :=
  [.enter 1 true, .enter 2 false, .leave 1, .wake 2, .resume 2, .cancel 2, .leave 2]

theorem counter_eq_present_handover :
    ∃ s : SoftHardSemaphore Nat, Reach step Undisturbed (.init 1 2) s ∧ s.counter = s.present := by
  have run : (exec step Undisturbed (.init 1 2) handover).isSome := by decide
  obtain ⟨s, ran⟩ := isSome_iff_exists.mp run
  have reached := reach_exec .start ran
  exact ⟨s, reached, ((counter_eq_present 1 2).2 s reached).1⟩

/-- The second task is cancelled while it waits: both tasks have ended and the
counter is one. -/
theorem counter_after_cancelled_wait :
    ∃ s : SoftHardSemaphore Nat, Reach step Always (.init 1 2) s ∧
      s.counter = 1 ∧ s.present = 0 := by
  apply exists_reach_of_exec [.enter 1 true, .enter 2 false, .cancel 2, .resume 2, .leave 1]
  decide

end TruenasMiddleware.Concurrency
