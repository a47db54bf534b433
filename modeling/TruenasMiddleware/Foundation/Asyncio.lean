import Mathlib.Tactic.SplitIfs

/-! The part of `asyncio.Lock` that a single event loop can observe. Code
between two suspension points is atomic, so `acquire` is split at its only
suspension point: it either takes the lock at once or joins the waiters. -/

namespace Asyncio

structure Lock where
  locked : Bool := false
  waiters : Nat := 0

namespace Lock

/-- `acquire()` up to its suspension point; `none` means the caller has to wait. -/
def acquire (l : Lock) : Option Lock :=
  if l.locked = false ∧ l.waiters = 0 then some { l with locked := true } else none

def wait (l : Lock) : Lock := { l with waiters := l.waiters + 1 }

/-- A suspended caller resumes and takes the lock, if it is free by then. -/
def resume (l : Lock) : Option Lock :=
  if l.locked = false then some { locked := true, waiters := l.waiters - 1 } else none

/-- `release()`; `none` is the `RuntimeError` of a lock that is not acquired. -/
def release (l : Lock) : Option Lock :=
  if l.locked then some { l with locked := false } else none

theorem acquire_eq_some {l m : Lock} :
    l.acquire = some m ↔ l.locked = false ∧ l.waiters = 0 ∧ m = ⟨true, 0⟩ := by
  unfold acquire
  split_ifs with free
  · obtain ⟨_, waiters⟩ := l
    obtain ⟨rfl, rfl⟩ := free
    simp [eq_comm]
  · simp only [false_iff]
    rintro ⟨unlocked, alone, -⟩
    exact free ⟨unlocked, alone⟩

theorem release_eq_some {l m : Lock} :
    l.release = some m ↔ l.locked = true ∧ m = ⟨false, l.waiters⟩ := by
  unfold release
  split_ifs with held
  · simp [held, eq_comm]
  · simp [held]

end Lock

end Asyncio
