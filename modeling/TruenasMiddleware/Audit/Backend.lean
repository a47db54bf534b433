import Mathlib.Logic.Basic

/-! Queries of an audit database (`plugins/audit/backend.py`): `__fetchall` reconnects when the file
is not the one that was opened, and calls itself. -/

namespace TruenasMiddleware.Audit

inductive Raised
  | runtimeError
  | other

inductive Executed (Row : Type)
  | noSuchTable
  | dbapiError
  /-- While the rows are read. -/
  | raises
  | results (counts : List Nat) (batches : List (List Row))

inductive Lstat
  | inode (ino : Nat)
  | fileNotFound
  | raises

/-- What one attempt finds: `os.fstat` of the descriptor (link count and inode), the inode under the
path, how the query ends, and what the `setup` after it raises. -/
structure Attempt (Row : Type) where
  fstat : Option (Nat × Nat)
  lstat : Lstat
  executed : Executed Row
  setup : Option Raised

inductive Answer (Row : Type)
  | count (count : Nat)
  | data (rows : List Row)

variable {Row : Type} (isCount : Bool)

/-- `SQLConn.fetchall` and the loop over its batches, which returns at the first number. -/
def Attempt.fetchall (attempt : Attempt Row) : Except Raised (Answer Row) :=
  match attempt.fstat with
  | none => .error .other
  | some st =>
    if st.1 = 0 then .error .runtimeError
    else match attempt.lstat with
      | .raises => .error .other
      | .fileNotFound => .error .runtimeError
      | .inode ino =>
        if ino ≠ st.2 then .error .runtimeError
        else match attempt.executed with
          | .noSuchTable => .ok (if isCount then .count 0 else .data [])
          | .dbapiError | .raises => .error .other
          | .results counts batches =>
            .ok (if isCount then .count (counts.headD 0) else .data batches.flatten)

/-- The answer and the number of reconnects; `none` if the recursion is deeper than `depth`. Nothing
reads `retry`. -/
def fetchall : (depth : Nat) → (attempts : Nat → Attempt Row) → (retry : Bool) →
    Option (Except Raised (Answer Row) × Nat)
  | 0, _, _ => none
  | depth + 1, attempts, _retry =>
    match (attempts 0).fetchall isCount with
    | .error .runtimeError =>
      match (attempts 0).setup with
      | some raised => some (.error raised, 1)
      | none => (fetchall depth (fun n => attempts (n + 1)) false).map
        fun (answer, reconnects) => (answer, reconnects + 1)
    | answer => some (answer, 0)

def Attempt.Lost (attempt : Attempt Row) : Prop :=
  ∃ st ∈ attempt.fstat, st.1 = 0 ∨ attempt.lstat = .fileNotFound ∨
    ∃ ino, attempt.lstat = .inode ino ∧ ino ≠ st.2

theorem Attempt.fetchall_eq_runtimeError (attempt : Attempt Row) :
    attempt.fetchall isCount = .error .runtimeError ↔ attempt.Lost := by
  unfold fetchall Lost
  cases attempt.fstat with
  | none => simp
  | some st =>
    by_cases deleted : st.1 = 0
    · simp [deleted]
    · cases attempt.lstat with
      | raises | fileNotFound => simp [deleted]
      | inode ino =>
        by_cases same : ino = st.2
        · cases attempt.executed <;> simp [deleted, same]
        · simp [deleted, same]

variable {attempts : Nat → Attempt Row} {depth reconnects : Nat} {retry : Bool}

theorem fetchall_of_not_lost (found : ¬ (attempts 0).Lost) :
    fetchall isCount (depth + 1) attempts retry = some ((attempts 0).fetchall isCount, 0) := by
  rw [← Attempt.fetchall_eq_runtimeError isCount] at found
  rw [fetchall]
  split
  · contradiction
  · rfl

theorem fetchall_of_lost (lost : (attempts 0).Lost) : fetchall isCount (depth + 1) attempts retry =
    match (attempts 0).setup with
    | some raised => some (.error raised, 1)
    | none => (fetchall isCount depth (fun n => attempts (n + 1)) false).map
      fun (answer, reconnects) => (answer, reconnects + 1) := by
  rw [fetchall, (Attempt.fetchall_eq_runtimeError isCount _).mpr lost]

theorem reconnects_pos {answer : Except Raised (Answer Row)}
    (ends : fetchall isCount depth attempts retry = some (answer, reconnects))
    (lost : (attempts 0).Lost) : 0 < reconnects := by
  cases depth with
  | zero => cases ends
  | succ depth =>
    rw [fetchall_of_lost isCount lost] at ends
    split at ends
    · cases ends
      exact Nat.one_pos
    · obtain ⟨_, -, eq⟩ := Option.map_eq_some_iff.mp ends
      cases eq
      exact Nat.succ_pos _

/-- A query ends after at most one reconnect exactly if the database that it opened again is not
lost once more. -/
theorem fetchall_bounded_iff (attempts : Nat → Attempt Row) :
    (∃ depth answer reconnects,
      fetchall isCount depth attempts true = some (answer, reconnects) ∧ reconnects ≤ 1) ↔
      ¬ ((attempts 0).Lost ∧ (attempts 0).setup = none ∧ (attempts 1).Lost) := by
  constructor
  · rintro ⟨depth, answer, reconnects, ends, bounded⟩ ⟨first, opens, second⟩
    cases depth with
    | zero => cases ends
    | succ depth =>
      rw [fetchall_of_lost isCount first, opens] at ends
      obtain ⟨⟨_, again⟩, later, eq⟩ := Option.map_eq_some_iff.mp ends
      cases eq
      have more := reconnects_pos isCount later second
      omega
  · intro once
    by_cases first : (attempts 0).Lost
    · cases setup : (attempts 0).setup with
      | some raised =>
        refine ⟨1, .error raised, 1, ?_, Nat.le_refl 1⟩
        rw [fetchall_of_lost isCount first, setup]
      | none =>
        have second : ¬ (attempts 1).Lost := fun lost => once ⟨first, setup, lost⟩
        refine ⟨2, (attempts 1).fetchall isCount, 1, ?_, Nat.le_refl 1⟩
        rw [fetchall_of_lost isCount first, setup, fetchall_of_not_lost isCount second]
        rfl
    · exact ⟨1, _, 0, fetchall_of_not_lost isCount first, Nat.zero_le 1⟩

theorem fetchall_reconnects_twice :
    let attempts (n : Nat) : Attempt Unit := ⟨some (n - 1, 7), .inode 7, .noSuchTable, none⟩
    fetchall false 3 attempts true = some (.ok (.data []), 2) :=
  rfl

end TruenasMiddleware.Audit
