import TruenasMiddleware.Foundation.Dict
import TruenasMiddleware.Foundation.Transition
import Mathlib.Order.Bounds.Basic

/-! `plugins/iscsi_/target_to_extent.py`: associations of a target, a LUN and an extent under
`do_create`, `do_update` and `do_delete`. Each query of `validate` and each write of the datastore
is a step of its own; the table has one unique index, over target and extent. -/

namespace TruenasMiddleware.Iscsi

open List

structure Mapping where
  target : Nat
  extent : Nat
  lunid : Int
deriving DecidableEq

structure Row extends Mapping where
  id : Nat
deriving DecidableEq

/-- The data of an update; `id` is one of its fields. -/
structure Changes where
  id : Option Nat := none
  target : Option Nat := none
  lunid : Option Int := none
  extent : Option Nat := none
deriving DecidableEq

structure Work where
  old : Option Row
  newId : Nat
  mapping : Mapping
deriving DecidableEq

inductive Stage
  | reading (id : Nat) (changes : Changes)
  | numbering (old : Option Row) (newId target extent : Nat) (lunid : Option Int)
  | numbered (work : Work)
  | lunChecked (work : Work)
  | validated (work : Work)
  | stored
  | failed
deriving DecidableEq

structure State where
  rows : List Row := []
  /-- The id that was given last, in `sqlite_sequence`. -/
  lastId : Nat := 0
  calls : List Stage := []

inductive Label
  | create (target extent : Nat) (lunid : Option Int)
  | update (id : Nat) (changes : Changes)
  | delete (id : Nat)
  | read (i : Nat)
  | number (i : Nat)
  | checkLun (i : Nat)
  | checkExtent (i : Nat)
  | store (i : Nat)
  | fail (i : Nat)

def merge (old : Row) (changes : Changes) : Stage :=
  .numbering old (changes.id.getD old.id) (changes.target.getD old.target)
    (changes.extent.getD old.extent) (some (changes.lunid.getD old.lunid))

def lunids (rows : List Row) (target : Nat) : List Int :=
  (rows.filter fun row => decide (row.target = target)).map fun row => row.lunid

/-- The first gap below the largest LUN, or the one after it. -/
def nextLun (used : List Int) : Int :=
  match used.max? with
  | none => 0
  | some last =>
    match (range (last + 1).toNat).filter fun n : Nat => decide ((n : Int) ∉ used) with
    | [] => last + 1
    | gap :: _ => gap

def lunMapSize : Int := 16383

def lunChanged (work : Work) : Bool :=
  decide (work.old.map (fun old => (old.target, old.lunid)) ≠
    some (work.mapping.target, work.mapping.lunid))

def extentChanged (work : Work) : Bool :=
  decide (work.old.map (fun old => old.extent) ≠ some work.mapping.extent)

def lunError (rows : List Row) (work : Work) : Bool :=
  decide (work.mapping.lunid < 0 ∨ lunMapSize - 1 < work.mapping.lunid) ||
    lunChanged work && rows.any fun row =>
      decide ((row.target, row.lunid) = (work.mapping.target, work.mapping.lunid))

def extentError (rows : List Row) (work : Work) : Bool :=
  extentChanged work && rows.any fun row => decide (row.extent = work.mapping.extent)

/-- `AUTOINCREMENT`: no id that a row has or was given is given again. -/
def nextId (lastId : Nat) (rows : List Row) : Nat := (rows.map Row.id).foldr max lastId + 1

def written (lastId : Nat) (rows : List Row) (work : Work) : List Row :=
  match work.old with
  | none => rows ++ [⟨work.mapping, nextId lastId rows⟩]
  | some old => rows.map fun row => if row.id = old.id then ⟨work.mapping, work.newId⟩ else row

/-- The primary key and the unique index. -/
def Accepted (rows : List Row) : Prop :=
  (rows.map Row.id).Nodup ∧ (rows.map fun row => (row.target, row.extent)).Nodup

instance (rows : List Row) : Decidable (Accepted rows) :=
  inferInstanceAs (Decidable (_ ∧ _))

def State.move (state : State) (i : Nat) (stage : Stage) : State :=
  { state with calls := state.calls.set i stage }

def State.write (state : State) (work : Work) : State :=
  { state with
    rows := written state.lastId state.rows work
    lastId := if work.old.isNone then nextId state.lastId state.rows else state.lastId }

def step (state : State) : Label → Option State
  | .create target extent lunid =>
    some { state with calls := state.calls ++ [.numbering none 0 target extent lunid] }
  | .update id changes => some { state with calls := state.calls ++ [.reading id changes] }
  | .delete id => some { state with rows := state.rows.filter fun row => decide (row.id ≠ id) }
  | .read i =>
    match state.calls[i]? with
    | some (.reading id changes) =>
      match state.rows.find? fun row => decide (row.id = id) with
      | some old => some (state.move i (merge old changes))
      | none => some (state.move i .failed)
    | _ => none
  | .number i =>
    match state.calls[i]? with
    | some (.numbering old newId target extent lunid) =>
      some (state.move i (.numbered
        ⟨old, newId, target, extent, lunid.getD (nextLun (lunids state.rows target))⟩))
    | _ => none
  | .checkLun i =>
    match state.calls[i]? with
    | some (.numbered work) =>
      some (state.move i (if lunError state.rows work then .failed else .lunChecked work))
    | _ => none
  | .checkExtent i =>
    match state.calls[i]? with
    | some (.lunChecked work) =>
      some (state.move i (if extentError state.rows work then .failed else .validated work))
    | _ => none
  | .store i =>
    match state.calls[i]? with
    | some (.validated work) =>
      if Accepted (state.write work).rows then some ((state.write work).move i .stored)
      else some (state.move i .failed)
    | _ => none
  | .fail i =>
    match state.calls[i]? with
    | some _ => some (state.move i .failed)
    | none => none

theorem nextLun_isLeast {used : List Int} (natural : ∀ n ∈ used, 0 ≤ n) :
    IsLeast {n | 0 ≤ n ∧ n ∉ used} (nextLun used) := by
  rw [nextLun]
  cases largest : used.max? with
  | none =>
    have empty := List.max?_eq_none_iff.mp largest
    subst empty
    exact ⟨⟨Int.le_refl 0, not_mem_nil⟩, fun n free => free.1⟩
  | some last =>
    obtain ⟨mem, top⟩ := List.max?_eq_some_iff.mp largest
    have positive := natural last mem
    dsimp only
    cases gaps : (range (last + 1).toNat).filter fun n : Nat => decide ((n : Int) ∉ used) with
    | nil =>
      dsimp only
      refine ⟨⟨by omega, fun inside => ?_⟩, ?_⟩
      · have := top _ inside
        omega
      · rintro n ⟨low, free⟩
        by_contra high
        have inside : n.toNat ∈ range (last + 1).toNat := mem_range.mpr (by omega)
        have used := filter_eq_nil_iff.mp gaps n.toNat inside
        rw [Int.toNat_of_nonneg low] at used
        simp [free] at used
    | cons gap rest =>
      have first : (range (last + 1).toNat).find? (fun n : Nat => decide ((n : Int) ∉ used)) =
          some gap := by
        rw [← head?_filter, gaps, head?_cons]
      obtain ⟨free, -, least⟩ := List.find?_range_eq_some.mp first
      dsimp only
      refine ⟨⟨Int.natCast_nonneg gap, of_decide_eq_true free⟩, ?_⟩
      rintro n ⟨low, unused⟩
      by_contra high
      have used := least n.toNat (by omega)
      rw [Int.toNat_of_nonneg low] at used
      simp [unused] at used

end TruenasMiddleware.Iscsi
