import Mathlib.Algebra.GroupWithZero.Nat
import Mathlib.Algebra.Order.BigOperators.Group.List
import Mathlib.Algebra.Order.Group.Nat

/-! The memory that `plugins/vm/memory.py` takes from the ARC when a virtual machine starts with
overcommit, and what it gives back when one stops. -/

namespace TruenasMiddleware.Vm

/-- Sizes in MiB; no minimum and a minimum of 0 are the same. -/
structure Guest where
  memory : Nat
  minMemory : Option Nat

/-- What `sysctl` reports before the first start; only the ARC limit changes later. -/
structure Sysctl where
  arcMin : Nat
  arcMax : Nat
  defaultArcMax : Nat
  arcMin_le : arcMin ≤ arcMax
  le_default : arcMax ≤ defaultArcMax

/-- The ARC limit, and what the start of each running machine took from it. -/
structure State where
  arcMax : Nat
  taken : List (Nat × Nat)

/-- Each step reads the machine as it is configured then. -/
inductive Label
  | start (id : Nat) (guest : Guest) (availableMemory : Nat)
  | stop (id : Nat) (guest : Guest)

def State.total (s : State) : Nat := (s.taken.map Prod.snd).sum

def requestedMemory (guest : Guest) : Nat :=
  if guest.minMemory.getD 0 = 0 then guest.memory * 1024 * 1024
  else guest.minMemory.getD 0 * 1024 * 1024

variable (sysctl : Sysctl)

def arcToShrink (arcMax availableMemory : Nat) (guest : Guest) : Nat :=
  if requestedMemory guest > availableMemory then
    min (arcMax - sysctl.arcMin) (requestedMemory guest - availableMemory)
  else 0

def teardownGuestVmemory (arcMax : Nat) (guest : Guest) : Nat :=
  let newArcMax := min sysctl.defaultArcMax (arcMax + guest.memory * 1024 * 1024)
  if arcMax ≠ newArcMax ∧ newArcMax > sysctl.arcMin then newArcMax else arcMax

/-- Only a stopped machine is started, only a running one stops. -/
def step (s : State) : Label → Option State
  | .start id guest availableMemory =>
    if (s.taken.lookup id).isSome then none
    else
      let shrink := arcToShrink sysctl s.arcMax availableMemory guest
      some ⟨s.arcMax - shrink, (id, shrink) :: s.taken⟩
  | .stop id guest =>
    if (s.taken.lookup id).isSome then
      some ⟨teardownGuestVmemory sysctl s.arcMax guest, s.taken.filter (·.1 != id)⟩
    else none

def Along (P : State → Label → State → Prop) : State → List Label → Prop
  | _, [] => True
  | s, label :: rest => ∀ t, step sysctl s label = some t → P s label t ∧ Along P t rest

def Within (s : State) : Prop := sysctl.arcMin ≤ s.arcMax ∧ s.arcMax ≤ sysctl.defaultArcMax

def Accounted (s : State) : Prop := s.arcMax + s.total ≤ sysctl.defaultArcMax

/-- A stop finds nothing taken by the other machines, or room for the whole memory of its own. -/
def Covered (s : State) : Label → State → Prop
  | .start _ _ _, _ => True
  | .stop _ guest, t => t.total = 0 ∨
    s.arcMax + guest.memory * 1024 * 1024 + t.total ≤ sysctl.defaultArcMax

theorem arcToShrink_le (arcMax availableMemory : Nat) (guest : Guest) :
    arcToShrink sysctl arcMax availableMemory guest ≤ arcMax - sysctl.arcMin := by
  unfold arcToShrink
  split_ifs
  · exact min_le_left _ _
  · exact Nat.zero_le _

variable {sysctl : Sysctl} {s t : State} {label : Label}

theorem teardown_eq (within : Within sysctl s) (guest : Guest) :
    teardownGuestVmemory sysctl s.arcMax guest =
      min sysctl.defaultArcMax (s.arcMax + guest.memory * 1024 * 1024) := by
  obtain ⟨low, high⟩ := within
  simp only [teardownGuestVmemory]
  split_ifs <;> omega

theorem total_filter_le (s : State) (id : Nat) :
    ((s.taken.filter (·.1 != id)).map Prod.snd).sum ≤ s.total :=
  (List.filter_sublist.map _).sum_le_sum fun _ _ => Nat.zero_le _

theorem step_spec (within : Within sysctl s) (taken : step sysctl s label = some t) :
    Within sysctl t ∧
      (Accounted sysctl s → (Accounted sysctl t ↔ Covered sysctl s label t)) := by
  cases label with
  | start id guest availableMemory =>
    have shrink := arcToShrink_le sysctl s.arcMax availableMemory guest
    simp only [step] at taken
    split at taken <;> cases taken
    simp only [Within, Accounted, Covered, State.total, List.map_cons, List.sum_cons, iff_true]
      at within ⊢
    omega
  | stop id guest =>
    have total := total_filter_le s id
    have given := teardown_eq within guest
    simp only [step] at taken
    split at taken <;> cases taken
    simp only [Within, Accounted, Covered, State.total, given] at within total ⊢
    omega

/-- The limit stays between its bounds in every run; it leaves room for what the machines still
running took exactly if every stop is covered. -/
theorem arc_accounting_iff (labels : List Label) :
    Along sysctl (fun _ _ => Within sysctl) ⟨sysctl.arcMax, []⟩ labels ∧
      (Along sysctl (fun _ _ => Accounted sysctl) ⟨sysctl.arcMax, []⟩ labels ↔
        Along sysctl (Covered sysctl) ⟨sysctl.arcMax, []⟩ labels) := by
  have within : Within sysctl ⟨sysctl.arcMax, []⟩ := ⟨sysctl.arcMin_le, sysctl.le_default⟩
  have accounted : Accounted sysctl ⟨sysctl.arcMax, []⟩ := sysctl.le_default
  generalize State.mk sysctl.arcMax [] = s at within accounted ⊢
  constructor
  · clear accounted
    induction labels generalizing s with
    | nil => trivial
    | cons label rest ih =>
      intro t taken
      have within' := (step_spec within taken).1
      exact ⟨within', ih t within'⟩
  · induction labels generalizing s with
    | nil => rfl
    | cons label rest ih =>
      refine forall₂_congr fun t taken => ?_
      obtain ⟨within', covered⟩ := step_spec within taken
      refine (and_congr_left' (covered accounted)).trans (and_congr_right fun met => ?_)
      exact ih t within' ((covered accounted).mpr met)

/-- The start of machine 2 took 512 MiB of the 1024, that of machine 1 took nothing, and yet the
stop of machine 1 gives the ARC all of it. -/
theorem stop_gives_back_memory_of_others :
    let sysctl : Sysctl := ⟨0, 1073741824, 1073741824, by decide, le_rfl⟩
    ¬ Along sysctl (fun _ _ => Accounted sysctl) ⟨sysctl.arcMax, []⟩
      [.start 1 ⟨512, none⟩ 536870912, .start 2 ⟨512, none⟩ 0, .stop 1 ⟨512, none⟩] := by
  intro sysctl run
  have stopped : _ ≤ _ := (((run _ rfl).2 _ rfl).2 _ rfl).1
  revert stopped
  decide

end TruenasMiddleware.Vm
