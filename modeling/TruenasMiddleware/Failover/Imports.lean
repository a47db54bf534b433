import Mathlib.Data.List.Basic

/-! The imports of `vrrp_master` (`plugins/failover_/event.py`). -/

namespace TruenasMiddleware.Failover.Imports

open List

inductive Errno
  | enoent
  | other
deriving DecidableEq

/-- An exception; not every class has an `errno`. -/
structure Raised where
  errno : Option Errno

structure Volume where
  name : String
  first : Option Raised
  retry : Option Raised
  steps : Option Raised

namespace Volume

variable (vol : Volume)

def fails (errno : Option Errno) : Bool := vol.first.any (·.errno = errno)

def imports : Bool := vol.first.isNone || vol.fails (some .enoent) && vol.retry.isNone

end Volume

structure Progress where
  tried : List Volume := []
  retried : List Volume := []
  imported : List Volume := []
  failed : List Volume := []

/-- The body of the loop, and whether it raises: reading `e.errno` does where there is none. -/
def importVolume (vol : Volume) : Progress × Bool :=
  if vol.fails none then ({ tried := [vol] }, true)
  else
    let retried := if vol.fails (some .enoent) then [vol] else []
    if vol.imports then ({ tried := [vol], retried, imported := [vol] }, vol.steps.isSome)
    else ({ tried := [vol], retried, failed := [vol] }, false)

def importVolumes : List Volume → Progress × Bool
  | [] => ({}, false)
  | vol :: rest =>
    let (here, raised) := importVolume vol
    if raised then (here, true)
    else
      let (later, raised) := importVolumes rest
      (⟨here.tried ++ later.tried, here.retried ++ later.retried, here.imported ++ later.imported,
        here.failed ++ later.failed⟩, raised)

inductive Ending
  | fencedError
  /-- There are no pools to import. -/
  | info
  | raised
  | allZpoolsFailedToImport
  | continued
deriving DecidableEq

def vrrpMaster (fencedError : Nat) (volumes : List Volume) : Progress × Ending :=
  if fencedError ≠ 0 then ({}, .fencedError)
  else if volumes.isEmpty then ({}, .info)
  else
    let (progress, raised) := importVolumes volumes
    (progress, if raised then .raised
      else if progress.failed.length = volumes.length then .allZpoolsFailedToImport
      else .continued)

@[mk_iff]
structure Recorded (volumes : List Volume) (progress : Progress) : Prop where
  tried : progress.tried = volumes
  retried : progress.retried = volumes.filter (·.fails (some .enoent))
  imported : progress.imported = volumes.filter Volume.imports
  failed : progress.failed = volumes.filter fun vol => !vol.imports

/-- No exception without `errno`, and none after an import but for the last pool. -/
def Undisturbed (volumes : List Volume) : Prop :=
  (∀ vol ∈ volumes, vol.fails none = false) ∧
    ∀ vol ∈ volumes.dropLast, vol.imports = true → vol.steps = none

theorem recorded_iff_undisturbed (volumes : List Volume) :
    Recorded volumes (importVolumes volumes).1 ↔ Undisturbed volumes := by
  induction volumes with
  | nil => exact iff_of_true ⟨rfl, rfl, rfl, rfl⟩ (by simp [Undisturbed])
  | cons vol rest ih =>
    rw [recorded_iff, Undisturbed] at ih ⊢
    cases nameless : vol.fails none with
    | true =>
      have fails : vol.imports = false := by
        rw [Volume.fails] at nameless
        cases raised : vol.first <;> simp_all [Volume.imports, Volume.fails]
      simp [importVolumes, importVolume, nameless, fails]
    | false =>
      cases imports : vol.imports <;> cases raised : vol.steps <;>
        cases retries : vol.fails (some .enoent) <;> cases rest <;>
        simp_all [importVolumes, importVolume]

theorem exists_imports {volumes : List Volume} (undisturbed : Undisturbed volumes)
    (raised : (importVolumes volumes).2 = true) : ∃ vol ∈ volumes, vol.imports = true := by
  induction volumes with
  | nil => cases raised
  | cons vol rest ih =>
    obtain ⟨nameless, steps⟩ := undisturbed
    cases imports : vol.imports with
    | true => exact ⟨vol, mem_cons_self, imports⟩
    | false =>
      have later : (importVolumes rest).2 = true := by
        simpa [importVolumes, importVolume, nameless vol mem_cons_self, imports] using raised
      obtain ⟨other, mem, imports⟩ := ih ⟨fun vol mem => nameless vol (.tail _ mem),
        fun vol mem => steps vol (by cases rest <;> simp_all)⟩ later
      exact ⟨other, .tail _ mem, imports⟩

theorem vrrpMaster_zero {volumes : List Volume} (some_there : volumes ≠ []) :
    vrrpMaster 0 volumes = ((importVolumes volumes).1, if (importVolumes volumes).2 then .raised
      else if (importVolumes volumes).1.failed.length = volumes.length then .allZpoolsFailedToImport
      else .continued) := by
  simp [vrrpMaster, some_there]

theorem allFailed_iff {volumes : List Volume} (undisturbed : Undisturbed volumes)
    (some_there : volumes ≠ []) :
    (vrrpMaster 0 volumes).2 = .allZpoolsFailedToImport ↔
      ∀ vol ∈ volumes, vol.imports = false := by
  have recorded := (recorded_iff_undisturbed volumes).mpr undisturbed
  rw [vrrpMaster_zero some_there]
  dsimp only
  split_ifs with raised all
  · obtain ⟨vol, inside, imports⟩ := exists_imports undisturbed raised
    refine iff_of_false (by decide) fun none => ?_
    rw [none vol inside] at imports
    cases imports
  all_goals
    rw [recorded.failed, length_filter_eq_length_iff] at all
    simpa using all

/-- The imports go as they should unless an exception has no `errno`, or a step after the import of
a pool that is not the last one raises. Without pools there is nothing to do. -/
theorem pool_imports_iff (volumes : List Volume) :
    (∀ code, code ≠ 0 → (vrrpMaster code volumes).1.tried = []) ∧
    (Recorded volumes (vrrpMaster 0 volumes).1 ∧
        ((vrrpMaster 0 volumes).2 = .info ↔ volumes = []) ∧
        ((vrrpMaster 0 volumes).2 = .allZpoolsFailedToImport ↔
          volumes ≠ [] ∧ ∀ vol ∈ volumes, vol.imports = false) ↔
      Undisturbed volumes) := by
  refine ⟨fun code failed => by rw [vrrpMaster, if_pos failed], ?_⟩
  by_cases none_there : volumes = []
  · subst none_there
    exact iff_of_true ⟨⟨rfl, rfl, rfl, rfl⟩, by decide, by decide⟩ (by simp [Undisturbed])
  · have proceeds : (vrrpMaster 0 volumes).2 ≠ .info := by
      rw [vrrpMaster_zero none_there]
      dsimp only
      split_ifs <;> decide
    rw [congrArg Prod.fst (vrrpMaster_zero none_there), recorded_iff_undisturbed]
    refine and_iff_left_of_imp fun undisturbed => ⟨iff_of_false proceeds none_there, ?_⟩
    rw [allFailed_iff undisturbed none_there, and_iff_right none_there]

/-- Without pools none is imported, and the event ends with `INFO`; a pool is not attempted after an
exception without `errno`. -/
theorem imports_cut_short :
    ((vrrpMaster 0 []).2 = .info ∧ (vrrpMaster 0 []).1.imported.length = 0) ∧
    let ran := vrrpMaster 0 [⟨"a", some ⟨none⟩, none, none⟩, ⟨"b", none, none, none⟩]
    ran.1.tried.map Volume.name = ["a"] ∧ ran.1.failed.length = 0 ∧ ran.2 = .raised := by
  decide

end TruenasMiddleware.Failover.Imports
