import Mathlib.Data.List.MinMax
import Mathlib.Data.List.Sort

/-! The latest version of an app (`plugins/apps/version_utils.py`). -/

namespace TruenasMiddleware.Apps

open List

/-- `packaging.version.Version`: two spellings of a version, such as 1.0 and 1.0.0, may have one key
in the order. -/
structure Scheme (Version Key : Type) where
  parse : String → Option Version
  str : Version → String
  key : Version → Key
  parse_str : ∀ version, parse (str version) = some version

inductive Error
  | noVersions
  | noHealthy
  | invalidVersion
deriving DecidableEq

variable {Version Key : Type} [LinearOrder Key] (scheme : Scheme Version Key)
  (appVersions : List (String × Bool))

def versions : List Version :=
  appVersions.filterMap (scheme.parse ·.1)

def getLatestVersionFromAppVersions : Except Error String :=
  if appVersions = [] then .error .noVersions
  else if appVersions.all (!·.2) then .error .noHealthy
  else if ∀ entry ∈ appVersions, (scheme.parse entry.1).isSome then
    match (versions scheme appVersions).insertionSort fun a b => scheme.key b ≤ scheme.key a with
    | [] => .error .noVersions
    | latest :: _ => .ok (scheme.str latest)
  else .error .invalidVersion

def Latest (result : String) : Prop :=
  (result, true) ∈ appVersions ∧ ∃ version, scheme.parse result = some version ∧
    ∀ key other, (key, true) ∈ appVersions → scheme.parse key = some other →
      scheme.key other ≤ scheme.key version

theorem head?_insertionSort (versions : List Version) :
    (versions.insertionSort fun a b => scheme.key b ≤ scheme.key a).head? =
      versions.argmax scheme.key := by
  induction versions with
  | nil => rfl
  | cons version rest ih =>
    rw [argmax_cons, ← ih, insertionSort_cons]
    cases rest.insertionSort fun a b => scheme.key b ≤ scheme.key a with
    | nil => rfl
    | cons first others =>
      rw [orderedInsert_cons]
      by_cases above : scheme.key first ≤ scheme.key version
      · simp [above]
      · simp [above, not_le.mp above]

/-- The result is right exactly if all keys are versions and the first of the greatest ones, as
`str` spells it, is a healthy key. -/
theorem getLatestVersion_iff (appVersions : List (String × Bool)) :
    (∃ result, getLatestVersionFromAppVersions scheme appVersions = .ok result ∧
      Latest scheme appVersions result) ↔
      (∀ entry ∈ appVersions, (scheme.parse entry.1).isSome) ∧
        ∃ version, (versions scheme appVersions).argmax scheme.key = some version ∧
          (scheme.str version, true) ∈ appVersions := by
  have greatest := head?_insertionSort scheme (versions scheme appVersions)
  rw [getLatestVersionFromAppVersions, ← greatest]
  constructor
  · rintro ⟨result, run, right⟩
    split_ifs at run with empty unhealthy valid
    split at run <;> cases run
    rename_i latest rest sorted
    exact ⟨valid, latest, by rw [sorted]; rfl, right.1⟩
  · rintro ⟨valid, version, first, known⟩
    obtain ⟨rest, sorted⟩ := head?_eq_some_iff.mp first
    have healthy : ¬ appVersions.all (!·.2) = true :=
      fun none => absurd (all_eq_true.mp none _ known) (by simp)
    rw [if_neg (ne_nil_of_mem known), if_neg healthy, if_pos valid, sorted]
    refine ⟨_, rfl, known, version, scheme.parse_str version, fun key other mem parsed => ?_⟩
    exact le_of_mem_argmax (mem_filterMap.mpr ⟨_, mem, parsed⟩) (greatest ▸ first)

theorem unhealthy_version_returned :
    let scheme : Scheme Bool Bool :=
      ⟨fun key => some (key = "2.0"), (if · then "2.0" else "1.0"), id, by decide⟩
    let table := [("1.0", true), ("2.0", false)]
    getLatestVersionFromAppVersions scheme table = .ok "2.0" ∧ ¬ Latest scheme table "2.0" :=
  ⟨by decide, fun latest => absurd latest.1 (by decide)⟩

end TruenasMiddleware.Apps
