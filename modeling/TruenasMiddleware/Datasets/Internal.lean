import TruenasMiddleware.Datasets.Keys

/-! Which datasets `is_internal_dataset` hides from `pool.dataset.query`, by the components of their
names, and `has_internal_path` of `plugins/zfs/utils.py`. -/

namespace TruenasMiddleware.Datasets

open List

def INTERNAL_PATHS : List String := ["ix-apps", "ix-applications", ".system"]

def components (path : String) : List (List Char) := path.toList.splitOn '/'

def belowPool (names : List String) (path : String) : Bool :=
  (components path)[1]?.any (names.map String.toList).contains

def hasInternalPath (path : String) : Bool :=
  (components path).head?.any (BOOT_POOL_NAME_VALID.map String.toList).contains ||
    belowPool INTERNAL_PATHS path

def inBootPool (name : String) : Bool :=
  BOOT_POOL_NAME_VALID.any fun i => decide (name = i) || startsWith name (i ++ "/")

section Components

variable {α : Type} [DecidableEq α] {sep : α} {part head list : List α} {tail : List (List α)}

theorem prefix_head_splitOn (inside : sep ∉ part) (split : list.splitOn sep = head :: tail) :
    part <+: head ↔ part <+: list := by
  induction part generalizing list head tail with
  | nil => simp
  | cons first part ih =>
    rw [mem_cons, not_or] at inside
    cases list with
    | nil =>
      cases split
      rfl
    | cons here list =>
      obtain ⟨head', tail', split'⟩ := exists_cons_of_ne_nil (splitOn_ne_nil sep list)
      rw [splitOn_cons_eq_if_modifyHead, split'] at split
      split_ifs at split with eq
      · cases split
        simp [beq_iff_eq.mp eq, Ne.symm inside.1]
      · cases split
        rw [cons_prefix_cons, cons_prefix_cons, ih inside.2 split']

theorem infix_iff_mem_tail (inside : sep ∉ part) :
    sep :: part <:+: list ↔ ∃ component ∈ (list.splitOn sep).tail, part <+: component := by
  induction list with
  | nil => simp
  | cons here list ih =>
    rw [infix_cons_iff, cons_prefix_cons, splitOn_cons_eq_if_modifyHead, ih]
    obtain ⟨head, tail, split⟩ := exists_cons_of_ne_nil (splitOn_ne_nil sep list)
    rw [split]
    by_cases eq : here = sep
    · simp [eq, prefix_head_splitOn inside split]
    · simp [eq, Ne.symm eq]

end Components

variable {name : String}

theorem isInternalDataset_iff : isInternalDataset name = true ↔ inBootPool name = true ∨
    ∃ i ∈ INTERNAL_DATASETS, ∃ component ∈ (components name).tail, i.toList <+: component := by
  rw [isInternalDataset, Bool.or_eq_true, any_eq_true (l := INTERNAL_DATASETS)]
  refine or_congr_right (exists_congr fun i => and_congr_right fun inside => ?_)
  have solid : '/' ∉ i.toList := by
    revert i
    decide
  rw [decide_eq_true_eq, String.toList_append]
  exact infix_iff_mem_tail solid

theorem isInternalDataset_of_belowPool (below : belowPool INTERNAL_DATASETS name = true) :
    isInternalDataset name = true := by
  obtain ⟨component, second, known⟩ := (Option.any_eq_true _ _).mp below
  rw [contains_iff_mem] at known
  obtain ⟨i, inside, rfl⟩ := mem_map.mp known
  refine isInternalDataset_iff.mpr (.inr ⟨i, inside, _, ?_, prefix_refl _⟩)
  exact mem_of_getElem? (getElem?_tail.trans second)

/-- The datasets that are hidden are those in boot pools and below internal datasets, unless the
name of another one has a component that starts with an internal name. -/
theorem internal_classified_iff (name : String) :
    ((isInternalDataset name = true ↔
        inBootPool name = true ∨ belowPool INTERNAL_DATASETS name = true) ↔
      inBootPool name = true ∨ belowPool INTERNAL_DATASETS name = true ∨
        ∀ i ∈ INTERNAL_DATASETS, ∀ component ∈ (components name).tail, ¬ i.toList <+: component) ∧
    (belowPool INTERNAL_DATASETS name = true → belowPool INTERNAL_PATHS name = true →
      isInternalDataset name = hasInternalPath name) := by
  constructor
  · have below : belowPool INTERNAL_DATASETS name = true → isInternalDataset name = true :=
      isInternalDataset_of_belowPool
    rw [isInternalDataset_iff] at below ⊢
    constructor
    · intro same
      by_cases known : inBootPool name = true ∨ belowPool INTERNAL_DATASETS name = true
      · exact or_assoc.mp (.inl known)
      · refine .inr (.inr fun i inside component member starts => known (same.mp ?_))
        exact .inr ⟨i, inside, component, member, starts⟩
    · rintro (boot | known | none)
      · simp [boot]
      · exact iff_of_true (below known) (.inr known)
      · refine ⟨fun hidden => hidden.imp_right ?_, fun known => known.elim .inl below⟩
        rintro ⟨i, inside, component, member, starts⟩
        exact absurd starts (none i inside component member)
  · intro below known
    rw [isInternalDataset_of_belowPool below, hasInternalPath, known, Bool.or_true]

/-- Neither `ix-apps2` nor a `.system` further down is an internal dataset. -/
theorem contained_names_hidden :
    isInternalDataset "tank/ix-apps2" = true ∧ isInternalDataset "tank/a/.system" = true ∧
      ∀ path ∈ ["tank/ix-apps2", "tank/a/.system"],
        inBootPool path = false ∧ belowPool INTERNAL_DATASETS path = false := by
  decide

end TruenasMiddleware.Datasets
