import Mathlib.Data.List.Infix

/-! `is_child` of `utils/path.py`, and `_validate_source_datasets` of `plugins/replication.py`. -/

namespace TruenasMiddleware.Tasks

open List

abbrev Components := List (List Char)

structure Name where
  components : Components
  named : components ≠ []
  proper : ∀ x ∈ components, x ≠ [] ∧ x ≠ ['.'] ∧ x ≠ ['.', '.'] ∧ '/' ∉ x
deriving DecidableEq

def join (components : Components) : List Char := ['/'].intercalate components

def Name.text (name : Name) : String := String.ofList (join name.components)

def commonLength : Components → Components → Nat
  | x :: xs, y :: ys => if x = y then commonLength xs ys + 1 else 0
  | _, _ => 0

/-- The components of `os.path.relpath`, which is `.` if there are none. -/
def relpath (path start : Components) : Components :=
  let i := commonLength start path
  replicate (start.length - i) ['.', '.'] ++ path.drop i

/-- Both names are taken from the working directory. -/
def isChild (cwd : Components) (child parent : Name) : Bool :=
  let rel := relpath (cwd ++ child.components) (cwd ++ parent.components)
  rel = [] || !(['.', '.'].isPrefixOf (join rel))

structure SnapshotTask where
  dataset : Name
  exclude : List Name
  recursive : Bool

structure Replication where
  sourceDatasets : List Name
  recursive : Bool := true
  exclude : List Name := []
  replicate : Bool := true
  properties : Bool := true
  retentionPolicy : String := "SOURCE"

abbrev Errors := List (String × String)

def check (passes : Bool) (field message : String) : Errors :=
  if passes then [] else [(field, message)]

variable (cwd : Components)

def overlaps (sources : List Name) : Errors :=
  sources.zipIdx.flatMap fun (src, i) => sources.zipIdx.flatMap fun (other, j) =>
    check (j = i || !isChild cwd src other) s!"source_datasets.{i}"
      ("Replication task that replicates the entire filesystem can't replicate both " ++
        s!"'{other.text}' and its child '{src.text}'")

variable (data : Replication) (tasks : List SnapshotTask)

def fullFilesystem : Errors :=
  let required := "This option is required for full filesystem replication"
  check data.recursive "recursive" required ++
  check data.exclude.isEmpty "exclude"
    "This option is not supported for full filesystem replication" ++
  check data.properties "properties" required ++
  check (data.retentionPolicy = "SOURCE") "retention_policy"
    "Only `Same as Source` retention policy can be used for full filesystem replication" ++
  overlaps cwd data.sourceDatasets ++
  tasks.zipIdx.flatMap fun (task, i) =>
    check (data.sourceDatasets.any (isChild cwd · task.dataset) && task.recursive)
      s!"periodic_snapshot_tasks.{i}"
      ("Replication tasks that replicate the entire filesystem can only use periodic snapshot " ++
        "tasks that take recursive snapshots of the dataset being replicated (or its ancestor)")

def validateSourceDatasets : Errors :=
  (data.sourceDatasets.zipIdx.flatMap fun (src, i) =>
    (tasks.filter (isChild cwd src ·.dataset)).flatMap fun task =>
      if data.recursive then
        (task.exclude.filter (isChild cwd · src)).flatMap fun item =>
          check (data.exclude.contains item) "exclude" (s!"You should exclude '{item.text}' as " ++
            s!"bound periodic snapshot task dataset '{task.dataset.text}' does")
      else check (!task.exclude.contains src) s!"source_datasets.{i}" (s!"Dataset '{src.text}' " ++
        s!"is excluded by bound periodic snapshot task for dataset '{task.dataset.text}'")) ++
  check (data.recursive || data.exclude.isEmpty) "exclude"
    "Excluding child datasets is only supported for recursive replication" ++
  (data.exclude.zipIdx.flatMap fun (v, i) =>
    check (data.sourceDatasets.any fun ds => (ds.text ++ "/").toList.isPrefixOf v.text.toList)
      s!"exclude.{i}" "This dataset is not a child of any of source datasets") ++
  if data.replicate then fullFilesystem cwd data tasks else []

/-- Below the parent the name of the child goes on with two dots. -/
def Dotted (child parent : Components) : Prop :=
  ∃ first rest, child = parent ++ first :: rest ∧ ['.', '.'] <+: first

def Overlapping (sources : List Name) (child parent : Name) : Prop :=
  ∃ i j : Nat, i ≠ j ∧ sources[i]? = some child ∧ sources[j]? = some parent ∧
    parent.components <+: child.components

theorem relpath_append (path start : Components) :
    relpath (cwd ++ path) (cwd ++ start) = relpath path start := by
  induction cwd with
  | nil => rfl
  | cons x cwd ih =>
    rw [← ih]
    simp [relpath, commonLength]

theorem isPrefixOf_join (x : List Char) (rest : Components) :
    ['.', '.'].isPrefixOf (join (x :: rest)) = ['.', '.'].isPrefixOf x := by
  cases rest with
  | nil => simp [join]
  | cons y rest =>
    -- a single dot is followed by the slash
    rcases x with _ | ⟨c, _ | ⟨d, x⟩⟩ <;> simp [join, intercalate, isPrefixOf]

theorem isChild_iff (child parent : Name) : isChild cwd child parent = true ↔
    parent.components <+: child.components ∧ ¬ Dotted child.components parent.components := by
  rw [isChild, relpath_append]
  generalize child.components = path
  generalize parent.components = start
  induction start generalizing path with
  | nil =>
    cases path with
    | nil => simp [relpath, commonLength, Dotted]
    | cons x path =>
      simp [relpath, commonLength, Dotted, isPrefixOf_join, ← isPrefixOf_iff_prefix]
  | cons y start ih =>
    cases path with
    | nil => simp [relpath, commonLength, replicate_succ, isPrefixOf_join]
    | cons x path =>
      by_cases same : y = x
      · subst same
        have step := ih path
        rw [← relpath_append [y]] at step
        simpa [Dotted] using step
      · simp [relpath, commonLength, same, replicate_succ, isPrefixOf_join]

theorem overlaps_eq_nil {sources : List Name} : overlaps cwd sources = [] ↔ ∀ child parent,
    Overlapping sources child parent → Dotted child.components parent.components := by
  simp only [overlaps, check, flatMap_eq_nil_iff, Prod.forall, mem_zipIdx_iff_getElem?]
  constructor
  · rintro none child parent ⟨i, j, apart, atI, atJ, below⟩
    by_contra plain
    have seen := (isChild_iff cwd child parent).mpr ⟨below, plain⟩
    simpa [seen, apart.symm] using none child i atI parent j atJ
  · intro dotted src i atI other j atJ
    rw [if_pos]
    by_contra seen
    obtain ⟨apart, seen⟩ : j ≠ i ∧ isChild cwd src other = true := by simpa using seen
    obtain ⟨below, plain⟩ := (isChild_iff cwd src other).mp seen
    exact plain (dotted src other ⟨i, j, apart.symm, atI, atJ, below⟩)

/-- `is_child` is wrong exactly about names that go on with two dots, and sources that overlap are
accepted exactly if all that do are of this kind. -/
theorem is_child_iff : (∀ child parent : Name, (isChild cwd child parent = true ↔
        parent.components <+: child.components) ↔ ¬ Dotted child.components parent.components) ∧
    ∀ sources, (∀ data tasks, data.sourceDatasets = sources → data.replicate = true →
        validateSourceDatasets cwd data tasks = [] →
        ¬ ∃ child parent, Overlapping sources child parent) ↔
      ((∃ child parent, Overlapping sources child parent) → ∃ child parent,
        Overlapping sources child parent ∧ ¬ Dotted child.components parent.components) := by
  refine ⟨fun child parent => ?_, fun sources => ⟨fun refused overlap => ?_, ?_⟩⟩
  · rw [isChild_iff]
    refine ⟨?_, fun plain => and_iff_left plain⟩
    rintro right ⟨first, rest, eq, dots⟩
    exact (right.mpr ⟨first :: rest, eq.symm⟩).2 ⟨first, rest, eq, dots⟩
  · by_contra plain
    push Not at plain
    refine refused { sourceDatasets := sources } [] rfl rfl ?_ overlap
    simp [validateSourceDatasets, fullFilesystem, check, (overlaps_eq_nil cwd).mpr plain]
  · rintro plain data tasks rfl full accepted overlap
    obtain ⟨child, parent, both, undotted⟩ := plain overlap
    simp only [validateSourceDatasets, fullFilesystem, if_pos full, append_eq_nil_iff] at accepted
    exact undotted ((overlaps_eq_nil cwd).mp accepted.2.1.2 child parent both)

theorem dotted_child_accepted :
    let tank : Name := ⟨["tank".toList], by decide, by decide⟩
    let child : Name := ⟨["tank".toList, "..a".toList], by decide, by decide⟩
    isChild [] child tank = false ∧
      validateSourceDatasets [] { sourceDatasets := [tank, child] } [] = [] := by
  decide

end TruenasMiddleware.Tasks
