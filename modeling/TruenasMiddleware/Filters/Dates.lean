import TruenasMiddleware.Filters.Tree

/-! `_preprocess_date_filters` of `utils/filter_list.py`. A group is recognised by a first member
that is a list: one whose first member is a tuple is taken for a condition. -/

namespace TruenasMiddleware.Filters

def TIMESTAMP_DESIGNATOR : String := ".$date"

def TIMESTAMP_OPS : List String := ["=", "!=", "<", ">", "<=", ">="]

def isDate (name : String) : Bool :=
  TIMESTAMP_DESIGNATOR.toList.isSuffixOf name.toList

def stripped (name : String) : String :=
  String.ofList (name.toList.take (name.toList.length - TIMESTAMP_DESIGNATOR.toList.length))

variable {α : Type}

def Tree.isList : Tree α → Bool
  | .condition tuple _ _ _ => !tuple
  | .group _ tuple _ => !tuple

-- `datetime.fromisoformat`
variable (iso : String → Option α)

def rebuildCondition (name op : String) (value : Operand α) : Option (Tree α × Bool) :=
  if isDate name then
    if op ∈ TIMESTAMP_OPS then
      match value with
      | .str text => (iso text).map fun date =>
          (.condition false (stripped name) op (.other date), true)
      | .other _ => none
    else none
  else some (.condition false name op value, false)

def regroup (kind : Kind) (members : List (Tree α)) (rebuilt : List (Tree α) × Bool) :
    Tree α × Bool :=
  (.group kind false (if rebuilt.2 then rebuilt.1 else members), rebuilt.2)

mutual

def rebuild (depth : Nat) : Tree α → Option (Tree α × Bool)
  | .condition _ name op value => rebuildCondition iso name op value
  | .group .any _ members =>
    if depth + 1 > 3 then none
    else (rebuildAll (depth + 1) members).map (regroup .any members)
  | .group .all _ members =>
    if (members.head?.map Tree.isList).getD false then
      if depth + 1 > 3 then none
      else (rebuildAll (depth + 1) members).map (regroup .all members)
    -- `field, op, value = f`
    else if members.length = 3 then some (.group .all false members, false)
    else none

def rebuildAll (depth : Nat) : List (Tree α) → Option (List (Tree α) × Bool)
  | [] => some ([], false)
  | tree :: trees =>
    match rebuild depth tree, rebuildAll depth trees with
    | some (tree, changed), some (trees, others) => some (tree :: trees, changed || others)
    | _, _ => none

end

def preprocessDateFilters (filters : List (Tree α)) (depth : Nat := 0) :
    Option (Option (List (Tree α))) :=
  if depth > 3 then none
  else (rebuildAll iso depth filters).map fun (result, changed) =>
    if changed then some result else none

mutual

def Tree.hasDate : Tree α → Bool
  | .condition _ name _ _ => isDate name
  | .group _ _ members => anyDate members

def anyDate : List (Tree α) → Bool
  | [] => false
  | tree :: trees => tree.hasDate || anyDate trees

end

mutual

def Tree.plain : Tree α → Tree α
  | .condition _ name op value => .condition false name op value
  | .group kind _ members => .group kind false (plainAll members)

def plainAll : List (Tree α) → List (Tree α)
  | [] => []
  | tree :: trees => tree.plain :: plainAll trees

end

def dateOf : Operand α → Operand α
  | .str text => ((iso text).map Operand.other).getD (.str text)
  | .other value => .other value

def rewrittenCondition (name op : String) (value : Operand α) : Tree α :=
  if isDate name then .condition false (stripped name) op (dateOf iso value)
  else .condition false name op value

mutual

/-- The intended tree: every date condition rewritten, at any depth. -/
def Tree.rewritten : Tree α → Tree α
  | .condition _ name op value => rewrittenCondition iso name op value
  | .group kind _ members => .group kind false (rewrittenAll members)

def rewrittenAll : List (Tree α) → List (Tree α)
  | [] => []
  | tree :: trees => tree.rewritten :: rewrittenAll trees

end

mutual

def Tree.depth : Tree α → Nat
  | .condition _ _ _ _ => 0
  | .group _ _ members => depthAll members + 1

def depthAll : List (Tree α) → Nat
  | [] => 0
  | tree :: trees => max tree.depth (depthAll trees)

end

def DateOk (name op : String) (value : Operand α) : Prop :=
  isDate name = true → op ∈ TIMESTAMP_OPS ∧ ∃ text date, value = .str text ∧ iso text = some date

mutual

/-- A group has a first member that is a list, or it is three members without a date. -/
def Tree.Good : Tree α → Prop
  | .condition _ name op value => DateOk iso name op value
  | .group .any _ members => GoodAll members
  | .group .all _ members =>
    if (members.head?.map Tree.isList).getD false then GoodAll members
    else members.length = 3 ∧ anyDate members = false

def GoodAll : List (Tree α) → Prop
  | [] => True
  | tree :: trees => tree.Good ∧ GoodAll trees

end

theorem stripped_ne {name : String} (date : isDate name = true) : stripped name ≠ name := by
  intro eq
  have long := (List.isSuffixOf_iff_suffix.mp date).length_le
  have length := congrArg (fun text => text.toList.length) eq
  simp only [stripped, String.toList_ofList, List.length_take] at length
  have six : TIMESTAMP_DESIGNATOR.toList.length = 6 := by decide
  omega

theorem plain_condition_iff (tuple : Bool) (name op : String) (value : Operand α) :
    (Tree.condition tuple name op value).plain = rewrittenCondition iso name op value ↔
      isDate name = false := by
  cases date : isDate name with
  | false => simp [Tree.plain, rewrittenCondition, date]
  | true => simp [Tree.plain, rewrittenCondition, date, (stripped_ne date).symm]

mutual

theorem Tree.plain_eq_iff :
    (tree : Tree α) → (tree.plain = tree.rewritten iso ↔ tree.hasDate = false)
  | .condition tuple name op value => plain_condition_iff iso tuple name op value
  | .group kind _ members => by
    have all := plainAll_eq_iff members
    simpa [Tree.plain, Tree.rewritten, Tree.hasDate] using all

theorem plainAll_eq_iff : (trees : List (Tree α)) → (plainAll trees = rewrittenAll iso trees ↔
      anyDate trees = false)
  | [] => by simp [plainAll, rewrittenAll, anyDate]
  | tree :: trees => by
    have here := Tree.plain_eq_iff tree
    have others := plainAll_eq_iff trees
    simp [plainAll, rewrittenAll, anyDate, here, others]

end

variable {name op : String} {value : Operand α} {changed : Bool}

theorem rebuildCondition_some {tree : Tree α}
    (run : rebuildCondition iso name op value = some (tree, changed)) :
    DateOk iso name op value ∧
      tree.plain = rewrittenCondition iso name op value ∧ changed = isDate name := by
  unfold rebuildCondition at run
  rw [rewrittenCondition]
  cases date : isDate name with
  | false =>
    rw [date] at run
    cases run
    exact ⟨fun wrong => absurd (date.symm.trans wrong) (by decide), rfl, rfl⟩
  | true =>
    rw [date, if_pos rfl] at run
    split at run
    · rename_i timestamp
      split at run
      · rename_i text
        obtain ⟨value, parsed, eq⟩ := Option.map_eq_some_iff.mp run
        cases eq
        refine ⟨fun _ => ⟨timestamp, text, value, rfl, parsed⟩, ?_, rfl⟩
        simp [Tree.plain, dateOf, parsed]
      · cases run
    · cases run

theorem rebuildCondition_returns (ok : DateOk iso name op value) :
    ∃ rebuilt, rebuildCondition iso name op value = some rebuilt := by
  unfold rebuildCondition
  cases date : isDate name with
  | false => exact ⟨_, rfl⟩
  | true =>
    obtain ⟨timestamp, text, value, rfl, parsed⟩ := ok date
    simp [timestamp, parsed]

structure Spec (good : Prop) (same : Prop) (changed date : Bool) : Prop where
  same_iff : same ↔ good
  changed_eq : good → changed = date
  date_of_bad : ¬ good → date = true

theorem regroup_spec {members result : List (Tree α)} (kind : Kind) (tuple : Bool)
    (spec : Spec (GoodAll iso members)
      (plainAll result = rewrittenAll iso members) changed (anyDate members)) :
    Spec (GoodAll iso members) ((regroup kind members (result, changed)).1.plain =
        (Tree.group kind tuple members).rewritten iso) changed (anyDate members) := by
  refine ⟨?_, spec.changed_eq, spec.date_of_bad⟩
  have unchanged := plainAll_eq_iff iso members
  cases changed with
  | true => simpa [regroup, Tree.plain, Tree.rewritten] using spec.same_iff
  | false =>
    simp only [regroup, Bool.false_eq_true, if_false, Tree.plain, Tree.rewritten,
      Tree.group.injEq, true_and]
    rw [unchanged]
    refine ⟨fun none => ?_, fun good => (spec.changed_eq good).symm⟩
    by_contra bad
    rw [spec.date_of_bad bad] at none
    cases none

mutual

theorem rebuild_spec (depth : Nat) : (tree : Tree α) → {tree' : Tree α} → {changed : Bool} →
    rebuild iso depth tree = some (tree', changed) →
      Spec (tree.Good iso) (tree'.plain = tree.rewritten iso) changed tree.hasDate
  | .condition tuple name op value, tree', changed, run => by
    rw [rebuild] at run
    obtain ⟨ok, eq, date⟩ := rebuildCondition_some iso run
    rw [Tree.Good, Tree.rewritten, Tree.hasDate]
    exact ⟨⟨fun _ => ok, fun _ => eq⟩, fun _ => date, fun bad => absurd ok bad⟩
  | .group .any tuple members, tree', changed, run => by
    rw [rebuild] at run
    split at run
    · cases run
    · obtain ⟨⟨result, changed⟩, rebuilt, eq⟩ := Option.map_eq_some_iff.mp run
      cases eq
      rw [Tree.Good, Tree.hasDate]
      exact regroup_spec iso .any tuple (rebuildAll_spec (depth + 1) members rebuilt)
  | .group .all tuple members, tree', changed, run => by
    rw [rebuild] at run
    rw [Tree.Good]
    split at run
    · rename_i isList
      rw [if_pos isList]
      split at run
      · cases run
      · obtain ⟨⟨result, changed⟩, rebuilt, eq⟩ := Option.map_eq_some_iff.mp run
        cases eq
        rw [Tree.hasDate]
        exact regroup_spec iso .all tuple (rebuildAll_spec (depth + 1) members rebuilt)
    · rename_i noList
      rw [if_neg noList]
      split at run <;> cases run
      rename_i three
      have unchanged := plainAll_eq_iff iso members
      refine ⟨?_, fun good => good.2.symm, fun bad => ?_⟩
      · simp [Tree.plain, Tree.rewritten, unchanged, three]
      · simpa [Tree.hasDate, three] using bad

theorem rebuildAll_spec (depth : Nat) : (trees : List (Tree α)) → {trees' : List (Tree α)} →
    {changed : Bool} → rebuildAll iso depth trees = some (trees', changed) →
      Spec (GoodAll iso trees) (plainAll trees' = rewrittenAll iso trees) changed (anyDate trees)
  | [], trees', changed, run => by
    cases run
    exact ⟨by simp [plainAll, rewrittenAll, GoodAll], fun _ => rfl, fun bad => absurd trivial bad⟩
  | tree :: trees, trees', changed, run => by
    rw [rebuildAll] at run
    split at run <;> cases run
    rename_i tree' here trees' others first rest
    have spec := rebuild_spec depth tree first
    have specs := rebuildAll_spec depth trees rest
    rw [GoodAll, anyDate]
    refine ⟨?_, fun good => ?_, fun bad => ?_⟩
    · simp [plainAll, rewrittenAll, spec.same_iff, specs.same_iff]
    · rw [spec.changed_eq good.1, specs.changed_eq good.2]
    · rcases not_and_or.mp bad with first | second
      · rw [spec.date_of_bad first, Bool.true_or]
      · rw [specs.date_of_bad second, Bool.or_true]

end

mutual

theorem rebuild_returns (depth : Nat) : (tree : Tree α) → tree.Good iso →
    depth + tree.depth ≤ 3 → ∃ rebuilt, rebuild iso depth tree = some rebuilt
  | .condition tuple name op value, good, _ => by
    rw [rebuild]
    exact rebuildCondition_returns iso good
  | .group .any tuple members, good, shallow => by
    rw [Tree.depth] at shallow
    obtain ⟨rebuilt, run⟩ := rebuildAll_returns (depth + 1) members good (by omega)
    rw [rebuild, if_neg (by omega), run]
    exact ⟨_, rfl⟩
  | .group .all tuple members, good, shallow => by
    rw [Tree.depth] at shallow
    rw [Tree.Good] at good
    rw [rebuild]
    split at good
    · rename_i isList
      obtain ⟨rebuilt, run⟩ := rebuildAll_returns (depth + 1) members good (by omega)
      rw [if_pos isList, if_neg (by omega), run]
      exact ⟨_, rfl⟩
    · rename_i noList
      rw [if_neg noList, if_pos good.1]
      exact ⟨_, rfl⟩

theorem rebuildAll_returns (depth : Nat) : (trees : List (Tree α)) → GoodAll iso trees →
    depth + depthAll trees ≤ 3 → ∃ rebuilt, rebuildAll iso depth trees = some rebuilt
  | [], _, _ => ⟨_, rfl⟩
  | tree :: trees, good, shallow => by
    rw [depthAll] at shallow
    obtain ⟨⟨tree', changed⟩, here⟩ := rebuild_returns depth tree good.1 (by omega)
    obtain ⟨⟨trees', others⟩, rest⟩ := rebuildAll_returns depth trees good.2 (by omega)
    rw [rebuildAll, here, rest]
    exact ⟨_, rfl⟩

end

/-- `None` exactly when there is no date; otherwise the filters with every date rewritten. -/
def Preprocessed (filters : List (Tree α)) : Prop :=
  ∃ result, preprocessDateFilters iso filters = some result ∧
    (result = none ↔ anyDate filters = false) ∧
    ∀ trees, result = some trees → plainAll trees = rewrittenAll iso filters

/-- For filters of the allowed depth: the preprocessing does what it is for exactly if date
conditions are valid and each group begins with a list, or is three members without a date. -/
theorem date_filters_iff (filters : {filters : List (Tree α) // depthAll filters ≤ 3}) :
    Preprocessed iso filters.1 ↔ GoodAll iso filters.1 := by
  obtain ⟨filters, shallow⟩ := filters
  rw [Preprocessed, preprocessDateFilters, if_neg (by omega)]
  constructor
  · rintro ⟨result, run, none, rewritten⟩
    obtain ⟨⟨trees, changed⟩, rebuilt, rfl⟩ := Option.map_eq_some_iff.mp run
    have spec := rebuildAll_spec iso 0 filters rebuilt
    by_contra bad
    have date := spec.date_of_bad bad
    cases changed with
    | true => exact bad (spec.same_iff.mp (rewritten trees rfl))
    | false => exact absurd ((none.mp rfl).symm.trans date) (by decide)
  · intro good
    obtain ⟨⟨trees, changed⟩, rebuilt⟩ := rebuildAll_returns iso 0 filters good (by omega)
    have spec := rebuildAll_spec iso 0 filters rebuilt
    have date := spec.changed_eq good
    have same := spec.same_iff.mpr good
    rw [rebuilt, ← date]
    refine ⟨_, rfl, ?_, fun result returned => ?_⟩
    · cases changed <;> simp
    · cases changed with
      | true => exact Option.some.inj returned ▸ same
      | false => cases returned

/-- `[["OR", [[("a.$date", ">", t), ("b.$date", ">", t), ("c", "=", t)]]]]`. -/
def datedGroup : List (Tree Unit) :=
  [.group .any false [.group .all false [.condition true "a.$date" ">" (.str "t"),
    .condition true "b.$date" ">" (.str "t"), .condition true "c" "=" (.str "t")]]]

/-- The inner group is taken for a condition, and its dates stay. -/
theorem tuple_group_not_rewritten : ¬ Preprocessed (fun _ => some ()) datedGroup := by
  rintro ⟨result, run, none, -⟩
  have kept : preprocessDateFilters (fun _ => some ()) datedGroup = some Option.none := rfl
  have absent := none.mp (Option.some.inj (run.symm.trans kept))
  exact absurd absent (by decide)

end TruenasMiddleware.Filters
