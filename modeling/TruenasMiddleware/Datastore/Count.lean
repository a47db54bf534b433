import TruenasMiddleware.Filters.Tree

/-! `datastore.query` with and without `count`, of `plugins/datastore`, without limit and offset. A
count joins the related tables only for a foreign key in a filter of the top level. -/

namespace TruenasMiddleware.Datastore

open Filters

/-- The table and its conditions, `none` where making one raises. A foreign key refers to a key, so
that the outer joins leave one row for each row: `joined` is the rest of it. -/
structure Source (ρ σ α : Type) where
  rows : List ρ
  joined : ρ → σ
  column : String → String → Operand α → Option (ρ → Bool)
  foreign : String → String → Operand α → Option (σ → Bool)

def hasUnderscores : List Char → Bool
  | '_' :: '_' :: _ => true
  | _ :: rest => hasUnderscores rest
  | [] => false

def looksForeign (name : String) : Bool :=
  hasUnderscores name.toList || decide ('.' ∈ name.toList)

def isJsonPath (name : String) : Bool := decide (name.toList.take 2 = ['$', '.'])

variable {ρ σ α : Type} (source : Source ρ σ α)

mutual

/-- One turn of `_filters_to_queryset`; `aliases` says whether the tables are joined. -/
def toCondition (aliases : Bool) : Filters.Tree α → Option (ρ → Bool)
  | .condition _ name op value =>
    if !isJsonPath name && looksForeign name then
      if aliases then (source.foreign name op value).map (· ∘ source.joined) else none
    else source.column name op value
  | .group .any _ members =>
    (filtersToQueryset aliases members).map fun tests row => tests.any fun test => test row
  | .group .all _ _ => none

def filtersToQueryset (aliases : Bool) : List (Filters.Tree α) → Option (List (ρ → Bool))
  | [] => some []
  | filter :: filters =>
    (toCondition aliases filter).bind fun test =>
      (filtersToQueryset aliases filters).map (test :: ·)

end

def filtersContainsForeignKey (filters : List (Filters.Tree α)) : Bool :=
  filters.any fun filter => match filter with
    | .condition _ name _ _ => looksForeign name
    | .group _ _ _ => false

def rowsOf (aliases : Bool) (filters : List (Filters.Tree α)) : Option (List ρ) :=
  (filtersToQueryset source aliases filters).map fun tests =>
    source.rows.filter fun row => tests.all fun test => test row

def query (relationships : Bool) (filters : List (Filters.Tree α)) : Option (List ρ) :=
  rowsOf source relationships filters

def count (relationships : Bool) (filters : List (Filters.Tree α)) : Option Nat :=
  (rowsOf source (relationships && filtersContainsForeignKey filters) filters).map List.length

mutual

def crosses : Filters.Tree α → Bool
  | .condition _ name _ _ => !isJsonPath name && looksForeign name
  | .group _ _ members => anyCrosses members

def anyCrosses : List (Filters.Tree α) → Bool
  | [] => false
  | filter :: filters => crosses filter || anyCrosses filters

end

mutual

theorem toCondition_false : (filter : Filters.Tree α) → (aliases : Bool) →
    toCondition source false filter =
      if crosses filter then none else toCondition source aliases filter
  | .condition _ name _ _, aliases => by
    cases foreign : !isJsonPath name && looksForeign name <;> simp [toCondition, crosses, foreign]
  | .group .any _ members, aliases => by
    rw [toCondition, filtersToQueryset_false members aliases, crosses]
    split <;> simp [toCondition]
  | .group .all _ _, aliases => by simp [toCondition]

theorem filtersToQueryset_false : (filters : List (Filters.Tree α)) → (aliases : Bool) →
    filtersToQueryset source false filters =
      if anyCrosses filters then none else filtersToQueryset source aliases filters
  | [], _ => by simp [filtersToQueryset, anyCrosses]
  | filter :: filters, aliases => by
    rw [filtersToQueryset, toCondition_false filter aliases,
      filtersToQueryset_false filters aliases, anyCrosses, filtersToQueryset]
    cases crosses filter <;> cases anyCrosses filters <;> simp

end

/-- When the query accepts the filters, the count is the number of its rows. -/
def CountAgrees (relationships : Bool) (filters : List (Filters.Tree α)) : Prop :=
  ∀ found, query source relationships filters = some found →
    count source relationships filters = some found.length

/-- For filters that the query accepts: exactly if one of the top level looks like a foreign key, or
none at any depth is on one. -/
theorem count_agrees_iff (relationships : Bool) (filters : List (Filters.Tree α)) :
    CountAgrees source relationships filters ↔ (query source relationships filters ≠ none →
        filtersContainsForeignKey filters = true ∨ anyCrosses filters = false) := by
  rw [CountAgrees, query]
  cases accepted : rowsOf source relationships filters with
  | none => simp
  | some found =>
    cases top : filtersContainsForeignKey filters with
    | true => simp [count, top, accepted]
    | false =>
      have plain := filtersToQueryset_false source filters relationships
      rw [count, top, Bool.and_false, rowsOf, plain]
      cases crossing : anyCrosses filters with
      | true => simp
      | false => simpa [rowsOf] using congrArg (Option.map List.length) accepted

/-- `["OR", [["group__name", "=", "x"]]]`: the query returns, and the count raises. -/
theorem nested_count_raises :
    ¬ CountAgrees (⟨[()], id, fun _ _ _ => none, fun _ _ _ => some fun _ => true⟩ :
      Source Unit Unit Unit) true
      [.group .any false [.condition false "group__name" "=" (.str "x")]] := by
  have foreign : (!isJsonPath "group__name" && looksForeign "group__name") = true := by decide
  intro agrees
  have counted := agrees [()] (by simp [query, rowsOf, filtersToQueryset, toCondition, foreign])
  simp [count, rowsOf, filtersToQueryset, toCondition, foreign,
    filtersContainsForeignKey] at counted

end TruenasMiddleware.Datastore
