import Mathlib.Data.List.Basic

/-! `filters_include_ds_accounts` of `plugins/account.py`: directory services are not asked when a
filter of the top level leaves local accounts only. -/

namespace TruenasMiddleware.Accounts

/-- A value of a filter or of an account; `is True` and `is False` see booleans only. -/
inductive Scalar (α : Type)
  | bool (value : Bool)
  | other (value : α)
deriving DecidableEq

/-- An element of the filter list. `short` is one with less than three items, such as
`['OR', branches]`; `group` one whose first item is no name. -/
inductive QueryFilter (α : Type)
  | short (items : α)
  | group (items : α)
  | condition (name op : String) (value : Scalar α) (more : List α)

abbrev Account (α : Type) := String → Scalar α

/-- What `filter_list` makes of conditions: `=` on booleans is their equality. -/
structure FilterList (α : Type) where
  accepts : QueryFilter α → Bool
  equal : Scalar α → Scalar α → Bool
  compare : String → Scalar α → Scalar α → Bool
  nested : α → Account α → Bool
  equal_bool : ∀ first second, equal (.bool first) (.bool second) = decide (first = second)

variable {α : Type} [DecidableEq α]

namespace FilterList

variable (lib : FilterList α)

def meets (account : Account α) : QueryFilter α → Bool
  | .short items => lib.nested items account
  | .group items => lib.nested items account
  | .condition name op value _ =>
    if op = "=" then lib.equal (account name) value
    else if op = "!=" then !lib.equal (account name) value
    else lib.compare op (account name) value

def filterList (entries : List (Account α)) (filters : List (QueryFilter α)) :
    Option (List (Account α)) :=
  if filters.all lib.accepts then
    some (entries.filter fun account => filters.all (lib.meets account))
  else none

end FilterList

def excludesDs : QueryFilter α → Bool
  | .short _ => false
  | .group _ => false
  | .condition name op value _ =>
    decide (name ∈ ["local", "builtin"]) &&
      (if op = "=" then decide (value = .bool true)
        else if op = "!=" then decide (value = .bool false)
        else false)

def filtersIncludeDsAccounts (filters : List (QueryFilter α)) : Bool := !filters.any excludesDs

/-- `user.query`: `cached` are the accounts of a healthy directory service. -/
def userQuery (lib : FilterList α) (result cached : List (Account α)) (containerRoot : Account α)
    (filters : List (QueryFilter α)) : Option (List (Account α)) :=
  let dsUsers := if filtersIncludeDsAccounts filters then cached else []
  lib.filterList (result ++ dsUsers ++ [containerRoot]) filters

structure IsDs (account : Account α) : Prop where
  remote : account "local" = .bool false
  added : account "builtin" = .bool false

theorem meets_of_excludesDs (lib : FilterList α) {account : Account α} (ds : IsDs account)
    {filter : QueryFilter α} (excludes : excludesDs filter = true) :
    lib.meets account filter = false := by
  cases filter with
  | short | group => cases excludes
  | condition name op value more =>
    obtain ⟨named, valued⟩ := Bool.and_eq_true_iff.mp excludes
    have isFalse : account name = .bool false := by
      have either := of_decide_eq_true named
      simp only [List.mem_cons, List.not_mem_nil, or_false] at either
      rcases either with rfl | rfl
      · exact ds.remote
      · exact ds.added
    rw [FilterList.meets, isFalse]
    split_ifs at valued with equals differs
    · rw [if_pos equals, of_decide_eq_true valued, lib.equal_bool]
      rfl
    · rw [if_neg equals, if_pos differs, of_decide_eq_true valued, lib.equal_bool]
      rfl

/-- When the scan answers that no account of a directory service is asked for, none meets the
filters, and the query returns what it would with them. -/
theorem local_only_sound (lib : FilterList α) (filters : List (QueryFilter α))
    (skipped : filtersIncludeDsAccounts filters = false) :
    (∀ account, IsDs account → filters.all (lib.meets account) = false) ∧
      ∀ result cached containerRoot, (∀ account ∈ cached, IsDs account) →
        userQuery lib result cached containerRoot filters =
          lib.filterList (result ++ cached ++ [containerRoot]) filters := by
  have unmet : ∀ account, IsDs account → filters.all (lib.meets account) = false := by
    intro account ds
    have found : ∃ filter ∈ filters, excludesDs filter = true := by
      simpa [filtersIncludeDsAccounts] using skipped
    obtain ⟨filter, member, excludes⟩ := found
    refine List.all_eq_false.mpr ⟨filter, member, ?_⟩
    rw [meets_of_excludesDs lib ds excludes]
    exact Bool.false_ne_true
  refine ⟨unmet, fun result cached containerRoot ds => ?_⟩
  have dropped : cached.filter (fun account => filters.all (lib.meets account)) = [] :=
    List.filter_eq_nil_iff.mpr fun account member met => by
      rw [unmet account (ds account member)] at met
      cases met
  simp [userQuery, skipped, FilterList.filterList, dropped]

theorem local_only_sound_root : ∃ lib : FilterList String,
      filtersIncludeDsAccounts [.condition "local" "=" (.bool true) ([] : List String),
        .condition "username" "=" (.other "root") []] = false ∧
      [.condition "local" "=" (.bool true) ([] : List String),
        .condition "username" "=" (.other "root") []].all (lib.meets fun _ => .bool false) =
          false := by
  let lib : FilterList String :=
    { accepts := fun _ => true
      equal := fun first second => decide (first = second)
      compare := fun _ _ _ => false
      nested := fun _ _ => true
      equal_bool := by decide }
  exact ⟨lib, by decide, (local_only_sound lib _ (by decide)).1 _ ⟨rfl, rfl⟩⟩

end TruenasMiddleware.Accounts
