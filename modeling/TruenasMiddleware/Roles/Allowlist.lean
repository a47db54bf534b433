import Mathlib.Data.Finset.Insert
import TruenasMiddleware.Foundation.Fnmatch

/-! `utils/allowlist.py`: the list of resources that a session may use, compiled into
sets of exact names and lists of patterns. -/

namespace TruenasMiddleware.Roles

inductive HttpVerb
  | get
  | post
  | put
  | delete
  | call
  | subscribe
  | any
deriving DecidableEq

structure AllowListItem where
  method : HttpVerb
  resource : String
deriving DecidableEq

def ALLOW_LIST_FULL_ADMIN : AllowListItem := ⟨.any, "*"⟩

def isPattern (resource : String) : Bool := resource.toList.contains '*'

namespace AllowListItem

def covers (item : AllowListItem) (resource : String) : Bool :=
  if isPattern item.resource then Fnmatch.fnmatch item.resource resource
  else item.resource == resource

end AllowListItem

/-- The dictionaries map a missing verb to nothing; both are falsy. A pattern is kept
as the text it was compiled from. -/
structure Allowlist where
  exact : HttpVerb → Finset String
  fullAdmin : Bool
  patterns : HttpVerb → List String

namespace Allowlist

def add (list : Allowlist) (entry : AllowListItem) : Allowlist :=
  if isPattern entry.resource then
    { list with patterns := fun method =>
        if method = entry.method then list.patterns method ++ [entry.resource]
        else list.patterns method }
  else
    { list with exact := fun method =>
        if method = entry.method then insert entry.resource (list.exact method)
        else list.exact method }

/-- `Allowlist(allowlist)`. -/
def ofItems (allowlist : List AllowListItem) : Allowlist :=
  allowlist.foldl add
    { exact := fun _ => ∅
      fullAdmin := decide (ALLOW_LIST_FULL_ADMIN ∈ allowlist)
      patterns := fun _ => [] }

def authorizeInternal (list : Allowlist) (method : HttpVerb) (resource : String) : Bool :=
  decide (resource ∈ list.exact method) ||
    (list.patterns method).any (Fnmatch.fnmatch · resource)

def authorize (list : Allowlist) (method : HttpVerb) (resource : String) : Bool :=
  list.authorizeInternal .any resource || list.authorizeInternal method resource

theorem authorizeInternal_add (list : Allowlist) (entry : AllowListItem) (method : HttpVerb)
    (resource : String) :
    (list.add entry).authorizeInternal method resource = (list.authorizeInternal method resource ||
        (decide (entry.method = method) && entry.covers resource)) := by
  by_cases eq : entry.method = method
  · subst eq
    by_cases pattern : isPattern entry.resource = true
    · simp [add, authorizeInternal, AllowListItem.covers, pattern, Bool.or_assoc]
    · have named : decide (resource = entry.resource) = (entry.resource == resource) := by
        rw [Bool.eq_iff_iff, decide_eq_true_eq, beq_iff_eq, eq_comm]
      simp [add, authorizeInternal, AllowListItem.covers, pattern, named, Bool.or_assoc,
        Bool.or_comm]
  · have other : method ≠ entry.method := Ne.symm eq
    by_cases pattern : isPattern entry.resource = true <;>
      simp [add, authorizeInternal, pattern, eq, other]

theorem authorizeInternal_foldl (entries : List AllowListItem) (list : Allowlist)
    (method : HttpVerb) (resource : String) :
    (entries.foldl add list).authorizeInternal method resource = true ↔
      list.authorizeInternal method resource = true ∨
        ∃ entry ∈ entries, entry.method = method ∧ entry.covers resource = true := by
  induction entries generalizing list with
  | nil => simp
  | cons entry rest ih =>
    rw [List.foldl_cons, ih, authorizeInternal_add]
    simp [or_assoc]

theorem authorize_ofItems (items : List AllowListItem) (method : HttpVerb) (resource : String) :
    (ofItems items).authorize method resource = true ↔
      ∃ item ∈ items, (item.method = .any ∨ item.method = method) ∧
        item.covers resource = true := by
  have empty : ∀ verb, Allowlist.authorizeInternal
      { exact := fun _ => ∅
        fullAdmin := decide (ALLOW_LIST_FULL_ADMIN ∈ items)
        patterns := fun _ => [] } verb resource = false := fun _ => rfl
  rw [authorize, Bool.or_eq_true, ofItems, authorizeInternal_foldl, authorizeInternal_foldl,
    empty, empty]
  constructor
  · rintro ((impossible | ⟨item, mem, verb, covers⟩) |
      (impossible | ⟨item, mem, verb, covers⟩))
    · cases impossible
    · exact ⟨item, mem, .inl verb, covers⟩
    · cases impossible
    · exact ⟨item, mem, .inr verb, covers⟩
  · rintro ⟨item, mem, verb | verb, covers⟩
    · exact .inl (.inr ⟨item, mem, verb, covers⟩)
    · exact .inr (.inr ⟨item, mem, verb, covers⟩)

end Allowlist

end TruenasMiddleware.Roles
