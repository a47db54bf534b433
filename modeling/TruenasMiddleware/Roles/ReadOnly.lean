import TruenasMiddleware.Roles.Agreement
import TruenasMiddleware.Foundation.Fallible

/-! Write methods in the allowlists of read-only roles. The check of a registration looks at the
suffixes of the role and of the resource: it lets `READONLY_ADMIN` have a write method that is
registered for it, and does not see a resource that is a last component alone. -/

namespace TruenasMiddleware.Roles

open Relation List RoleTable ResourceManager

def WRITE_COMPONENTS : List String := ["create", "update", "delete"]

/-- A method of a service, as all methods are registered. -/
def isServiceWrite (resource : String) : Bool :=
  WRITE_COMPONENTS.any fun component => endsWith resource ("." ++ component)

def isWrite (resource : String) : Bool :=
  decide (resource ∈ WRITE_COMPONENTS) || isServiceWrite resource

def isReadRole (name : String) : Bool := endsWith name "_READ" || decide (name = "READONLY_ADMIN")

section Allowed

variable {roles : RoleTable} (manager : RoleManager roles)

def RoleManager.Lacks (name : String) (writes : String → Bool) : Prop :=
  ∀ limit enabledStig list, manager.allowlistForRole limit name enabledStig = .ok list →
    ∀ item ∈ list, writes item.resource = false

def RoleManager.ReadOnly (name : String) : Prop := manager.Lacks name isWrite

end Allowed

theorem blacklisted_of_isServiceWrite {resource : String}
    (writes : isServiceWrite resource = true) :
    READ_RESOURCE_BLACKLIST.any (endsWith resource) = true := by
  obtain ⟨component, mem, ends⟩ := any_eq_true.mp writes
  refine any_eq_true.mpr ⟨"." ++ component, ?_, ends⟩
  simp only [WRITE_COMPONENTS, mem_cons, not_mem_nil, or_false] at mem
  rcases mem with rfl | rfl | rfl
  all_goals decide

theorem readRoles_closed : ∀ entry ∈ ROLES.entries, isReadRole entry.1 = true →
    entry.2.fullAdmin = false ∧ ∀ child ∈ entry.2.includes, endsWith child "_READ" = true := by
  decide +kernel

section Read

variable {name child role : String} (read : isReadRole name = true)

include read

theorem plain_of_isReadRole : ROLES.fullAdmin name = false := by
  rw [fullAdmin]
  cases found : ROLES.get? name with
  | none => rfl
  | some role => exact (readRoles_closed _ (RoleTable.get?_eq_some.mp found) read).1

variable {enabledStig : STIGType}

/-- What a read role includes is a `_READ` role. -/
theorem eq_or_read_of_reach
    (path : ReflTransGen (ROLES.Grants enabledStig) name child) :
    child = name ∨ endsWith child "_READ" = true := by
  induction path with
  | refl => exact .inl rfl
  | @tail middle child _ granted ih =>
    have readMiddle : isReadRole middle = true := by
      rcases ih with rfl | ends
      · exact read
      · rw [isReadRole, ends, Bool.true_or]
    have included := expands_subset granted.1
    rw [includes] at included
    cases found : ROLES.get? middle with rw [found] at included
    | none => cases included
    | some role =>
      have closed := readRoles_closed _ (RoleTable.get?_eq_some.mp found) readMiddle
      exact .inr (closed.2 child included)

theorem eq_or_read_of_mem {limit : Nat} {found : Finset String}
    (run : rolesForRole ROLES enabledStig limit name = .ok found)
    (mem : role ∈ found) : role = name ∨ endsWith role "_READ" = true := by
  obtain ⟨child, path, stands⟩ := (mem_rolesForRole run role).mp mem
  have reached := eq_or_read_of_reach read path
  have readChild : isReadRole child = true := by
    rcases reached with rfl | ends
    · exact read
    · rw [isReadRole, ends, Bool.true_or]
  obtain ⟨rfl, -⟩ := (mem_standsFor (plain_of_isReadRole readChild)).mp stands
  exact reached

theorem finitary_of_isReadRole (known : name ∈ ROLES.names) :
    Finitary ROLES STIGType.none name := by
  refine finitary_shipped STIGType.none known ?_ ?_
  all_goals
    rintro rfl
    revert read
    decide

end Read

section Manager

variable (manager : RoleManager ROLES)
  {verb : HttpVerb} {resource role : String} {given : List String}

theorem not_lacks_of_given {writes : String → Bool}
    (registered : manager.given verb resource = some given) (mem : role ∈ given)
    (read : isReadRole role = true) (written : writes resource = true) :
    ¬ manager.Lacks role writes := by
  intro lacks
  have known := mem_names_of_grantError (manager.grantError_of_given registered mem)
  obtain ⟨limit, returns⟩ := rolesForRole_returns (finitary_of_isReadRole read known)
  obtain ⟨found, run⟩ := returns limit (Nat.le_refl _)
  have plain := plain_of_isReadRole read
  have listed : manager.allowlistForRole limit role STIGType.none =
      .ok (manager.entriesOf found) := by
    rw [RoleManager.allowlistForRole, plain, run]
    rfl
  have stands : role ∈ found :=
    (mem_rolesForRole run role).mpr ⟨role, .refl, (mem_standsFor plain).mpr ⟨rfl, known⟩⟩
  have harmless := lacks limit _ _ listed ⟨verb, resource⟩
    ((manager.mem_entriesOf found _).mpr ⟨role, stands, given, registered, mem⟩)
  rw [written] at harmless
  cases harmless

/-- A write method of a service is never registered with a `_READ` role. -/
theorem not_read_of_given (registered : manager.given verb resource = some given)
    (mem : role ∈ given) (writes : isServiceWrite resource = true) :
    endsWith role "_READ" = false := by
  have accepted := manager.grantError_of_given registered mem
  refine (Bool.not_eq_true _).mp fun ends => ?_
  rw [grantError, if_neg (not_not.mpr (mem_names_of_grantError accepted)), ends,
    blacklisted_of_isServiceWrite writes] at accepted
  cases accepted

theorem given_of_not_lacks {name : String} (read : isReadRole name = true)
    (written : ¬ manager.Lacks name isServiceWrite) :
    endsWith name "_READ" = false ∧ ∃ verb resource given,
      manager.given verb resource = some given ∧ isServiceWrite resource = true ∧ name ∈ given := by
  simp only [RoleManager.Lacks, not_forall, Bool.not_eq_false] at written
  obtain ⟨limit, enabledStig, list, listed, item, inside, writes⟩ := written
  rw [RoleManager.allowlistForRole, plain_of_isReadRole read] at listed
  obtain ⟨found, returned, rfl⟩ := Fallible.map_eq_ok.mp listed
  obtain ⟨role, member, given, registered, inGiven⟩ := (manager.mem_entriesOf found item).mp inside
  have guarded := not_read_of_given manager registered inGiven writes
  rcases eq_or_read_of_mem read returned member with rfl | ends
  · exact ⟨guarded, _, _, given, registered, writes, inGiven⟩
  · rw [guarded] at ends
    cases ends

end Manager

theorem addRolesToResource_eq {verb : HttpVerb} (manager : ResourceManager ROLES verb)
    {name : String} {given added : List String} (registered : manager.resources name = some given)
    (accepted : ∀ role ∈ added, grantError ROLES name role = none) :
    manager.addRolesToResource name added =
      .ok (manager.grant name given added registered accepted) := by
  rw [addRolesToResource]
  split
  · rename_i missing
    rw [registered] at missing
    cases missing
  · rename_i found entered
    cases registered.symm.trans entered
    split
    · rename_i error refused
      rw [List.findSome?_eq_none_iff.mpr accepted] at refused
      cases refused
    · rfl

theorem registerMethod_new (name : String) (added : List String)
    (accepted : ∀ role ∈ added, grantError ROLES name role = none) :
    ∃ manager, (RoleManager.new ROLES).registerMethod name added = (manager, none) ∧
      manager.given .call name = some added := by
  have entered : ((RoleManager.new ROLES).methods.addResource name rfl).resources name = some [] :=
    if_pos rfl
  refine ⟨⟨.grant _ name [] added entered accepted, (RoleManager.new ROLES).events⟩, ?_, if_pos rfl⟩
  have run := addRolesToResource_eq _ entered accepted
  simp only [RoleManager.new, new] at run
  simp only [RoleManager.registerMethod, registerResource, RoleManager.new, new, run]

end TruenasMiddleware.Roles
