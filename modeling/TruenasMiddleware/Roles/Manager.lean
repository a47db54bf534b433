import Mathlib.Data.Finset.Sort
import Mathlib.Data.String.Basic
import TruenasMiddleware.Foundation.Closure
import TruenasMiddleware.Roles.Allowlist
import TruenasMiddleware.Roles.Table

/-! `ResourceManager` and `RoleManager` of `role.py`. The managers carry what every
registration keeps true: a resource is only ever granted to roles that the checks
accept, and the allowlist of a role names exactly the resources granted to it. -/

namespace TruenasMiddleware.Roles

def READ_RESOURCE_BLACKLIST : List String :=
  [".create", ".do_create", ".update", ".do_update", ".delete", ".do_delete"]

inductive RegistrationError
  | registered (title name : String)
  | notRegistered (title name : String)
  | invalidRole (role : String)
  | readRole (resource role : String)

/-- The text of the `ValueError`. A name is printed between quotes; names that need
escaping do not occur. -/
def RegistrationError.message : RegistrationError → String
  | .registered title name => s!"{title} '{name}' is already registered in this role manager"
  | .notRegistered title name => s!"{title} '{name}' is not registered in this role manager"
  | .invalidRole role => s!"Invalid role '{role}'"
  | .readRole resource role => s!"{resource}: resource may not be granted to {role}"

def grantError (roles : RoleTable) (resource role : String) : Option RegistrationError :=
  if role ∉ roles.names then some (.invalidRole role)
  else if endsWith role "_READ" && READ_RESOURCE_BLACKLIST.any (endsWith resource) then
    some (.readRole resource role)
  else none

theorem mem_names_of_grantError {roles : RoleTable} {resource role : String}
    (granted : grantError roles resource role = none) : role ∈ roles.names := by
  by_contra unknown
  rw [grantError, if_pos unknown] at granted
  cases granted

/-- `allowlists_for_roles` is a `defaultdict(list)`: a missing role has no entries. -/
structure ResourceManager (roles : RoleTable) (resourceMethod : HttpVerb) where
  resourceTitle : String
  resources : String → Option (List String)
  allowlistsForRoles : String → List AllowListItem
  granted : ∀ name given, resources name = some given →
    ∀ role ∈ given, grantError roles name role = none
  listed : ∀ role item, item ∈ allowlistsForRoles role ↔ item.method = resourceMethod ∧
    ∃ given, resources item.resource = some given ∧ role ∈ given

namespace ResourceManager

variable {roles : RoleTable} {resourceMethod : HttpVerb}

def new (roles : RoleTable) (resourceMethod : HttpVerb) (resourceTitle : String) :
    ResourceManager roles resourceMethod where
  resourceTitle := resourceTitle
  resources := fun _ => none
  allowlistsForRoles := fun _ => []
  granted := fun _ _ found => by cases found
  listed := by simp

def appendItem (item : AllowListItem) (lists : String → List AllowListItem)
    (added : List String) : String → List AllowListItem :=
  added.foldl (fun lists role other =>
    if other = role then lists other ++ [item] else lists other) lists

theorem mem_appendItem {item other : AllowListItem} {lists : String → List AllowListItem}
    {added : List String} {role : String} :
    other ∈ appendItem item lists added role ↔
      other ∈ lists role ∨ (other = item ∧ role ∈ added) := by
  induction added generalizing lists with
  | nil => simp [appendItem]
  | cons first rest ih =>
    rw [appendItem, List.foldl_cons, ← appendItem, ih]
    by_cases here : role = first
    · simp [here, or_assoc]
      tauto
    · simp [here]

variable (manager : ResourceManager roles resourceMethod)

def grant (name : String)
    (given added : List String) (registered : manager.resources name = some given)
    (accepted : ∀ role ∈ added, grantError roles name role = none) :
    ResourceManager roles resourceMethod where
  resourceTitle := manager.resourceTitle
  resources := fun other => if other = name then some (given ++ added) else manager.resources other
  allowlistsForRoles := appendItem ⟨resourceMethod, name⟩ manager.allowlistsForRoles added
  granted := by
    intro other roles found role inside
    by_cases here : other = name
    · rw [if_pos here] at found
      cases found
      rw [here]
      rcases List.mem_append.mp inside with old | new
      · exact manager.granted name given registered role old
      · exact accepted role new
    · rw [if_neg here] at found
      exact manager.granted other roles found role inside
  listed := by
    intro role item
    rw [mem_appendItem, manager.listed]
    by_cases here : item.resource = name
    · rw [if_pos here, here, registered]
      have same : item = ⟨resourceMethod, name⟩ ↔ item.method = resourceMethod := by
        cases item
        simp_all
      simp [same, ← and_or_left]
    · have other : item ≠ ⟨resourceMethod, name⟩ := by
        rintro rfl
        exact here rfl
      simp [here, other]

def addRolesToResource (name : String)
    (added : List String) : Except RegistrationError (ResourceManager roles resourceMethod) :=
  match registered : manager.resources name with
  | none => .error (.notRegistered manager.resourceTitle name)
  | some given =>
    match accepted : added.findSome? (grantError roles name) with
    | some error => .error error
    | none =>
      .ok (manager.grant name given added registered (List.findSome?_eq_none_iff.mp accepted))

def addResource (name : String)
    (missing : manager.resources name = none) : ResourceManager roles resourceMethod where
  resourceTitle := manager.resourceTitle
  resources := fun other => if other = name then some [] else manager.resources other
  allowlistsForRoles := manager.allowlistsForRoles
  granted := by
    intro other given found role inside
    by_cases here : other = name
    · rw [if_pos here] at found
      cases found
      cases inside
    · rw [if_neg here] at found
      exact manager.granted other given found role inside
  listed := by
    intro role item
    rw [manager.listed]
    by_cases here : item.resource = name
    · simp [here, missing]
    · simp [here]

/-- The manager is changed also by a registration that raises: a new resource is
entered before its roles are checked. -/
def registerResource (name : String) (added : List String) (existOk : Bool) :
    ResourceManager roles resourceMethod × Option RegistrationError :=
  let entered : Except RegistrationError (ResourceManager roles resourceMethod) :=
    match missing : manager.resources name with
    | some _ => if existOk then .ok manager else .error (.registered manager.resourceTitle name)
    | none => .ok (manager.addResource name missing)
  match entered with
  | .error error => (manager, some error)
  | .ok entered =>
    match entered.addRolesToResource name added with
    | .error error => (entered, some error)
    | .ok added => (added, none)

def atomicRolesForResource (name : String) : Finset String :=
  ((manager.resources name).getD []).toFinset

end ResourceManager

def addParent (name : String) (state : Finset String × Bool) (child : String) :
    Finset String × Bool :=
  if child ∈ state.1 then (insert name state.1, true) else state

def addIncluding (state : Finset String × Bool) (entry : String × Role) : Finset String × Bool :=
  if entry.1 ∉ state.1 then entry.2.includes.foldl (addParent entry.1) state else state

def whileChanged (roles : RoleTable) : Nat → Finset String → Option (Finset String)
  | 0, _ => none
  | fuel + 1, found =>
    match roles.entries.foldl addIncluding (found, false) with
    | (found, true) => whileChanged roles fuel found
    | (found, false) => some found

/-- The loop of `roles_for_resource` adds a role in every turn but the last. -/
def ResourceManager.rolesForResource {roles : RoleTable} {resourceMethod : HttpVerb}
    (manager : ResourceManager roles resourceMethod) (name : String) : Option (List String) :=
  (whileChanged roles (roles.entries.length + 1) (manager.atomicRolesForResource name)).map
    fun found => found.sort (· ≤ ·)

/-- One turn of the comprehension over the table that a full admin stands for. -/
def allow (roles : RoleTable) (enabledStig : STIGType) (found : Finset String) (name : String) :
    Except RoleError (Finset String) :=
  (roleStigCheck roles name enabledStig).map fun passes =>
    if passes then insert name found else found

/-- `roles_for_role`, with the recursion limit of the interpreter. -/
def rolesForRole (roles : RoleTable) (enabledStig : STIGType) :
    Nat → String → Except RoleError (Finset String)
  | 0, _ => .error .recursionError
  | limit + 1, name =>
    match roles.get? name with
    | none => .ok ∅
    | some role =>
      if role.fullAdmin then roles.names.foldlM (allow roles enabledStig) ∅
      else
        role.includes.foldlM
          (Closure.visit (roleStigCheck roles · enabledStig) (rolesForRole roles enabledStig limit))
          {name}

structure RoleManager (roles : RoleTable) where
  methods : ResourceManager roles .call
  events : ResourceManager roles .subscribe

namespace RoleManager

variable {roles : RoleTable}

def new (roles : RoleTable) : RoleManager roles where
  methods := .new roles .call "Method"
  events := .new roles .subscribe "Event"

variable (manager : RoleManager roles)

def registerMethod (name : String) (added : List String)
    (existOk : Bool := false) : RoleManager roles × Option RegistrationError :=
  let (methods, error) := manager.methods.registerResource name added existOk
  ({ manager with methods }, error)

def addRolesToMethod (name : String) (added : List String) :
    Except RegistrationError (RoleManager roles) :=
  (manager.methods.addRolesToResource name added).map fun methods => { manager with methods }

def registerEvent (name : String) (added : List String)
    (existOk : Bool := false) : RoleManager roles × Option RegistrationError :=
  let (events, error) := manager.events.registerResource name added existOk
  ({ manager with events }, error)

def rolesForMethod (name : String) : Option (List String) :=
  manager.methods.rolesForResource name

def rolesForEvent (name : String) : Option (List String) :=
  manager.events.rolesForResource name

/-- The entries of the roles in `found`, which is a set: the order of the table
stands for the order in which it is iterated. -/
def entriesOf (found : Finset String) : List AllowListItem :=
  (roles.names.filter (· ∈ found)).flatMap fun role =>
    manager.methods.allowlistsForRoles role ++ manager.events.allowlistsForRoles role

def allowlistForRole (limit : Nat) (name : String)
    (enabledStig : STIGType) : Except RoleError (List AllowListItem) :=
  if roles.fullAdmin name then
    if enabledStig ≠ STIGType.none then
      (rolesForRole roles enabledStig limit name).map manager.entriesOf
    else .ok [ALLOW_LIST_FULL_ADMIN]
  else (rolesForRole roles enabledStig limit name).map manager.entriesOf

end RoleManager

end TruenasMiddleware.Roles
