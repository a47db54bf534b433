import TruenasMiddleware.Foundation.Fallible
import TruenasMiddleware.Roles.Agreement

/-! `compose_privilege`: the roles and the allowlist that a user obtains from several
privileges, and what a STIG keeps out of them. -/

namespace TruenasMiddleware.Roles

open Relation List Fallible Allowlist

structure SecurityConfig where
  enableGposStig : Bool

def systemSecurityConfigToStigType (config : SecurityConfig) : STIGType :=
  if config.enableGposStig then .gpos else .none

structure Privilege where
  roles : List String
  webShell : Bool := false

structure Composed where
  roles : Finset String := ∅
  allowlist : List AllowListItem := []
  webShell : Bool := false
  webuiAccess : Bool := false

/-- Whether one of the roles is not a builtin one; a `KeyError` for a role that is not
in the table, unless such a role came before it. -/
def privilegeHasWebuiAccess (roles : RoleTable) : List String → Except RoleError Bool
  | [] => .ok false
  | name :: rest =>
    match roles.get? name with
    | none => .error (.keyError name)
    | some role => if role.builtin = false then .ok true else privilegeHasWebuiAccess roles rest

section Compose

variable {roles : RoleTable} (manager : RoleManager roles) (limit : Nat) (enabledStig : STIGType)

def composeRole (compose : Composed) (role : String) : Except RoleError Composed := do
  let found ← rolesForRole roles enabledStig limit role
  let items ← manager.allowlistForRole limit role enabledStig
  pure { compose with
    roles := compose.roles ∪ found
    allowlist := compose.allowlist ++ items }

def composeOne (compose : Composed) (privilege : Privilege) : Except RoleError Composed := do
  let compose ← privilege.roles.foldlM (composeRole manager limit enabledStig) compose
  let access ← privilegeHasWebuiAccess roles privilege.roles
  pure { compose with
    webShell := compose.webShell || privilege.webShell
    webuiAccess := compose.webuiAccess || access }

/-- `compose_privilege`. The table of the manager is the one that
`privilege_has_webui_access` looks roles up in. -/
def composePrivilege (config : SecurityConfig) (privileges : List Privilege) :
    Except RoleError Composed := do
  let enabledStig := systemSecurityConfigToStigType config
  let compose ← privileges.foldlM (composeOne manager limit enabledStig) {}
  pure (if enabledStig ≠ STIGType.none then { compose with webShell := false } else compose)

end Compose

section Spec

variable {roles : RoleTable} {manager : RoleManager roles} {limit : Nat} {enabledStig : STIGType}

/-- Whoever is assigned a role obtains what the roles it grants stand for. -/
def Obtains (roles : RoleTable) (enabledStig : STIGType) (assigned x : String) : Prop :=
  ∃ c, ReflTransGen (roles.Grants enabledStig) assigned c ∧ x ∈ roles.standsFor enabledStig c

/-- The resource of the entry was registered with the role. -/
def RoleManager.Registered (manager : RoleManager roles) (item : AllowListItem) (role : String) :
    Prop :=
  ∃ given, manager.given item.method item.resource = some given ∧ role ∈ given

/-- What assigned roles add to a composed privilege under a STIG. -/
structure Adds (manager : RoleManager roles) (enabledStig : STIGType) (assigned : List String)
    (before after : Composed) : Prop where
  obtained : ∀ x, x ∈ after.roles ↔ x ∈ before.roles ∨
    ∃ name ∈ assigned, Obtains roles enabledStig name x
  items : ∀ item, item ∈ after.allowlist ↔ item ∈ before.allowlist ∨
    ∃ name ∈ assigned, ∃ x, Obtains roles enabledStig name x ∧ manager.Registered item x

theorem Adds.nil (compose : Composed) : Adds manager enabledStig [] compose compose := by
  constructor <;> simp

variable {after before middle : Composed}

theorem Adds.append {first second : List String}
    (left : Adds manager enabledStig first before middle)
    (right : Adds manager enabledStig second middle after) :
    Adds manager enabledStig (first ++ second) before after := by
  constructor
  · intro x
    rw [right.obtained, left.obtained, or_assoc, ← exists_or]
    simp only [mem_append, or_and_right]
  · intro item
    rw [right.items, left.items, or_assoc, ← exists_or]
    simp only [mem_append, or_and_right]

variable {assigned : List String} {compose : Composed}

theorem Adds.mem_roles (adds : Adds manager enabledStig assigned {} compose) {x : String} :
    x ∈ compose.roles ↔ ∃ name ∈ assigned, Obtains roles enabledStig name x := by
  rw [adds.obtained]
  exact or_iff_right (Finset.notMem_empty x)

theorem Adds.mem_allowlist
    (adds : Adds manager enabledStig assigned {} compose) {item : AllowListItem} :
    item ∈ compose.allowlist ↔ ∃ x ∈ compose.roles, manager.Registered item x := by
  rw [adds.items, or_iff_right not_mem_nil]
  simp only [adds.mem_roles]
  tauto

variable (enabled : enabledStig ≠ STIGType.none)
include enabled

theorem allowlistForRole_stig (name : String) :
    manager.allowlistForRole limit name enabledStig =
      (rolesForRole roles enabledStig limit name).map manager.entriesOf := by
  rw [RoleManager.allowlistForRole, if_pos enabled, ite_self]

theorem composeRole_adds {name : String}
    (run : composeRole manager limit enabledStig before name = .ok after) :
    Adds manager enabledStig [name] before after := by
  rw [composeRole, allowlistForRole_stig enabled] at run
  obtain ⟨found, reached, run⟩ := bind_eq_ok.mp run
  rw [reached] at run
  obtain rfl := Except.ok.inj run
  have mem := mem_rolesForRole reached
  constructor
  · intro x
    simp [mem, Obtains]
  · intro item
    simp [manager.mem_entriesOf, mem, Obtains, RoleManager.Registered]

theorem foldlM_composeRole_adds
    (run : assigned.foldlM (composeRole manager limit enabledStig) before = .ok after) :
    Adds manager enabledStig assigned before after := by
  have added := foldlM_flatMap run Adds.nil (fun _ _ _ _ _ => Adds.append)
    fun _ _ _ => composeRole_adds enabled
  rwa [flatMap_singleton'] at added

theorem composeOne_adds {privilege : Privilege}
    (run : composeOne manager limit enabledStig before privilege = .ok after) :
    Adds manager enabledStig privilege.roles before after := by
  rw [composeOne] at run
  obtain ⟨middle, first, run⟩ := bind_eq_ok.mp run
  obtain ⟨granted, -, run⟩ := bind_eq_ok.mp run
  obtain rfl := Except.ok.inj run
  obtain ⟨obtained, items⟩ := foldlM_composeRole_adds enabled first
  exact ⟨obtained, items⟩

omit enabled

theorem composePrivilege_adds {config : SecurityConfig} {privileges : List Privilege}
    (enabled : systemSecurityConfigToStigType config ≠ STIGType.none)
    (run : composePrivilege manager limit config privileges = .ok after) :
    Adds manager (systemSecurityConfigToStigType config)
      (privileges.flatMap Privilege.roles) {} after := by
  rw [composePrivilege] at run
  obtain ⟨middle, folded, run⟩ := bind_eq_ok.mp run
  rw [if_pos enabled] at run
  obtain rfl := Except.ok.inj run
  obtain ⟨obtained, items⟩ := foldlM_flatMap folded Adds.nil
    (fun _ _ _ _ _ => Adds.append) fun _ _ _ => composeOne_adds enabled
  exact ⟨obtained, items⟩

end Spec

section Containment

variable {roles : RoleTable} {enabledStig : STIGType}

variable (manager : RoleManager roles)

/-- The resource was registered, and with no role that passes the STIG check. -/
def RoleManager.Withheld (enabledStig : STIGType) (verb : HttpVerb) (resource : String) : Prop :=
  ∃ given, manager.given verb resource = some given ∧
    ∀ role ∈ given, ¬ Passes roles enabledStig role

def Contained (enabledStig : STIGType) (compose : Composed) : Prop :=
  (∀ role ∈ compose.roles, Passes roles enabledStig role) ∧
    ∀ verb resource, manager.Withheld enabledStig verb resource →
      (ofItems compose.allowlist).authorize verb resource = false

/-- A role of the table may be assigned if it passes the STIG check or is a full
admin, which is replaced by the roles that pass. -/
def Assignable (roles : RoleTable) (enabledStig : STIGType) (assigned : String) : Prop :=
  assigned ∈ roles.names → roles.fullAdmin assigned = true ∨ Passes roles enabledStig assigned

/-- No pattern registered with a role that the assigned role obtains covers a withheld
resource of the same kind. -/
def NoPatternLeak (enabledStig : STIGType) (assigned : String) : Prop :=
  ∀ x, Obtains roles enabledStig assigned x → ∀ item, manager.Registered item x →
    isPattern item.resource = true → ∀ resource, manager.Withheld enabledStig item.method resource →
        Fnmatch.fnmatch item.resource resource = false

variable {name x assigned role : String}

theorem passes_of_standsFor (full : roles.fullAdmin name = true)
    (mem : x ∈ roles.standsFor enabledStig name) : Passes roles enabledStig x := by
  rw [RoleTable.standsFor, if_pos full, mem_toFinset, mem_filter] at mem
  exact of_decide_eq_true mem.2

theorem passes_of_obtains (assignable : Assignable roles enabledStig assigned)
    (obtains : Obtains roles enabledStig assigned x) : Passes roles enabledStig x := by
  obtain ⟨c, path, mem⟩ := obtains
  cases full : roles.fullAdmin c with
  | true => exact passes_of_standsFor full mem
  | false =>
    obtain ⟨rfl, known⟩ := (RoleTable.mem_standsFor full).mp mem
    cases path with
    | refl =>
      rcases assignable known with admin | passes
      · rw [full] at admin
        cases admin
      · exact passes
    | tail _ edge => exact edge.2

theorem obtains_self (known : assigned ∈ roles.names)
    (plain : roles.fullAdmin assigned = false) : Obtains roles enabledStig assigned assigned :=
  ⟨assigned, .refl, (RoleTable.mem_standsFor plain).mpr ⟨rfl, known⟩⟩

section Composed

variable {manager : RoleManager roles} {assigned : List String} {compose : Composed}
  (adds : Adds manager enabledStig assigned {} compose)
include adds

theorem assignable_of_contained (contained : Contained manager enabledStig compose)
    (mem : name ∈ assigned) : Assignable roles enabledStig name := by
  intro known
  cases full : roles.fullAdmin name with
  | true => exact .inl rfl
  | false => exact .inr (contained.1 name (adds.mem_roles.mpr
      ⟨name, mem, obtains_self known full⟩))

theorem noPatternLeak_of_contained (contained : Contained manager enabledStig compose)
    (mem : name ∈ assigned) : NoPatternLeak manager enabledStig name := by
  intro x obtains item registered pattern resource hidden
  have listed : item ∈ compose.allowlist :=
    adds.mem_allowlist.mpr ⟨x, adds.mem_roles.mpr ⟨name, mem, obtains⟩, registered⟩
  by_contra leak
  have authorized : (ofItems compose.allowlist).authorize item.method resource = true := by
    refine (authorize_ofItems _ _ _).mpr ⟨item, listed, .inr rfl, ?_⟩
    simpa [AllowListItem.covers, pattern] using leak
  rw [contained.2 item.method resource hidden] at authorized
  cases authorized

omit adds in
theorem RoleManager.Registered.method_eq {item : AllowListItem} {verb : HttpVerb}
    (registered : manager.Registered item x) (verbs : item.method = .any ∨ item.method = verb) :
    item.method = verb := by
  rcases verbs with any | eq
  · obtain ⟨given, found, -⟩ := registered
    rw [any] at found
    cases found
  · exact eq

theorem contained_of_assignable (condition : ∀ name ∈ assigned,
      Assignable roles enabledStig name ∧ NoPatternLeak manager enabledStig name) :
    Contained manager enabledStig compose := by
  have passing : ∀ role ∈ compose.roles, Passes roles enabledStig role := by
    intro role inside
    obtain ⟨name, mem, obtains⟩ := adds.mem_roles.mp inside
    exact passes_of_obtains (condition name mem).1 obtains
  refine ⟨passing, fun verb resource hidden => ?_⟩
  by_contra authorized
  rw [Bool.not_eq_false, authorize_ofItems] at authorized
  obtain ⟨item, listed, verbs, covers⟩ := authorized
  obtain ⟨x, found, registered⟩ := adds.mem_allowlist.mp listed
  obtain rfl := registered.method_eq verbs
  cases pattern : isPattern item.resource with
  | true =>
    obtain ⟨name, mem, obtains⟩ := adds.mem_roles.mp found
    have none := (condition name mem).2 x obtains item registered pattern resource hidden
    simp [AllowListItem.covers, pattern, none] at covers
  | false =>
    have named : item.resource = resource := by
      simpa [AllowListItem.covers, pattern] using covers
    obtain ⟨given, registered, mem⟩ := registered
    obtain ⟨other, hidden, failing⟩ := hidden
    rw [named, hidden] at registered
    cases registered
    exact failing x mem (passing x found)

end Composed

/-- The STIG holds for a composed privilege exactly when every assigned role may be
assigned under it and no registered pattern reaches a withheld resource. -/
theorem stig_containment (manager : RoleManager roles) (limit : Nat) (config : SecurityConfig)
    (enabled : systemSecurityConfigToStigType config ≠ STIGType.none)
    (privileges : List Privilege) (compose : Composed)
    (run : composePrivilege manager limit config privileges = .ok compose) :
    Contained manager (systemSecurityConfigToStigType config) compose ↔
      ∀ privilege ∈ privileges, ∀ assigned ∈ privilege.roles,
        Assignable roles (systemSecurityConfigToStigType config) assigned ∧
          NoPatternLeak manager (systemSecurityConfigToStigType config) assigned := by
  have adds := composePrivilege_adds enabled run
  constructor
  · intro contained privilege inside assigned member
    have given := mem_flatMap.mpr ⟨privilege, inside, member⟩
    exact ⟨assignable_of_contained adds contained given,
      noPatternLeak_of_contained adds contained given⟩
  · intro condition
    refine contained_of_assignable adds fun assigned given => ?_
    obtain ⟨privilege, inside, member⟩ := mem_flatMap.mp given
    exact condition privilege inside assigned member

def vmManager : RoleManager ROLES :=
  ((RoleManager.new ROLES).registerMethod "vm.create" ["VM_WRITE"]).1

theorem registered_vmManager {item : AllowListItem}
    (registered : vmManager.Registered item role) : item.resource = "vm.create" := by
  have resources : vmManager.methods.resources = fun other =>
      if other = "vm.create" then some ["VM_WRITE"]
      else if other = "vm.create" then some [] else none := rfl
  obtain ⟨given, found, -⟩ := registered
  by_contra different
  cases verb : item.method with rw [verb] at found
  | call =>
    rw [RoleManager.given, resources] at found
    simp [different] at found
  | _ => cases found

theorem stig_containment_vmRead :
    ∃ compose, composePrivilege vmManager 2 ⟨true⟩ [{ roles := ["VM_READ"] }] = .ok compose ∧
      Contained vmManager STIGType.gpos compose := by
  have returns : (composePrivilege vmManager 2 ⟨true⟩ [{ roles := ["VM_READ"] }]).isOk = true := by
    decide +kernel
  cases run : composePrivilege vmManager 2 ⟨true⟩ [{ roles := ["VM_READ"] }] with
  | error e =>
    rw [run] at returns
    cases returns
  | ok compose =>
    refine ⟨compose, rfl, ?_⟩
    refine (stig_containment vmManager 2 ⟨true⟩ (by decide) _ compose run).mpr ?_
    intro privilege inside assigned member
    obtain rfl := mem_singleton.mp inside
    obtain rfl := mem_singleton.mp member
    refine ⟨fun _ => .inr (by decide +kernel), fun x _ item registered pattern => ?_⟩
    rw [registered_vmManager registered] at pattern
    cases pattern

theorem stig_not_contained :
    ∃ compose, composePrivilege vmManager 2 ⟨true⟩ [{ roles := ["VM_WRITE"] }] = .ok compose ∧
      ("VM_WRITE" ∈ compose.roles ∧ ¬ Passes ROLES STIGType.gpos "VM_WRITE") ∧
      vmManager.Withheld STIGType.gpos .call "vm.create" ∧
      (ofItems compose.allowlist).authorize .call "vm.create" = true := by
  have fails : ¬ Passes ROLES STIGType.gpos "VM_WRITE" := by decide +kernel
  have evaluated : (composePrivilege vmManager 2 ⟨true⟩ [{ roles := ["VM_WRITE"] }]).toOption.any
      (fun compose => "VM_WRITE" ∈ compose.roles ∧
        (ofItems compose.allowlist).authorize .call "vm.create" = true) = true := by
    decide +kernel
  cases run : composePrivilege vmManager 2 ⟨true⟩ [{ roles := ["VM_WRITE"] }] with
    rw [run] at evaluated
  | error e => cases evaluated
  | ok compose =>
    obtain ⟨member, authorized⟩ := of_decide_eq_true evaluated
    refine ⟨compose, rfl, ⟨member, fails⟩, ⟨["VM_WRITE"], rfl, fun role inside => ?_⟩, authorized⟩
    rw [mem_singleton.mp inside]
    exact fails

end Containment

end TruenasMiddleware.Roles
