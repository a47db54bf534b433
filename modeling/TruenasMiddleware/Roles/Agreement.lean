import TruenasMiddleware.Roles.Reach

/-! The two ways of answering which role may call a method: `roles_for_method` goes
from the method up to the roles, `allowlist_for_role` from a role down to the methods. -/

namespace TruenasMiddleware.Roles

open Relation List Closure Allowlist

section Upward

variable {roles : RoleTable}

theorem foldl_addParent_inserted (name : String) (children : List String)
    (found : Finset String) :
    children.foldl (addParent name) (insert name found, true) = (insert name found, true) := by
  induction children with
  | nil => rfl
  | cons child rest ih =>
    have unchanged : addParent name (insert name found, true) child =
        (insert name found, true) := by
      simp [addParent]
    rw [foldl_cons, unchanged, ih]

theorem foldl_addParent (name : String) (children : List String) (state : Finset String × Bool) :
    children.foldl (addParent name) state =
      if ∃ child ∈ children, child ∈ state.1 then (insert name state.1, true) else state := by
  induction children with
  | nil => simp
  | cons child rest ih =>
    rw [foldl_cons]
    by_cases mem : child ∈ state.1
    · rw [addParent, if_pos mem, foldl_addParent_inserted]
      simp [mem]
    · rw [addParent, if_neg mem, ih]
      simp [mem]

theorem foldl_addIncluding {entries : List (String × Role)}
    (part : ∀ entry ∈ entries, entry ∈ roles.entries) (state : Finset String × Bool) :
    entries.foldl addIncluding state =
      (entries.map Prod.fst).foldl (sweepNode roles.includes) state := by
  induction entries generalizing state with
  | nil => rfl
  | cons entry rest ih =>
    have included : roles.includes entry.1 = entry.2.includes := by
      have found : roles.get? entry.1 = some entry.2 :=
        RoleTable.get?_eq_some.mpr (part entry mem_cons_self)
      simp [RoleTable.includes, found]
    have step : addIncluding state entry = sweepNode roles.includes state entry.1 := by
      rw [addIncluding, sweepNode, foldl_addParent, included, ite_and]
    rw [foldl_cons, map_cons, foldl_cons, step]
    exact ih (fun other mem => part other (mem_cons_of_mem entry mem)) _

theorem whileChanged_eq_saturate (fuel : Nat) (found : Finset String) :
    whileChanged roles fuel found = saturate roles.includes roles.names fuel found := by
  induction fuel generalizing found with
  | zero => rfl
  | succ fuel ih =>
    rw [whileChanged, saturate, foldl_addIncluding fun _ => id, ← RoleTable.names]
    generalize roles.names.foldl (sweepNode roles.includes) (found, false) = state
    obtain ⟨next, changed⟩ := state
    cases changed with
    | true => exact ih next
    | false => rfl

def RoleTable.Includes (roles : RoleTable) (name child : String) : Prop :=
  child ∈ roles.includes name

theorem leads_eq_includes : Closure.Leads roles.includes roles.names = roles.Includes := by
  funext name child
  exact propext ⟨And.right, fun edge => ⟨RoleTable.mem_names_of_includes edge, edge⟩⟩

theorem rolesForResource_spec {verb : HttpVerb} (manager : ResourceManager roles verb)
    (resource : String) :
    ∃ listed, manager.rolesForResource resource = some listed ∧
      ∀ name, name ∈ listed ↔ ∃ given, manager.resources resource = some given ∧
        ∃ c ∈ given, ReflTransGen roles.Includes name c := by
  have enough : (roles.names.toFinset \ manager.atomicRolesForResource resource).card <
      roles.entries.length + 1 := by
    calc (roles.names.toFinset \ manager.atomicRolesForResource resource).card
        ≤ roles.names.toFinset.card := Finset.card_le_card Finset.sdiff_subset
      _ ≤ roles.names.length := roles.names.toFinset_card_le
      _ = roles.entries.length := length_map _
      _ < roles.entries.length + 1 := Nat.lt_succ_self _
  obtain ⟨found, run⟩ : ∃ found, saturate roles.includes roles.names
      (roles.entries.length + 1) (manager.atomicRolesForResource resource) = some found :=
    saturate_returns enough
  refine ⟨found.sort (· ≤ ·), ?_, fun name => ?_⟩
  · rw [ResourceManager.rolesForResource, whileChanged_eq_saturate, run]
    rfl
  · rw [Finset.mem_sort, mem_saturate run, leads_eq_includes]
    cases registered : manager.resources resource with
    | none | some => simp [ResourceManager.atomicRolesForResource, registered]

end Upward

section Downward

variable {roles : RoleTable}

namespace RoleManager

/-- The roles that a resource was registered with, for the verb of its kind. -/
def given (manager : RoleManager roles) : HttpVerb → String → Option (List String)
  | .call => manager.methods.resources
  | .subscribe => manager.events.resources
  | _ => fun _ => none

variable (manager : RoleManager roles)

theorem grantError_of_given {verb : HttpVerb} {resource role : String} {given : List String}
    (registered : manager.given verb resource = some given) (mem : role ∈ given) :
    grantError roles resource role = none := by
  cases verb with
  | call => exact manager.methods.granted resource given registered role mem
  | subscribe => exact manager.events.granted resource given registered role mem
  | _ => cases registered

theorem mem_entriesOf (found : Finset String) (item : AllowListItem) :
    item ∈ manager.entriesOf found ↔ ∃ role ∈ found,
      ∃ given, manager.given item.method item.resource = some given ∧ role ∈ given := by
  simp only [entriesOf, mem_flatMap, mem_filter, mem_append,
    manager.methods.listed, manager.events.listed, decide_eq_true_eq]
  constructor
  · rintro ⟨role, ⟨-, inside⟩, ⟨verb, granted⟩ | ⟨verb, granted⟩⟩
    all_goals exact ⟨role, inside, by simpa only [verb, given] using granted⟩
  · rintro ⟨role, inside, roleList, registered, mem⟩
    have known := mem_names_of_grantError (manager.grantError_of_given registered mem)
    cases verb : item.method with rw [verb] at registered
    | call => exact ⟨role, ⟨known, inside⟩, .inl ⟨rfl, roleList, registered, mem⟩⟩
    | subscribe => exact ⟨role, ⟨known, inside⟩, .inr ⟨rfl, roleList, registered, mem⟩⟩
    | _ => cases registered

end RoleManager

variable (noAdmin : ∀ name child, roles.Includes name child → roles.fullAdmin child = false)
  {name c x : String} (plain : roles.fullAdmin name = false)
include noAdmin plain

theorem fullAdmin_of_path (path : ReflTransGen roles.Includes name c) :
    roles.fullAdmin c = false := by
  cases path with
  | refl => exact plain
  | tail _ edge => exact noAdmin _ c edge

theorem reach_grants_iff :
    ReflTransGen (roles.Grants STIGType.none) name c ↔ ReflTransGen roles.Includes name c := by
  constructor
  · exact ReflTransGen.mono (fun _ _ step => RoleTable.expands_subset step.1) name c
  · intro path
    induction path with
    | refl => exact .refl
    | tail path edge ih =>
      refine ih.tail ⟨?_, passes_none roles _⟩
      rw [RoleTable.expands, fullAdmin_of_path noAdmin plain path]
      exact edge

theorem mem_rolesForRole_iff {limit : Nat} {found : Finset String}
    (run : rolesForRole roles STIGType.none limit name = .ok found) :
    x ∈ found ↔ x ∈ roles.names ∧ ReflTransGen roles.Includes name x := by
  rw [mem_rolesForRole run]
  constructor
  · rintro ⟨c, path, mem⟩
    have path := (reach_grants_iff noAdmin plain).mp path
    have plainHere := fullAdmin_of_path noAdmin plain path
    obtain ⟨rfl, known⟩ := (RoleTable.mem_standsFor plainHere).mp mem
    exact ⟨known, path⟩
  · rintro ⟨known, path⟩
    refine ⟨x, (reach_grants_iff noAdmin plain).mpr path, ?_⟩
    exact (RoleTable.mem_standsFor (fullAdmin_of_path noAdmin plain path)).mpr ⟨rfl, known⟩

end Downward

section Agreement

variable {roles : RoleTable}

theorem finitary_of_acyclic (acyclic : ∀ name, ¬ TransGen roles.Includes name name)
    (name : String) : Finitary roles STIGType.none name := by
  refine ⟨Grants.acc fun c _ cycle => acyclic c ?_, fun enabled => absurd rfl enabled⟩
  exact TransGen.mono (fun _ _ step => RoleTable.expands_subset step.1) c c cycle

theorem authorize_call_iff (manager : RoleManager roles) (found : Finset String)
    (noPatterns : ∀ other given, manager.methods.resources other = some given →
      isPattern other = false) (method : String) :
    (ofItems (manager.entriesOf found)).authorize .call method = true ↔
      ⟨.call, method⟩ ∈ manager.entriesOf found := by
  rw [authorize_ofItems]
  constructor
  · rintro ⟨item, mem, verb, covers⟩
    obtain ⟨role, -, given, registered, -⟩ := (manager.mem_entriesOf found item).mp mem
    have call : item.method = .call := by
      rcases verb with verb | verb
      · rw [verb] at registered
        cases registered
      · exact verb
    rw [call] at registered
    rw [AllowListItem.covers, noPatterns _ _ registered] at covers
    have eq : item = ⟨.call, method⟩ := by
      cases item
      simp_all
    exact eq ▸ mem
  · intro mem
    obtain ⟨role, -, given, registered, -⟩ := (manager.mem_entriesOf found _).mp mem
    refine ⟨_, mem, .inr rfl, ?_⟩
    rw [AllowListItem.covers, noPatterns _ _ registered]
    simp

/-- The upward and the downward computation agree on the roles that are no full
admins; a full admin has the wildcard instead. The compiled allowlist decides as the
list does unless a method was registered under a pattern. -/
theorem role_computations_agree (manager : RoleManager roles)
    (acyclic : ∀ name, ¬ TransGen roles.Includes name name)
    (noAdmin : ∀ name child, roles.Includes name child → roles.fullAdmin child = false)
    (name method : String) :
    ∃ listed, manager.rolesForMethod method = some listed ∧ ∃ limit, ∀ n, limit ≤ n → ∃ items,
        manager.allowlistForRole n name STIGType.none = .ok items ∧
        (roles.fullAdmin name = false → (name ∈ listed ↔
          ⟨.call, method⟩ ∈ items ∨ items = [ALLOW_LIST_FULL_ADMIN])) ∧
        (roles.fullAdmin name = true → items = [ALLOW_LIST_FULL_ADMIN]) ∧
        ((∀ other given, manager.methods.resources other = some given → isPattern other = false) →
          ((⟨.call, method⟩ ∈ items ∨ items = [ALLOW_LIST_FULL_ADMIN]) ↔
            (Allowlist.ofItems items).authorize .call method = true)) := by
  obtain ⟨listed, run, member⟩ := rolesForResource_spec manager.methods method
  obtain ⟨limit, returns⟩ := rolesForRole_returns (finitary_of_acyclic acyclic name)
  refine ⟨listed, run, limit, fun n above => ?_⟩
  cases full : roles.fullAdmin name with
  | true =>
    refine ⟨[ALLOW_LIST_FULL_ADMIN], by simp [RoleManager.allowlistForRole, full],
      fun plain => (by cases plain), fun _ => rfl, fun _ => ?_⟩
    have wild : (ofItems [ALLOW_LIST_FULL_ADMIN]).authorize .call method = true :=
      (authorize_ofItems _ _ _).mpr ⟨_, mem_singleton_self _, .inl rfl, Fnmatch.fnmatch_star method⟩
    simp [wild]
  | false =>
    obtain ⟨found, reached⟩ := returns n above
    have notWild : manager.entriesOf found ≠ [ALLOW_LIST_FULL_ADMIN] := by
      intro wild
      have inside : ALLOW_LIST_FULL_ADMIN ∈ manager.entriesOf found := by simp [wild]
      obtain ⟨-, -, given, registered, -⟩ := (manager.mem_entriesOf found _).mp inside
      cases registered
    refine ⟨manager.entriesOf found, ?_, fun _ => ?_, fun admin => (by cases admin),
      fun noPatterns => ?_⟩
    · rw [RoleManager.allowlistForRole, full, reached]
      rfl
    · rw [or_iff_left notWild, member, manager.mem_entriesOf]
      constructor
      · rintro ⟨given, registered, c, inside, path⟩
        have known := mem_names_of_grantError (manager.methods.granted _ _ registered c inside)
        exact ⟨c, (mem_rolesForRole_iff noAdmin full reached).mpr ⟨known, path⟩, given,
          registered, inside⟩
      · rintro ⟨c, found, given, registered, inside⟩
        have path := ((mem_rolesForRole_iff noAdmin full reached).mp found).2
        exact ⟨given, registered, c, inside, path⟩
    · rw [or_iff_left notWild, authorize_call_iff manager found noPatterns]

def poolRoles : RoleTable where
  entries := [("POOL_READ", {}), ("POOL_WRITE", { includes := ["POOL_READ"] }),
    ("FULL_ADMIN", { fullAdmin := true, builtin := false })]
  nodup := by decide

def poolManager : RoleManager poolRoles :=
  ((RoleManager.new poolRoles).registerMethod "pool.query" ["POOL_READ"]).1

def patternManager : RoleManager poolRoles :=
  ((RoleManager.new poolRoles).registerMethod "pool.*" ["POOL_READ"]).1

theorem includes_poolRoles {name child : String} (edge : poolRoles.Includes name child) :
    name = "POOL_WRITE" ∧ child = "POOL_READ" := by
  obtain ⟨role, found⟩ := RoleTable.mem_names.mp (RoleTable.mem_names_of_includes edge)
  simp only [RoleTable.Includes, RoleTable.includes, found] at edge
  have mem := RoleTable.get?_eq_some.mp found
  simp only [poolRoles, mem_cons, not_mem_nil, or_false, Prod.mk.injEq] at mem
  rcases mem with ⟨rfl, rfl⟩ | ⟨rfl, rfl⟩ | ⟨rfl, rfl⟩ <;> simp_all

theorem acyclic_poolRoles (name : String) : ¬ TransGen poolRoles.Includes name name := by
  intro cycle
  obtain ⟨_, first, -⟩ := TransGen.head'_iff.mp cycle
  obtain ⟨_, -, last⟩ := TransGen.tail'_iff.mp cycle
  have write := (includes_poolRoles first).1
  have read := (includes_poolRoles last).2
  rw [write] at read
  revert read
  decide

theorem noAdmin_poolRoles (name child : String) (edge : poolRoles.Includes name child) :
    poolRoles.fullAdmin child = false := by
  rw [(includes_poolRoles edge).2]
  decide

theorem role_computations_agree_poolWrite :
    ∃ listed, poolManager.rolesForMethod "pool.query" = some listed ∧ "POOL_WRITE" ∈ listed ∧
      ∃ n items, poolManager.allowlistForRole n "POOL_WRITE" STIGType.none = .ok items ∧
        (Allowlist.ofItems items).authorize .call "pool.query" = true := by
  obtain ⟨listed, run, limit, agree⟩ := role_computations_agree poolManager acyclic_poolRoles
    noAdmin_poolRoles "POOL_WRITE" "pool.query"
  obtain ⟨items, computed, upward, -, compiled⟩ := agree (limit + 2) (Nat.le_add_right _ _)
  have here : (⟨.call, "pool.query"⟩ : AllowListItem) ∈ items := by
    have all : poolManager.allowlistForRole (limit + 2) "POOL_WRITE" STIGType.none =
        .ok [⟨.call, "pool.query"⟩] := rfl
    cases all.symm.trans computed
    exact mem_singleton_self _
  have noPatterns : ∀ other given, poolManager.methods.resources other = some given →
      isPattern other = false := by
    intro other given registered
    have only : other = "pool.query" := by
      by_contra different
      have missing : poolManager.methods.resources other = none := by
        change (if other = "pool.query" then _ else if other = "pool.query" then _ else none) = none
        rw [if_neg different, if_neg different]
      rw [missing] at registered
      cases registered
    rw [only]
    decide
  exact ⟨listed, run, (upward (by decide)).mpr (.inl here), limit + 2, items, computed,
    (compiled noPatterns).mp (.inl here)⟩

/-- A full admin is not listed for the method that the wildcard lets it call, and a
method registered under a pattern authorizes methods that are not listed. -/
theorem role_computations_differ : (∀ name, ¬ TransGen poolRoles.Includes name name) ∧
    (∀ name child, poolRoles.Includes name child → poolRoles.fullAdmin child = false) ∧
    (∃ listed, poolManager.rolesForMethod "pool.query" = some listed ∧ "FULL_ADMIN" ∉ listed ∧
      poolManager.allowlistForRole 1 "FULL_ADMIN" STIGType.none = .ok [ALLOW_LIST_FULL_ADMIN]) ∧
    ∃ listed, patternManager.rolesForMethod "pool.query" = some listed ∧
      "POOL_READ" ∉ listed ∧ ∃ items,
        patternManager.allowlistForRole 1 "POOL_READ" STIGType.none = .ok items ∧
        ⟨.call, "pool.query"⟩ ∉ items ∧
        (Allowlist.ofItems items).authorize .call "pool.query" = true := by
  refine ⟨acyclic_poolRoles, noAdmin_poolRoles, ?_, ?_⟩
  · obtain ⟨listed, run, member⟩ := rolesForResource_spec poolManager.methods "pool.query"
    refine ⟨listed, run, fun inside => ?_, by decide⟩
    obtain ⟨given, registered, c, granted, path⟩ := (member _).mp inside
    have given_eq : poolManager.methods.resources "pool.query" = some ["POOL_READ"] := by decide
    rw [given_eq] at registered
    cases registered
    obtain rfl := mem_singleton.mp granted
    rcases path.cases_head with same | ⟨_, edge, -⟩
    · revert same
      decide
    · have write := (includes_poolRoles edge).1
      revert write
      decide
  · obtain ⟨listed, run, member⟩ := rolesForResource_spec patternManager.methods "pool.query"
    refine ⟨listed, run, fun inside => ?_, [⟨.call, "pool.*"⟩], by decide, by decide, by decide⟩
    obtain ⟨given, registered, -⟩ := (member _).mp inside
    have missing : patternManager.methods.resources "pool.query" = none := by decide
    rw [missing] at registered
    cases registered

end Agreement

end TruenasMiddleware.Roles
