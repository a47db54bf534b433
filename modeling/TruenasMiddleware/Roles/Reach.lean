import TruenasMiddleware.Roles.Manager

/-! What the two loops over the role table compute. `roles_for_role` follows the
includes downwards, `roles_for_resource` upwards; both are closures under one relation. -/

namespace TruenasMiddleware.Roles

open Relation List Closure

variable (roles : RoleTable)

def Passes (enabledStig : STIGType) (name : String) : Prop :=
  roleStigCheck roles name enabledStig = .ok true

instance (enabledStig : STIGType) (name : String) : Decidable (Passes roles enabledStig name) :=
  inferInstanceAs (Decidable (roleStigCheck roles name enabledStig = .ok true))

theorem passes_none (name : String) : Passes roles STIGType.none name :=
  if_pos rfl

namespace RoleTable

def expands (name : String) : List String :=
  if roles.fullAdmin name then [] else roles.includes name

/-- What a role stands for by itself: a full admin for every role that passes. -/
def standsFor (enabledStig : STIGType) (name : String) : Finset String :=
  if roles.fullAdmin name then (roles.names.filter (Passes roles enabledStig ·)).toFinset
  else if name ∈ roles.names then {name} else ∅

/-- A role grants those of the included roles that pass the STIG check. -/
def Grants (enabledStig : STIGType) (name child : String) : Prop :=
  child ∈ roles.expands name ∧ Passes roles enabledStig child

theorem mem_standsFor {roles : RoleTable} {enabledStig : STIGType} {name found : String}
    (plain : roles.fullAdmin name = false) :
    found ∈ roles.standsFor enabledStig name ↔ found = name ∧ name ∈ roles.names := by
  rw [standsFor, plain]
  by_cases known : name ∈ roles.names <;> simp [known]

end RoleTable

section Downward

variable {roles : RoleTable} {enabledStig : STIGType} {name child : String}

theorem foldlM_allow {names : List String} (known : ∀ name ∈ names, name ∈ roles.names)
    (start : Finset String) :
    names.foldlM (allow roles enabledStig) start =
      .ok (start ∪ (names.filter (Passes roles enabledStig ·)).toFinset) := by
  induction names generalizing start with
  | nil => simp [pure, Except.pure]
  | cons name rest ih =>
    have later := ih fun other mem => known other (mem_cons_of_mem name mem)
    obtain ⟨passes, answer⟩ := roleStigCheck_ok (known name mem_cons_self) enabledStig
    rw [foldlM_cons, allow, answer]
    cases passes with
    | true =>
      have here : Passes roles enabledStig name := answer
      rw [Except.map, filter_cons_of_pos (by simpa using here), toFinset_cons,
        Finset.union_insert, ← Finset.insert_union]
      exact later _
    | false =>
      have fails : ¬ Passes roles enabledStig name := by
        simp [Passes, answer]
      rw [Except.map, filter_cons_of_neg (by simpa using fails)]
      exact later _

theorem rolesForRole_eq_collect (limit : Nat) : rolesForRole roles enabledStig limit name =
      collect (roles.standsFor enabledStig) roles.expands (roleStigCheck roles · enabledStig)
        .recursionError limit name := by
  induction limit generalizing name with
  | zero => rfl
  | succ limit ih =>
    have recursion : rolesForRole roles enabledStig limit = collect
        (roles.standsFor enabledStig) roles.expands (roleStigCheck roles · enabledStig)
        .recursionError limit := funext fun _ => ih
    rw [rolesForRole, collect]
    cases found : roles.get? name with
    | none =>
      have missing : name ∉ roles.names := RoleTable.get?_eq_none.mp found
      have admin : roles.fullAdmin name = false := by simp [RoleTable.fullAdmin, found]
      have alone : roles.includes name = [] := by simp [RoleTable.includes, found]
      simp only [RoleTable.standsFor, RoleTable.expands, admin, missing, alone]
      rfl
    | some role =>
      have admin : roles.fullAdmin name = role.fullAdmin := by simp [RoleTable.fullAdmin, found]
      have included : roles.includes name = role.includes := by simp [RoleTable.includes, found]
      have known : name ∈ roles.names := RoleTable.mem_names.mpr ⟨role, found⟩
      cases full : role.fullAdmin with
      | true =>
        have allowed : roles.names.foldlM (allow roles enabledStig) ∅ = _ :=
          foldlM_allow (fun _ => id) ∅
        simp only [RoleTable.standsFor, RoleTable.expands, admin, full, if_true, allowed,
          Finset.empty_union]
        rfl
      | false =>
        simp only [RoleTable.standsFor, RoleTable.expands, admin, full, known, included, if_true,
          recursion]
        rfl

theorem mem_rolesForRole {limit : Nat} {found : Finset String}
    (run : rolesForRole roles enabledStig limit name = .ok found) (x : String) :
    x ∈ found ↔ ∃ c, ReflTransGen (roles.Grants enabledStig) name c ∧
      x ∈ roles.standsFor enabledStig c := by
  rw [rolesForRole_eq_collect] at run
  exact mem_collect run x

/-- No chain of grants from the role is infinite, and under a STIG none meets a role
that the table does not have. -/
structure Finitary (roles : RoleTable) (enabledStig : STIGType) (name : String) : Prop where
  ends : Acc (fun child name => roles.Grants enabledStig name child) name
  known : enabledStig ≠ STIGType.none → ∀ c, ReflTransGen (roles.Grants enabledStig) name c →
    ∀ child ∈ roles.expands c, child ∈ roles.names

theorem rolesForRole_returns (finitary : Finitary roles enabledStig name) :
    ∃ limit, ∀ n, limit ≤ n → ∃ found, rolesForRole roles enabledStig n name = .ok found := by
  simp only [rolesForRole_eq_collect]
  apply collect_returns finitary.ends
  intro c path child mem
  by_cases off : enabledStig = STIGType.none
  · exact ⟨true, if_pos off⟩
  · exact roleStigCheck_ok (finitary.known off c path child mem) enabledStig

theorem RoleTable.expands_subset (mem : child ∈ roles.expands name) :
    child ∈ roles.includes name := by
  unfold RoleTable.expands at mem
  by_cases full : roles.fullAdmin name = true
  · simp [full] at mem
  · rwa [if_neg full] at mem

theorem Grants.acc (acyclic : ∀ c, ReflTransGen (roles.Grants enabledStig) name c →
      ¬ TransGen (roles.Grants enabledStig) c c) :
    Acc (fun child name => roles.Grants enabledStig name child) name := by
  let reached : String → String → Prop := fun c child =>
    ReflTransGen (roles.Grants enabledStig) name c ∧ roles.Grants enabledStig c child
  have source : ∀ c child, reached c child → c ∈ roles.names.toFinset := by
    rintro c child ⟨-, edge, -⟩
    rw [mem_toFinset]
    exact RoleTable.mem_names_of_includes (RoleTable.expands_subset edge)
  have noCycle : ∀ c, ¬ TransGen reached c c := by
    intro c cycle
    obtain ⟨d, first, -⟩ := TransGen.head'_iff.mp cycle
    exact acyclic c first.1 (TransGen.mono (fun _ _ step => step.2) c c cycle)
  have finite : ∀ c, ReflTransGen (roles.Grants enabledStig) name c →
      Acc (fun child name => roles.Grants enabledStig name child) c := by
    intro c
    induction acc_of_acyclic source noCycle c with
    | intro c _ ih => exact fun path => .intro c fun d edge => ih d ⟨path, edge⟩ (path.tail edge)
  exact finite name .refl

theorem Finitary.of_includes {role : Role} (found : roles.get? name = some role)
    (children : ∀ child ∈ role.includes, child ∈ roles.names ∧ Finitary roles enabledStig child) :
    Finitary roles enabledStig name := by
  have included : ∀ child ∈ roles.expands name, child ∈ role.includes := by
    intro child mem
    simpa [RoleTable.includes, found] using RoleTable.expands_subset mem
  refine ⟨.intro name fun child edge => (children child (included child edge.1)).2.ends, ?_⟩
  intro enabled c path child mem
  rcases path.cases_head with rfl | ⟨next, edge, path⟩
  · exact (children child (included child mem)).1
  · exact (children next (included next edge.1)).2.known enabled c path child mem

end Downward

section Shipped

def sorted : List (String × Role) → Bool
  | [] => true
  | entry :: earlier =>
    entry.2.includes.all (fun child => earlier.any (·.1 == child)) && sorted earlier

theorem forall_of_sorted {roles : RoleTable} {P : String → Prop}
    (inherits : ∀ name role, roles.get? name = some role → (∀ child ∈ role.includes, P child) →
      P name)
    {entries : List (String × Role)} (part : ∀ entry ∈ entries, entry ∈ roles.entries)
    (order : sorted entries = true) : ∀ entry ∈ entries, P entry.1 := by
  induction entries with
  | nil => exact fun _ mem => by cases mem
  | cons first earlier ih =>
    rw [sorted, Bool.and_eq_true, all_eq_true] at order
    have before := ih (fun entry mem => part entry (mem_cons_of_mem first mem)) order.2
    intro entry mem
    rcases mem_cons.mp mem with rfl | mem
    · apply inherits entry.1 entry.2 (RoleTable.get?_eq_some.mpr (part entry mem_cons_self))
      intro child included
      obtain ⟨other, earlier, eq⟩ := any_eq_true.mp (order.1 child included)
      exact (beq_iff_eq.mp eq) ▸ before other earlier
    · exact before entry mem

/-- The shipped roles that are listed behind all roles that they include, the last
one first. The other ones are `SHARING_ADMIN`, two that include themselves, and
`READONLY_ADMIN`, which is entered behind the table. -/
def sortedRoles : List (String × Role) :=
  (shippedEntries.filter fun entry =>
    entry.1 ∉ ["SHARING_ADMIN", "PRIVILEGE_WRITE", "SYSTEM_PRODUCT_WRITE"]).reverse

theorem sorted_sortedRoles : sorted sortedRoles = true := by decide +kernel

variable {entry : String × Role}

theorem mem_sortedRoles : entry ∈ sortedRoles ↔ entry ∈ shippedEntries ∧
    entry.1 ∉ ["SHARING_ADMIN", "PRIVILEGE_WRITE", "SYSTEM_PRODUCT_WRITE"] := by
  simp [sortedRoles]

theorem mem_ROLES (mem : entry ∈ shippedEntries) :
    entry ∈ ROLES.entries := mem_append_left _ mem

theorem get?_readonlyAdmin : ROLES.get? "READONLY_ADMIN" = some {
    includes := (shippedEntries.map Prod.fst).filter fun role => endsWith role "_READ"
    builtin := false } :=
  RoleTable.get?_eq_some.mpr (mem_append_right _ List.mem_cons_self)

theorem finitary_shipped (enabledStig : STIGType) {name : String} (known : name ∈ ROLES.names)
    (notPrivilege : name ≠ "PRIVILEGE_WRITE") (notProduct : name ≠ "SYSTEM_PRODUCT_WRITE") :
    Finitary ROLES enabledStig name := by
  let P : String → Prop := fun name => name ∈ ROLES.names ∧ Finitary ROLES enabledStig name
  have inherits : ∀ name role, ROLES.get? name = some role → (∀ child ∈ role.includes, P child) →
      P name := fun name role found children =>
    ⟨RoleTable.mem_names.mpr ⟨role, found⟩, .of_includes found children⟩
  have ordered := forall_of_sorted inherits
    (fun entry mem => mem_ROLES (mem_sortedRoles.mp mem).1) sorted_sortedRoles
  have readonly : P "READONLY_ADMIN" := by
    apply inherits _ _ get?_readonlyAdmin
    intro child mem
    obtain ⟨entered, read⟩ := mem_filter.mp mem
    obtain ⟨entry, shipped, rfl⟩ := mem_map.mp entered
    refine ordered entry (mem_sortedRoles.mpr ⟨shipped, fun excluded => ?_⟩)
    simp only [mem_cons, not_mem_nil, or_false] at excluded
    rcases excluded with eq | eq | eq <;> (rw [eq] at read; revert read; decide)
  have sharing : P "SHARING_ADMIN" := by
    have found : ROLES.get? "SHARING_ADMIN" = some {
        includes := ["READONLY_ADMIN", "DATASET_WRITE", "SHARING_WRITE", "ZFS_RESOURCE_WRITE",
          "FILESYSTEM_ATTRS_WRITE", "SERVICE_READ"], builtin := false } := by decide +kernel
    have others : ∀ child ∈ ["DATASET_WRITE", "SHARING_WRITE", "ZFS_RESOURCE_WRITE",
        "FILESYSTEM_ATTRS_WRITE", "SERVICE_READ"], ∃ entry ∈ sortedRoles, entry.1 = child := by
      decide +kernel
    apply inherits _ _ found
    intro child mem
    rcases mem_cons.mp mem with rfl | mem
    · exact readonly
    · obtain ⟨entry, sorted, rfl⟩ := others child mem
      exact ordered entry sorted
  obtain ⟨role, found⟩ := RoleTable.mem_names.mp known
  rcases mem_append.mp (RoleTable.get?_eq_some.mp found) with mem | last
  · by_cases isSharing : name = "SHARING_ADMIN"
    · exact isSharing ▸ sharing.2
    · have sorted : (name, role) ∈ sortedRoles :=
        mem_sortedRoles.mpr ⟨mem, by simp [isSharing, notPrivilege, notProduct]⟩
      exact (ordered _ sorted).2
  · obtain rfl : name = "READONLY_ADMIN" := by
      simpa using congrArg Prod.fst (mem_singleton.mp last)
    exact readonly.2

end Shipped

/-- `roles_for_role` returns below some recursion limit, and has found what the roles
reached by grants stand for. -/
def FindsReachable (roles : RoleTable) (enabledStig : STIGType) (name : String) : Prop :=
  ∃ limit, ∀ n, limit ≤ n → ∃ found, rolesForRole roles enabledStig n name = .ok found ∧
    ∀ x, x ∈ found ↔ ∃ c, ReflTransGen (roles.Grants enabledStig) name c ∧
      x ∈ roles.standsFor enabledStig c

variable {roles : RoleTable} {enabledStig : STIGType} {name c : String}

theorem Finitary.findsReachable
    (finitary : Finitary roles enabledStig name) : FindsReachable roles enabledStig name := by
  obtain ⟨limit, returns⟩ := rolesForRole_returns finitary
  refine ⟨limit, fun n above => ?_⟩
  obtain ⟨found, run⟩ := returns n above
  exact ⟨found, run, mem_rolesForRole run⟩

/-- In every table, for a role from which grants lead into no cycle and, under a STIG,
to no name that the table lacks; and for all shipped roles but the two that include
themselves. -/
theorem rolesForRole_reachable : (∀ (roles : RoleTable) (enabledStig : STIGType) (name : String),
      (∀ c, ReflTransGen (roles.Grants enabledStig) name c →
        ¬ TransGen (roles.Grants enabledStig) c c) →
      (enabledStig ≠ STIGType.none → ∀ c, ReflTransGen (roles.Grants enabledStig) name c →
        ∀ child ∈ roles.expands c, child ∈ roles.names) →
      FindsReachable roles enabledStig name) ∧
    ∀ (enabledStig : STIGType), ∀ name ∈ ROLES.names, name ≠ "PRIVILEGE_WRITE" →
      name ≠ "SYSTEM_PRODUCT_WRITE" → FindsReachable ROLES enabledStig name := by
  constructor
  · intro roles enabledStig name acyclic known
    exact (Finitary.mk (Grants.acc acyclic) known).findsReachable
  · intro enabledStig name known notPrivilege notProduct
    exact (finitary_shipped enabledStig known notPrivilege notProduct).findsReachable

theorem Finitary.acyclic (finitary : Finitary roles enabledStig name)
    (path : ReflTransGen (roles.Grants enabledStig) name c) :
    ¬ TransGen (roles.Grants enabledStig) c c := by
  obtain ⟨ends, -⟩ := finitary
  induction ends with
  | intro name _ ih =>
    intro cycle
    rcases path.cases_head with rfl | ⟨next, edge, path⟩
    · obtain ⟨next, edge, back⟩ := TransGen.head'_iff.mp cycle
      exact ih next edge back cycle
    · exact ih next edge path cycle

theorem rolesForRole_reachable_sharingAdmin : FindsReachable ROLES STIGType.gpos "SHARING_ADMIN" ∧
      FindsReachable ROLES STIGType.none "SHARING_ADMIN" := by
  have known : "SHARING_ADMIN" ∈ ROLES.names := by decide +kernel
  have finitary := finitary_shipped STIGType.gpos known (by decide) (by decide)
  exact ⟨rolesForRole_reachable.1 ROLES _ _ (fun _ => finitary.acyclic) finitary.known,
    rolesForRole_reachable.2 STIGType.none _ known (by decide) (by decide)⟩

/-- The full admin includes nothing and stands for all roles; `PRIVILEGE_WRITE`
includes itself and recurses until the interpreter stops it; a name that the table lacks
is a `KeyError` under a STIG, and included like any other without one. -/
theorem rolesForRole_not_reachable :
    ((∃ found, rolesForRole ROLES STIGType.none 1 "FULL_ADMIN" = .ok found ∧ "VM_READ" ∈ found) ∧
      ¬ ReflTransGen (fun name child => child ∈ ROLES.includes name) "FULL_ADMIN" "VM_READ") ∧
    (∀ n, rolesForRole ROLES STIGType.none n "PRIVILEGE_WRITE" = .error .recursionError) ∧
    ∀ n, rolesForRole ⟨[("VM_WRITE", { includes := ["VM_READ"] })], by decide⟩ STIGType.gpos
      (n + 1) "VM_WRITE" = .error (.keyError "VM_READ") := by
  have admin : ROLES.get? "FULL_ADMIN" = some { fullAdmin := true, builtin := false } := by
    decide +kernel
  have privilege : ROLES.get? "PRIVILEGE_WRITE" = some { includes := ["PRIVILEGE_WRITE"] } := by
    decide +kernel
  have all : rolesForRole ROLES STIGType.none 1 "FULL_ADMIN" =
      .ok (∅ ∪ (ROLES.names.filter (Passes ROLES STIGType.none ·)).toFinset) := by
    rw [rolesForRole, admin]
    exact foldlM_allow (fun _ => id) ∅
  refine ⟨⟨⟨_, all, ?_⟩, ?_⟩, ?_, fun _ => rfl⟩
  · have known : "VM_READ" ∈ ROLES.names := by decide +kernel
    simpa [passes_none] using known
  · intro path
    rcases path.cases_head with same | ⟨child, edge, -⟩
    · revert same
      decide
    · simp [RoleTable.includes, admin] at edge
  · intro n
    induction n with
    | zero => rfl
    | succ n ih =>
      have passes : roleStigCheck ROLES "PRIVILEGE_WRITE" STIGType.none = .ok true :=
        passes_none ROLES _
      rw [rolesForRole, privilege]
      simp only [foldlM_cons, visit, passes, ih]
      rfl

end TruenasMiddleware.Roles
