import TruenasMiddleware.Foundation.Dict

/-! The role table: `role.py` up to its managers, with the table that ships. -/

namespace TruenasMiddleware.Roles

/-- `STIGType`, an `IntFlag`: a set of bits. `None` and `STIGType.NONE` are both
falsy and stand for no STIG. -/
abbrev STIGType := Nat

def STIGType.none : STIGType := 0

def STIGType.gpos : STIGType := 1

structure Role where
  includes : List String := []
  fullAdmin : Bool := false
  builtin : Bool := true
  stig : Option STIGType := some .gpos
deriving DecidableEq

/-- A `dict` of roles, in insertion order. -/
structure RoleTable where
  entries : List (String × Role)
  nodup : (entries.map Prod.fst).Nodup

def endsWith (name suffix : String) : Bool := suffix.toList.isSuffixOf name.toList

namespace RoleTable

def names (roles : RoleTable) : List String := roles.entries.map Prod.fst

def get? (roles : RoleTable) (name : String) : Option Role :=
  (roles.entries.find? (·.1 == name)).map Prod.snd

/-- The roles that a role includes; none for a name that is not in the table. -/
def includes (roles : RoleTable) (name : String) : List String :=
  ((roles.get? name).map Role.includes).getD []

def fullAdmin (roles : RoleTable) (name : String) : Bool :=
  ((roles.get? name).map Role.fullAdmin).getD false

variable {roles : RoleTable} {name child : String}

theorem get?_eq_lookup : roles.get? name = roles.entries.lookup name := by
  rw [get?]
  induction roles.entries with
  | nil => rfl
  | cons entry rest ih =>
    rw [Dict.lookup_cons, ← ih, List.find?_cons]
    by_cases here : name = entry.1
    · simp [here]
    · rw [if_neg here, beq_false_of_ne (Ne.symm here)]

theorem get?_eq_some {role : Role} :
    roles.get? name = some role ↔ (name, role) ∈ roles.entries := by
  rw [get?_eq_lookup]
  exact ⟨Dict.mem_of_lookup, Dict.lookup_of_mem roles.nodup⟩

theorem mem_names : name ∈ roles.names ↔ ∃ role, roles.get? name = some role := by
  simp [names, get?_eq_some]

theorem get?_eq_none : roles.get? name = none ↔ name ∉ roles.names := by
  rw [mem_names, Option.eq_none_iff_forall_ne_some, not_exists]

theorem mem_names_of_includes (mem : child ∈ roles.includes name) :
    name ∈ roles.names := by
  cases found : roles.get? name with
  | none => simp [includes, found] at mem
  | some role => exact mem_names.mpr ⟨role, found⟩

end RoleTable

inductive RoleError
  | keyError (name : String)
  | recursionError
deriving DecidableEq

def roleStigCheck (roles : RoleTable) (name : String) (enabledStig : STIGType) :
    Except RoleError Bool :=
  if enabledStig = STIGType.none then .ok true
  else
    match roles.get? name with
    | none => .error (.keyError name)
    | some role =>
      match role.stig with
      | none => .ok false
      | some stig => .ok (stig &&& enabledStig != 0)

theorem roleStigCheck_ok {roles : RoleTable} {name : String} (known : name ∈ roles.names)
    (enabledStig : STIGType) : ∃ passes, roleStigCheck roles name enabledStig = .ok passes := by
  obtain ⟨role, found⟩ := RoleTable.mem_names.mp known
  unfold roleStigCheck
  by_cases off : enabledStig = STIGType.none
  · exact ⟨true, if_pos off⟩
  · rw [if_neg off, found]
    cases stig : role.stig with
    | none => exact ⟨false, by simp only [stig]⟩
    | some flags => exact ⟨flags &&& enabledStig != 0, by simp only [stig]⟩

def shippedEntries : List (String × Role) := [
    ("ACCOUNT_READ", {}),
    ("ACCOUNT_WRITE", { includes := ["ACCOUNT_READ"] }),
    ("API_KEY_READ", {}),
    ("API_KEY_WRITE", { includes := ["API_KEY_READ"], stig := none }),
    ("AUTH_SESSIONS_READ", {}),
    ("AUTH_SESSIONS_WRITE", { includes := ["AUTH_SESSIONS_READ"] }),
    ("BOOT_ENV_READ", {}),
    ("BOOT_ENV_WRITE", { includes := ["BOOT_ENV_READ"] }),
    ("DIRECTORY_SERVICE_READ", {}),
    ("DIRECTORY_SERVICE_WRITE", { includes := ["DIRECTORY_SERVICE_READ"] }),
    ("DISK_READ", {}),
    ("DISK_WRITE", { includes := ["DISK_READ"] }),
    ("FAILOVER_READ", {}),
    ("FAILOVER_WRITE", { includes := ["FAILOVER_READ"] }),
    ("FILESYSTEM_ATTRS_READ", {}),
    ("FILESYSTEM_ATTRS_WRITE", { includes := ["FILESYSTEM_ATTRS_READ"] }),
    ("FILESYSTEM_DATA_READ", {}),
    ("FILESYSTEM_DATA_WRITE", { includes := ["FILESYSTEM_DATA_READ"] }),
    ("FILESYSTEM_FULL_CONTROL", {
      includes := ["FILESYSTEM_ATTRS_WRITE", "FILESYSTEM_DATA_WRITE"] }),
    ("IPMI_READ", {}),
    ("IPMI_WRITE", { includes := ["IPMI_READ"] }),
    ("KMIP_READ", {}),
    ("KMIP_WRITE", { includes := ["KMIP_READ"] }),
    ("MAIL_WRITE", {}),
    ("PRIVILEGE_READ", {}),
    ("PRIVILEGE_WRITE", { includes := ["PRIVILEGE_WRITE"] }),
    ("REPORTING_READ", {}),
    ("REPORTING_WRITE", { includes := ["REPORTING_READ"] }),
    ("SUPPORT_READ", {}),
    ("SUPPORT_WRITE", { includes := ["SUPPORT_READ"] }),
    ("SSH_READ", {}),
    ("SSH_WRITE", { includes := ["SSH_READ"] }),
    ("SYSTEM_AUDIT_READ", {}),
    ("SYSTEM_AUDIT_WRITE", {}),
    ("FULL_ADMIN", { fullAdmin := true, builtin := false }),
    ("ALERT_LIST_READ", {}),
    ("ALERT_LIST_WRITE", { includes := ["ALERT_LIST_READ"] }),
    ("ALERT_READ", { includes := ["ALERT_LIST_READ"] }),
    ("ALERT_WRITE", { includes := ["ALERT_LIST_WRITE", "ALERT_READ"] }),
    ("CLOUD_BACKUP_READ", {}),
    ("CLOUD_BACKUP_WRITE", { includes := ["CLOUD_BACKUP_READ"] }),
    ("CLOUD_SYNC_READ", {}),
    ("CLOUD_SYNC_WRITE", { includes := ["CLOUD_SYNC_READ"] }),
    ("SERVICE_READ", {}),
    ("SERVICE_WRITE", {}),
    ("ENCLOSURE_READ", {}),
    ("ENCLOSURE_WRITE", { includes := ["ENCLOSURE_READ"] }),
    ("NETWORK_GENERAL_READ", {}),
    ("NETWORK_GENERAL_WRITE", { includes := ["NETWORK_GENERAL_READ"] }),
    ("NETWORK_INTERFACE_READ", {}),
    ("NETWORK_INTERFACE_WRITE", { includes := ["NETWORK_INTERFACE_READ"] }),
    ("VM_READ", {}),
    ("VM_WRITE", { includes := ["VM_READ"], stig := none }),
    ("VM_DEVICE_READ", { includes := ["VM_READ"] }),
    ("VM_DEVICE_WRITE", { includes := ["VM_WRITE", "VM_DEVICE_READ"], stig := none }),
    ("CONTAINER_READ", {}),
    ("CONTAINER_WRITE", { includes := ["CONTAINER_READ"], stig := none }),
    ("LXC_CONFIG_READ", {}),
    ("LXC_CONFIG_WRITE", { includes := ["LXC_CONFIG_READ"], stig := none }),
    ("CONTAINER_DEVICE_READ", { includes := ["CONTAINER_READ"] }),
    ("CONTAINER_DEVICE_WRITE", {
      includes := ["CONTAINER_WRITE", "CONTAINER_DEVICE_READ"],
      stig := none }),
    ("CONTAINER_IMAGE_READ", {}),
    ("CONTAINER_IMAGE_WRITE", { includes := ["CONTAINER_IMAGE_READ"], stig := none }),
    ("JBOF_READ", {}),
    ("JBOF_WRITE", { includes := ["JBOF_READ"] }),
    ("TRUECOMMAND_READ", {}),
    ("TRUECOMMAND_WRITE", { includes := ["TRUECOMMAND_READ"], stig := none }),
    ("TRUENAS_CONNECT_READ", {}),
    ("TRUENAS_CONNECT_WRITE", { includes := ["TRUENAS_CONNECT_READ"], stig := none }),
    ("CERTIFICATE_READ", {}),
    ("CERTIFICATE_WRITE", { includes := ["CERTIFICATE_READ"] }),
    ("CATALOG_READ", {}),
    ("CATALOG_WRITE", { includes := ["CATALOG_READ"], stig := none }),
    ("DOCKER_READ", {}),
    ("DOCKER_WRITE", { includes := ["DOCKER_READ"], stig := none }),
    ("APPS_READ", { includes := ["CATALOG_READ"] }),
    ("APPS_WRITE", { includes := ["CATALOG_WRITE", "APPS_READ"], stig := none }),
    ("SHARING_FTP_READ", {}),
    ("SHARING_FTP_WRITE", { includes := ["SHARING_FTP_READ"] }),
    ("SHARING_ISCSI_AUTH_READ", {}),
    ("SHARING_ISCSI_AUTH_WRITE", { includes := ["SHARING_ISCSI_AUTH_READ"] }),
    ("SHARING_ISCSI_EXTENT_READ", {}),
    ("SHARING_ISCSI_EXTENT_WRITE", { includes := ["SHARING_ISCSI_EXTENT_READ"] }),
    ("SHARING_ISCSI_GLOBAL_READ", {}),
    ("SHARING_ISCSI_GLOBAL_WRITE", { includes := ["SHARING_ISCSI_GLOBAL_READ"] }),
    ("SHARING_ISCSI_HOST_READ", {}),
    ("SHARING_ISCSI_HOST_WRITE", { includes := ["SHARING_ISCSI_HOST_READ"] }),
    ("SHARING_ISCSI_INITIATOR_READ", {}),
    ("SHARING_ISCSI_INITIATOR_WRITE", { includes := ["SHARING_ISCSI_INITIATOR_READ"] }),
    ("SHARING_ISCSI_PORTAL_READ", {}),
    ("SHARING_ISCSI_PORTAL_WRITE", { includes := ["SHARING_ISCSI_PORTAL_READ"] }),
    ("SHARING_ISCSI_TARGET_READ", {}),
    ("SHARING_ISCSI_TARGET_WRITE", { includes := ["SHARING_ISCSI_TARGET_READ"] }),
    ("SHARING_ISCSI_TARGETEXTENT_READ", {}),
    ("SHARING_ISCSI_TARGETEXTENT_WRITE", { includes := ["SHARING_ISCSI_TARGETEXTENT_READ"] }),
    ("SHARING_ISCSI_READ", {
      includes := ["SHARING_ISCSI_AUTH_READ", "SHARING_ISCSI_EXTENT_READ",
        "SHARING_ISCSI_GLOBAL_READ", "SHARING_ISCSI_HOST_READ", "SHARING_ISCSI_INITIATOR_READ",
        "SHARING_ISCSI_PORTAL_READ", "SHARING_ISCSI_TARGET_READ",
        "SHARING_ISCSI_TARGETEXTENT_READ"] }),
    ("SHARING_ISCSI_WRITE", {
      includes := ["SHARING_ISCSI_AUTH_WRITE", "SHARING_ISCSI_EXTENT_WRITE",
        "SHARING_ISCSI_GLOBAL_WRITE", "SHARING_ISCSI_HOST_WRITE",
        "SHARING_ISCSI_INITIATOR_WRITE", "SHARING_ISCSI_PORTAL_WRITE",
        "SHARING_ISCSI_TARGET_WRITE", "SHARING_ISCSI_TARGETEXTENT_WRITE"] }),
    ("SHARING_NFS_READ", {}),
    ("SHARING_NFS_WRITE", { includes := ["SHARING_NFS_READ"] }),
    ("SHARING_NVME_TARGET_READ", {}),
    ("SHARING_NVME_TARGET_WRITE", { includes := ["SHARING_NVME_TARGET_READ"] }),
    ("SHARING_SMB_READ", {}),
    ("SHARING_SMB_WRITE", { includes := ["SHARING_SMB_READ"] }),
    ("SHARING_WEBSHARE_READ", {}),
    ("SHARING_WEBSHARE_WRITE", { includes := ["SHARING_WEBSHARE_READ"] }),
    ("SHARING_READ", {
      includes := ["SHARING_ISCSI_READ", "SHARING_NFS_READ", "SHARING_NVME_TARGET_READ",
        "SHARING_SMB_READ", "SHARING_FTP_READ", "SHARING_WEBSHARE_READ"] }),
    ("SHARING_WRITE", {
      includes := ["SHARING_ISCSI_WRITE", "SHARING_NFS_WRITE", "SHARING_NVME_TARGET_WRITE",
        "SHARING_SMB_WRITE", "SHARING_FTP_WRITE", "SHARING_WEBSHARE_WRITE"] }),
    ("KEYCHAIN_CREDENTIAL_READ", {}),
    ("KEYCHAIN_CREDENTIAL_WRITE", { includes := ["KEYCHAIN_CREDENTIAL_READ"] }),
    ("REPLICATION_TASK_CONFIG_READ", {}),
    ("REPLICATION_TASK_CONFIG_WRITE", { includes := ["REPLICATION_TASK_CONFIG_READ"] }),
    ("REPLICATION_TASK_READ", {}),
    ("REPLICATION_TASK_WRITE", { includes := ["REPLICATION_TASK_READ"] }),
    ("REPLICATION_TASK_WRITE_PULL", { includes := ["REPLICATION_TASK_WRITE"] }),
    ("SNAPSHOT_TASK_READ", {}),
    ("SNAPSHOT_TASK_WRITE", { includes := ["SNAPSHOT_TASK_READ"] }),
    ("POOL_SCRUB_READ", {}),
    ("POOL_SCRUB_WRITE", { includes := ["POOL_SCRUB_READ"] }),
    ("POOL_READ", { includes := ["POOL_SCRUB_READ"] }),
    ("POOL_WRITE", { includes := ["POOL_READ", "POOL_SCRUB_WRITE"] }),
    ("DATASET_READ", {}),
    ("DATASET_WRITE", { includes := ["DATASET_READ"] }),
    ("DATASET_DELETE", {}),
    ("SNAPSHOT_READ", {}),
    ("SNAPSHOT_WRITE", { includes := ["SNAPSHOT_READ"] }),
    ("SNAPSHOT_DELETE", {}),
    ("REPLICATION_ADMIN", {
      includes := ["KEYCHAIN_CREDENTIAL_WRITE", "REPLICATION_TASK_CONFIG_WRITE",
        "REPLICATION_TASK_WRITE", "SNAPSHOT_TASK_WRITE", "SNAPSHOT_WRITE"],
      builtin := false }),
    ("SHARING_ADMIN", {
      includes := ["READONLY_ADMIN", "DATASET_WRITE", "SHARING_WRITE", "ZFS_RESOURCE_WRITE",
        "FILESYSTEM_ATTRS_WRITE", "SERVICE_READ"],
      builtin := false }),
    ("SYSTEM_GENERAL_READ", {}),
    ("SYSTEM_GENERAL_WRITE", { includes := ["SYSTEM_GENERAL_READ"] }),
    ("SYSTEM_PRODUCT_READ", {}),
    ("SYSTEM_PRODUCT_WRITE", { includes := ["SYSTEM_PRODUCT_WRITE"] }),
    ("SYSTEM_ADVANCED_READ", {}),
    ("SYSTEM_ADVANCED_WRITE", { includes := ["SYSTEM_ADVANCED_READ"] }),
    ("SYSTEM_SECURITY_READ", {}),
    ("SYSTEM_SECURITY_WRITE", { includes := ["SYSTEM_SECURITY_READ"] }),
    ("SYSTEM_TUNABLE_READ", {}),
    ("SYSTEM_TUNABLE_WRITE", { includes := ["SYSTEM_TUNABLE_READ"] }),
    ("SYSTEM_CRON_READ", {}),
    ("SYSTEM_CRON_WRITE", { includes := ["SYSTEM_CRON_READ"] }),
    ("SYSTEM_UPDATE_READ", {}),
    ("SYSTEM_UPDATE_WRITE", { includes := ["SYSTEM_UPDATE_READ"] }),
    ("ZFS_RESOURCE_READ", {}),
    ("ZFS_RESOURCE_WRITE", { includes := ["ZFS_RESOURCE_READ"] }),
    ("ZFS_RESOURCE_DELETE", {})]

def ROLES : RoleTable where
  entries := shippedEntries ++ [("READONLY_ADMIN", {
    includes := (shippedEntries.map Prod.fst).filter fun role => endsWith role "_READ"
    builtin := false })]
  nodup := by decide +kernel

end TruenasMiddleware.Roles
