import TruenasMiddleware.Foundation.Dict

/-! `validate_port` of `plugins/ports/ports.py`, which compares addresses as they are written. -/

namespace TruenasMiddleware.Network.Ports

open Dict

inductive IpVersion
  | v4
  | v6
deriving DecidableEq

structure Address where
  version : IpVersion
  number : Nat

def wildcardIp : IpVersion → String
  | .v4 => "0.0.0.0"
  | .v6 => "::"

structure Ipaddress where
  ipInterface : String → Address
  wildcard : ∀ version, ipInterface (wildcardIp version) = ⟨version, 0⟩

structure PortDetail where
  description : Option String
  ports : List (String × Nat)

structure Attachment where
  nameSpace : String
  title : String
  ports : List (String × Nat)
  portDetails : List PortDetail

/-- `ports[port]`, where a later attachment replaces an earlier one under the same address. -/
def portsMapping (inUse : List Attachment) (whitelistNamespace : Option String) (port : Nat) :
    List (String × Attachment) :=
  let used := inUse.filter fun entry => decide (some entry.nameSpace ≠ whitelistNamespace)
  (used.flatMap fun attachment => attachment.ports.map (attachment, ·)).foldl
    (fun ports entry =>
      write (if entry.2.2 = port then some (entry.2.1, entry.1) else none) ports) []

section Validate

variable (ipaddress : Ipaddress) (port : Nat) (bindip : String)

def getIpVersion (ip : String) : IpVersion := (ipaddress.ipInterface ip).version

def ipError (index : Nat) (ip : String) (portEntry : Attachment) : String :=
  let entry := portEntry.portDetails.find? fun detail =>
    detail.ports.contains (ip, port) || detail.ports.contains (bindip, port)
  let description := (entry.bind PortDetail.description).getD ""
  s!"{index + 1}) \"{ip}:{port}\" used by {portEntry.title}" ++
    if description = "" then "" else s!" ({description})"

def Written (ip : String) : Prop :=
  bindip = wildcardIp (getIpVersion ipaddress bindip) ∨
    ip = wildcardIp (getIpVersion ipaddress bindip) ∨ ip = bindip

def Denoted (ip : String) : Prop :=
  (ipaddress.ipInterface bindip).number = 0 ∨ (ipaddress.ipInterface ip).number = 0 ∨
    ipaddress.ipInterface ip = ipaddress.ipInterface bindip

instance (ip : String) : Decidable (Written ipaddress bindip ip) :=
  inferInstanceAs (Decidable (_ ∨ _))

/-- The message, if there is one. -/
def validateSinglePort (portAttachment : List (String × Attachment)) : Option String :=
  let version := getIpVersion ipaddress bindip
  let ips := keys portAttachment
  if ¬ ips.any (getIpVersion ipaddress · = version) ∨
      bindip ∉ ips ∧ wildcardIp version ∉ ips ∧ bindip ≠ wildcardIp version then
    none
  else
    let conflicts := portAttachment.zipIdx.filter fun entry =>
      getIpVersion ipaddress entry.1.1 = version ∧ Written ipaddress bindip entry.1.1
    some ("The port is being used by following services:\n" ++ "\n".intercalate
      (conflicts.map fun entry => ipError port bindip entry.2 entry.1.1 entry.1.2))

variable (inUse : List Attachment) (whitelistNamespace : Option String)

def validatePort : Option String :=
  validateSinglePort ipaddress port bindip (portsMapping inUse whitelistNamespace port)

def Conflict (inTheWay : String → Prop) : Prop :=
  ∃ ip, (∃ attachment ∈ inUse, some attachment.nameSpace ≠ whitelistNamespace ∧
      (ip, port) ∈ attachment.ports) ∧
    getIpVersion ipaddress ip = getIpVersion ipaddress bindip ∧ inTheWay ip

end Validate

variable {ipaddress : Ipaddress} {port : Nat} {bindip ip : String} {inUse : List Attachment}
  {whitelistNamespace : Option String}

theorem Written.denoted (written : Written ipaddress bindip ip) : Denoted ipaddress bindip ip := by
  have wildcard := congrArg Address.number (ipaddress.wildcard (getIpVersion ipaddress bindip))
  rcases written with eq | rfl | rfl
  · exact .inl (eq ▸ wildcard)
  · exact .inr (.inl wildcard)
  · exact .inr (.inr rfl)

theorem mem_portsMapping : ip ∈ keys (portsMapping inUse whitelistNamespace port) ↔
    ∃ attachment ∈ inUse, some attachment.nameSpace ≠ whitelistNamespace ∧
      (ip, port) ∈ attachment.ports := by
  rw [portsMapping, mem_keys_writes]
  simp [keys, and_assoc, and_comm]

theorem validatePort_isSome : (validatePort ipaddress port bindip inUse whitelistNamespace).isSome ↔
    Conflict ipaddress port bindip inUse whitelistNamespace (Written ipaddress bindip) := by
  have wildcard := congrArg Address.version (ipaddress.wildcard (getIpVersion ipaddress bindip))
  simp only [validatePort, validateSinglePort, Option.isSome_ite', Conflict, ← mem_portsMapping,
    List.any_eq_true, decide_eq_true_eq, not_or, not_and_or, not_not]
  constructor
  · rintro ⟨⟨ip, used, version⟩, own | wild | any⟩
    · exact ⟨bindip, own, rfl, .inr (.inr rfl)⟩
    · exact ⟨_, wild, wildcard, .inr (.inl rfl)⟩
    · exact ⟨ip, used, version, .inl any⟩
  · rintro ⟨ip, used, version, way⟩
    refine ⟨⟨ip, used, version⟩, ?_⟩
    rcases way with any | eq | eq
    · exact .inr (.inr any)
    · exact .inr (.inl (eq ▸ used))
    · exact .inl (eq ▸ used)

/-- An error is reported for exactly the conflicts if those there are by the addresses are there by
the texts. -/
theorem validatePort_iff :
    ((validatePort ipaddress port bindip inUse whitelistNamespace).isSome ↔
        Conflict ipaddress port bindip inUse whitelistNamespace (Denoted ipaddress bindip)) ↔
      (Conflict ipaddress port bindip inUse whitelistNamespace (Denoted ipaddress bindip) →
        Conflict ipaddress port bindip inUse whitelistNamespace (Written ipaddress bindip)) := by
  rw [validatePort_isSome]
  refine ⟨Iff.mpr, fun written => ⟨?_, written⟩⟩
  rintro ⟨ip, used, version, way⟩
  exact ⟨ip, used, version, way.denoted⟩

theorem loopback_in_full_unnoticed :
    let inUse : List Attachment := [⟨"ftp", "FTP", [("0:0:0:0:0:0:0:1", 21)], []⟩]
    let ipaddress : Ipaddress :=
      ⟨fun text => if text = "0.0.0.0" then ⟨.v4, 0⟩ else ⟨.v6, if text = "::" then 0 else 1⟩,
        fun version => by cases version <;> rfl⟩
    validatePort ipaddress 21 "::1" inUse none = none ∧
      Conflict ipaddress 21 "::1" inUse none (Denoted ipaddress "::1") :=
  ⟨by decide, _, ⟨_, .head _, by decide, .head _⟩, rfl, .inr (.inr rfl)⟩

end TruenasMiddleware.Network.Ports
