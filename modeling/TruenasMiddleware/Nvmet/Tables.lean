import TruenasMiddleware.Nvmet.Runs

/-! The classes of `write_config` as tables of a reconciliation: the level of each class, what the
configuration prescribes, and what its entries ask for. `Applicable` is what a run relies on. -/

namespace TruenasMiddleware.Nvmet

open Reconcile

/-! ### Levels -/

def Ident.level : Ident → ℕ
  | .subsystem _ => 0
  | .transport _ => 1
  | .key .dhchapKey _ => 2
  | .key .dhchapCtrlKey _ => 3
  | .listener nqn _ => if nqn = NVMET_DISCOVERY_NQN then 4 else 7
  | .referral _ => 5
  | .host _ _ => 6
  | .bdev _ => 8
  | .ns _ _ => 9

def Item.level (item : Item) : ℕ := item.ident.level

theorem level_of_mem_needs {item : Item} {ident : Ident} (needed : ident ∈ needs item) :
    ident.level < item.level := by
  cases item <;> simp only [needs, List.mem_cons, List.mem_append, List.mem_map, List.not_mem_nil,
      or_false] at needed
  case listener nqn address state =>
    have high : 4 ≤ (Item.listener nqn address state).level := by
      simp only [Item.level, Item.ident, Ident.level]
      split <;> decide
    rcases needed with rfl | rfl
    · exact Nat.lt_of_lt_of_le (by decide : 0 < 4) high
    · exact Nat.lt_of_lt_of_le (by decide : 1 < 4) high
  case host =>
    rcases needed with rfl | ⟨_, _, rfl⟩ | ⟨_, _, rfl⟩ <;>
      simp only [Item.level, Item.ident, Ident.level, Nat.reduceLT]
  case ns =>
    rcases needed with rfl | rfl <;> simp only [Item.level, Item.ident, Ident.level, Nat.reduceLT]

theorem leveled : Leveled spdk Item.level where
  ready {items after new} kept ready := by
    simp only [spdk, List.all_eq_true, has_iff] at ready ⊢
    intro ident needed
    obtain ⟨item, present, rfl⟩ := ready ident needed
    exact ⟨item, kept item present (level_of_mem_needs needed), rfl⟩
  under {item other} below := by
    cases item <;> cases other <;> simp only [spdk, Item.ident, under, Bool.false_eq_true] at below
    case subsystem.listener live nqn address state =>
      simp only [Item.level, Item.ident, Ident.level]
      split <;> decide
    all_goals simp only [Item.level, Item.ident, Ident.level, Nat.reduceLT]
  ident same := congrArg Ident.level same

/-! ### What the configuration prescribes -/

variable (config : Config)

def listenerAt (port : Port) (index : ℕ) (nqn : Text) : Option Item :=
  (addrTraddrToAddress config index port.trtype port.traddr).map fun traddr =>
    .listener nqn (port.address traddr)
      (if nqn ≠ NVMET_DISCOVERY_NQN && index > ANA_PORT_INDEX_OFFSET then anaState config
      else .optimized)

/-- The block device of a namespace, unless it is locked or held by the other node. -/
def deviceOf (entry : Namespace) : Option Item :=
  (bdevName config entry).map fun name => .bdev name (productOf config entry)

variable (digest : Text → Text)

def prescribed (config : Config) : List Item :=
  (config.subsystems.filter (subsysVisible config)).map (fun subsys =>
    .subsystem (subsystemOf config subsys)) ++
  (config.ports.filter fun port => port.enabled && port.id ∈ config.nonAnaPortIds).filterMap
    (fun port => listenerAt config port port.index NVMET_DISCOVERY_NQN) ++
  (config.ports.filter fun port => port.enabled && port.id ∈ config.anaPortIds).filterMap
    (fun port =>
      listenerAt config port (ANA_PORT_INDEX_OFFSET + port.index) NVMET_DISCOVERY_NQN) ++
  (config.portSubsys.filter fun entry => entry.port.enabled).filterMap (fun entry =>
    (portSubsysIndex config entry).bind fun index =>
      listenerAt config entry.port index entry.subsys.subnqn) ++
  (config.hostSubsys.filter fun entry => subsysVisible config entry.subsys).map
    (hostOf digest) ++
  (config.namespaces.filter fun entry => subsysVisible config entry.subsys && entry.enabled).flatMap
    (fun entry => (deviceOf config entry).toList ++ (nsOf config entry).toList)

/-! ### Tables -/

def askDevice (items : List Item) (entry : Namespace) : Option Item :=
  match deviceOf config entry with
  | some device => some device
  | none => items.find? fun item => (bdevConfig config).owns item &&
      decide ((bdevConfig config).listing item =
        ((bdevConfig config).key entry).elim .hidden .listed)

def subsysTable : Table Item Ident Text where
  Object := Subsys
  kind := subsysConfig config
  objects := config.subsystems
  ask subsys := some (.subsystem (subsystemOf config subsys))

def transportTable : Table Item Ident Text where
  Object := Trtype
  kind := transportConfig
  objects := transports config
  ask trtype := some (.transport trtype)

def keyringTable (config : Config) (type : KeyType) : Table Item Ident Text where
  Object := Host
  kind := keyringConfig digest type
  objects := config.hosts
  ask host := (hostConfigKey digest host type).map (.key type)

def portTable : Table Item Ident Text where
  Object := Port
  kind := portConfig config
  objects := portDict config
  ask port := listenerAt config port port.index NVMET_DISCOVERY_NQN

def referralTable : Table Item Ident Text where
  Object := Address
  kind := portAnaReferralConfig
  objects := referralDict config
  ask address := some (.referral address)

def hostTable (config : Config) : Table Item Ident Text where
  Object := HostSubsys
  kind := hostSubsysConfig digest
  objects := config.hostSubsys
  ask entry := some (hostOf digest entry)

def portSubsysTable : Table Item Ident Text where
  Object := PortSubsys
  kind := portSubsysConfig config
  objects := portSubsysDict config
  ask entry := listenerAt config entry.port entry.port.index entry.subsys.subnqn

def bdevTable (items : List Item) : Table Item Ident Text where
  Object := Namespace
  kind := bdevConfig config
  objects := config.namespaces
  ask := askDevice config items

def namespaceTable : Table Item Ident Text where
  Object := Namespace
  kind := namespaceConfig config
  objects := config.namespaces
  ask := nsOf config

def tables (config : Config) (items : List Item) : List (Table Item Ident Text) :=
  [subsysTable config, transportTable config, keyringTable digest config .dhchapKey,
    keyringTable digest config .dhchapCtrlKey, portTable config, referralTable config,
    hostTable digest config, portSubsysTable config, bdevTable config items,
    namespaceTable config]

/-! ### What a run relies on -/

/-- Flags of subsystems and keys of hosts are updated, nothing else is. -/
def agrees (item new : Item) : Bool :=
  match item, new with
  | .subsystem live, .subsystem asked =>
    decide ({ live with allowAnyHost := asked.allowAnyHost } = asked)
  | .host _ _ _ _, .host _ _ _ _ => true
  | item, new => decide (item = new)

structure Applicable (items : List Item) (config : Config) : Prop where
  subsystems : ∀ subsys ∈ config.subsystems,
    subsys.subnqn ≠ NVMET_DISCOVERY_NQN ∧ subsys.ana.getD config.anaEnabled = false
  anaPortIds : config.anaPortIds = []
  ports : ∀ port ∈ config.ports,
    0 < port.index ∧ port.index < ANA_PORT_INDEX_OFFSET ∧ port.enabled = true
  hosts : ∀ host ∈ config.hosts, host.dhchapKey ≠ some [] ∧ host.dhchapCtrlKey ≠ some []
  portSubsys : ∀ entry ∈ config.portSubsys,
    entry.port ∈ config.ports ∧ entry.subsys ∈ config.subsystems ∧ config.status ≠ .other
  hostSubsys : ∀ entry ∈ config.hostSubsys, entry.host ∈ config.hosts ∧
    entry.subsys ∈ config.subsystems ∧ subsysVisible config entry.subsys = true
  namespaces : ∀ entry ∈ config.namespaces, entry.subsys ∈ config.subsystems ∧ entry.enabled = true
  /-- In particular no live namespace has the id of a prescribed one with another device. -/
  told : ∀ table ∈ tables digest config items, table.Told spdk items
  agree : ∀ item ∈ items, ∀ new ∈ prescribed digest config, item.ident = new.ident →
    agrees item new = true

instance (items : List Item) (config : Config) : Decidable (Applicable digest items config) :=
  decidable_of_iff
    ((∀ subsys ∈ config.subsystems,
        subsys.subnqn ≠ NVMET_DISCOVERY_NQN ∧ subsys.ana.getD config.anaEnabled = false) ∧
      config.anaPortIds = [] ∧
      (∀ port ∈ config.ports,
        0 < port.index ∧ port.index < ANA_PORT_INDEX_OFFSET ∧ port.enabled = true) ∧
      (∀ host ∈ config.hosts, host.dhchapKey ≠ some [] ∧ host.dhchapCtrlKey ≠ some []) ∧
      (∀ entry ∈ config.portSubsys,
        entry.port ∈ config.ports ∧ entry.subsys ∈ config.subsystems ∧ config.status ≠ .other) ∧
      (∀ entry ∈ config.hostSubsys, entry.host ∈ config.hosts ∧
        entry.subsys ∈ config.subsystems ∧ subsysVisible config entry.subsys = true) ∧
      (∀ entry ∈ config.namespaces, entry.subsys ∈ config.subsystems ∧ entry.enabled = true) ∧
      (∀ table ∈ tables digest config items, table.Told spdk items) ∧
      ∀ item ∈ items, ∀ new ∈ prescribed digest config, item.ident = new.ident →
        agrees item new = true)
    ⟨fun ⟨subsystems, anaPortIds, ports, hosts, portSubsys, hostSubsys, namespaces, told, agree⟩ =>
        ⟨subsystems, anaPortIds, ports, hosts, portSubsys, hostSubsys, namespaces, told, agree⟩,
      fun ⟨subsystems, anaPortIds, ports, hosts, portSubsys, hostSubsys, namespaces, told, agree⟩ =>
        ⟨subsystems, anaPortIds, ports, hosts, portSubsys, hostSubsys, namespaces, told, agree⟩⟩

end TruenasMiddleware.Nvmet
