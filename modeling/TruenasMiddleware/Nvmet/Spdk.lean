import TruenasMiddleware.Foundation.Kinds

/-! Rendering of the NVMe-oF configuration into SPDK (`utils/nvmet/spdk.py`, `render_common.py`).

`write_config` compares what the target reports with the tables of the configuration, class by
class, by textual keys. The calls of a class that create are made before the classes that follow it,
those that delete after them. -/

namespace TruenasMiddleware.Nvmet

open Reconcile

abbrev Text := List Char

def NVMET_DISCOVERY_NQN : Text := "nqn.2014-08.org.nvmexpress.discovery".toList

def ANA_PORT_INDEX_OFFSET : ℕ := 5000

/-! ### What the target holds -/

inductive Trtype
  | tcp
  | rdma
  | fc
  deriving DecidableEq

def Trtype.name : Trtype → Text
  | .tcp => "TCP".toList
  | .rdma => "RDMA".toList
  | .fc => "FC".toList

inductive Adrfam
  | ipv4
  | ipv6
  | fc
  deriving DecidableEq

structure Address where
  trtype : Trtype
  adrfam : Adrfam
  traddr : Text
  trsvcid : Text
  deriving DecidableEq

inductive AnaState
  | optimized
  | inaccessible
  deriving DecidableEq

structure Subsystem where
  nqn : Text
  serial : Text
  model : Text
  minCntlid : Option ℕ
  maxCntlid : Option ℕ
  anaReporting : Bool
  allowAnyHost : Bool
  deriving DecidableEq

inductive KeyType
  | dhchapKey
  | dhchapCtrlKey
  deriving DecidableEq

def KeyType.name : KeyType → Text
  | .dhchapKey => "dhchap_key".toList
  | .dhchapCtrlKey => "dhchap_ctrl_key".toList

inductive Product
  | uring (filename : Text)
  | aio (filename : Text) (blockSize : Option ℕ)
  | null (numBlocks blockSize : ℕ)
  | other
  deriving DecidableEq

structure Attached where
  bdevName : Text
  uuid : Text
  nguid : Text
  anagrpid : ℕ
  deriving DecidableEq

/-- Listeners, hosts and namespaces are reported with their subsystem. -/
inductive Item
  | subsystem (live : Subsystem)
  | transport (trtype : Trtype)
  /-- A key of the keyring. The type is the first part of its name. -/
  | key (type : KeyType) (name : Text)
  /-- The state is that of the ANA group of this node. -/
  | listener (nqn : Text) (address : Address) (state : AnaState)
  | referral (address : Address)
  | host (nqn hostnqn : Text) (dhchapKey dhchapCtrlKey : Option Text)
  | bdev (name : Text) (product : Product)
  | ns (nqn : Text) (nsid : ℕ) (attached : Attached)
  deriving DecidableEq

inductive Ident
  | subsystem (nqn : Text)
  | transport (trtype : Trtype)
  | key (type : KeyType) (name : Text)
  | listener (nqn : Text) (address : Address)
  | referral (address : Address)
  | host (nqn hostnqn : Text)
  | bdev (name : Text)
  | ns (nqn : Text) (nsid : ℕ)
  deriving DecidableEq

def Item.ident : Item → Ident
  | .subsystem live => .subsystem live.nqn
  | .transport trtype => .transport trtype
  | .key type name => .key type name
  | .listener nqn address _ => .listener nqn address
  | .referral address => .referral address
  | .host nqn hostnqn _ _ => .host nqn hostnqn
  | .bdev name _ => .bdev name
  | .ns nqn nsid _ => .ns nqn nsid

def has (items : List Item) (ident : Ident) : Bool :=
  items.any fun item => decide (item.ident = ident)

/-- A call for something of a subsystem needs the subsystem, a listener its transport, a host its
keys, and a namespace its block device. -/
def needs : Item → List Ident
  | .subsystem _ | .transport _ | .key _ _ | .referral _ | .bdev _ _ => []
  | .listener nqn address _ => [.subsystem nqn, .transport address.trtype]
  | .host nqn _ dhchapKey dhchapCtrlKey =>
    .subsystem nqn :: (dhchapKey.toList.map (.key .dhchapKey) ++
      dhchapCtrlKey.toList.map (.key .dhchapCtrlKey))
  | .ns nqn _ attached => [.subsystem nqn, .bdev attached.bdevName]

def under (ident : Ident) (item : Item) : Bool :=
  match ident, item with
  | .subsystem nqn, .listener nqn' _ _ => decide (nqn = nqn')
  | .subsystem nqn, .host nqn' _ _ _ => decide (nqn = nqn')
  | .subsystem nqn, .ns nqn' _ _ => decide (nqn = nqn')
  | .bdev name, .ns _ _ attached => decide (name = attached.bdevName)
  | _, _ => false

def spdk : Rules Item Ident where
  ident := Item.ident
  ready items item := (needs item).all (has items)
  under := under

def discovery : Subsystem where
  nqn := NVMET_DISCOVERY_NQN
  serial := []
  model := []
  minCntlid := none
  maxCntlid := none
  anaReporting := false
  allowAnyHost := true

def fresh : List Item := [.subsystem discovery]

/-! ### The configuration -/

structure Subsys where
  subnqn : Text
  serial : Text
  allowAnyHost : Bool
  ana : Option Bool
  deriving DecidableEq

structure Port where
  id : ℕ
  index : ℕ
  trtype : Trtype
  adrfam : Adrfam
  traddr : Text
  trsvcid : Text
  enabled : Bool
  deriving DecidableEq

structure Host where
  hostnqn : Text
  dhchapKey : Option Text
  dhchapCtrlKey : Option Text
  deriving DecidableEq

structure PortSubsys where
  port : Port
  subsys : Subsys

structure HostSubsys where
  host : Host
  subsys : Subsys

inductive DeviceType
  | zvol
  | file

def DeviceType.name : DeviceType → Text
  | .zvol => "ZVOL".toList
  | .file => "FILE".toList

structure Namespace where
  nsid : ℕ
  subsys : Subsys
  deviceType : DeviceType
  devicePath : Text
  deviceUuid : Text
  deviceNguid : Text
  locked : Bool
  enabled : Bool
  nsid_pos : 0 < nsid

inductive Node
  | a
  | b
  | manual
  deriving DecidableEq

inductive Status
  | single
  | master
  | backup
  | other
  deriving DecidableEq

structure Config where
  licensed : Bool
  node : Node
  status : Status
  anaEnabled : Bool
  model : Text
  choices : Trtype → Option (List (Text × Text × Text))
  ports : List Port
  nonAnaPortIds : List ℕ
  anaPortIds : List ℕ
  subsystems : List Subsys
  hosts : List Host
  portSubsys : List PortSubsys
  hostSubsys : List HostSubsys
  namespaces : List Namespace

/-! ### Common functions -/

variable (config : Config)

/-- Raises where there is no choice for the address. -/
def addrTraddrToAddress (index : ℕ) (trtype : Trtype) (traddr : Text) : Option Text :=
  if index > ANA_PORT_INDEX_OFFSET then
    ((config.choices trtype).bind fun choices => choices.lookup traddr).map fun pair =>
      match config.node with
      | .a => pair.1
      | .b => pair.2
      | .manual => traddr
  else some traddr

def portSubsysIndex (entry : PortSubsys) : Option ℕ :=
  let rawIndex := entry.port.index
  let index :=
    match entry.subsys.ana with
    | some true => rawIndex + ANA_PORT_INDEX_OFFSET
    | some false => rawIndex
    | none => if config.anaEnabled then rawIndex + ANA_PORT_INDEX_OFFSET else rawIndex
  if index < ANA_PORT_INDEX_OFFSET && config.status = .backup then none else some index

def anaState : AnaState :=
  if config.status = .master then .optimized else .inaccessible

def anaGrpid : ℕ :=
  match config.node with
  | .a => 2
  | .b => 3
  | .manual => 1

def subsysAna (subsys : Subsys) : Bool :=
  config.licensed &&
    if config.anaEnabled then decide (subsys.ana ≠ some false) else decide (subsys.ana = some true)

def subsysVisible (subsys : Subsys) : Bool :=
  match config.status with
  | .single | .master => true
  | .backup => subsys.ana.getD config.anaEnabled
  | .other => false

/-! ### Classes -/

def str (n : ℕ) : Text := Nat.toDigits 10 n

def colon (left right : Text) : Text := left ++ ':' :: right

def replace (old new : Char) (text : Text) : Text :=
  text.map fun char => if char = old then new else char

/-- The calls of every class spare the key of the discovery subsystem. -/
def discards (key : Text) : Bool := decide (key = NVMET_DISCOVERY_NQN)

section Classes

variable (digest : Text → Text) (config : Config)

def subsystemOf (subsys : Subsys) : Subsystem where
  nqn := subsys.subnqn
  serial := subsys.serial
  model := config.model
  minCntlid := if config.node = .b then some 32000 else none
  maxCntlid := if config.node = .a then some 31999 else none
  anaReporting := config.licensed
  allowAnyHost := subsys.allowAnyHost

def subsysConfig : Kind Subsys Item Ident Text where
  owns item := item matches .subsystem _
  listing
    | .subsystem live => .listed live.nqn
    | _ => .hidden
  key subsys := if subsysVisible config subsys then some subsys.subnqn else none
  add subsys := [.add (.subsystem (subsystemOf config subsys))]
  update subsys
    | .subsystem live =>
      if subsys.allowAnyHost ≠ live.allowAnyHost then
        [.alter (.subsystem { live with allowAnyHost := subsys.allowAnyHost })]
      else []
    | _ => []
  delete item := [.remove item.ident]
  keeps := discards

/-- Transports are never unloaded. -/
def transportConfig : Kind Trtype Item Ident Text where
  owns item := item matches .transport _
  listing
    | .transport trtype => .listed trtype.name
    | _ => .hidden
  key trtype := some trtype.name
  add trtype := [.add (.transport trtype)]
  update _ _ := []
  delete item := [.remove item.ident]
  keeps _ := true

def Host.secret (host : Host) : KeyType → Option Text
  | .dhchapKey => host.dhchapKey
  | .dhchapCtrlKey => host.dhchapCtrlKey

def hostConfigKey (host : Host) (type : KeyType) : Option Text :=
  match host.secret type with
  | none | some [] => none
  | some secret =>
    some (type.name ++ '-' :: replace ':' '-' host.hostnqn ++ '-' :: digest secret)

def keyringConfig (type : KeyType) : Kind Host Item Ident Text where
  owns
    | .key type' _ => decide (type' = type)
    | _ => false
  listing
    | .key _ name => .listed name
    | _ => .hidden
  key host := hostConfigKey digest host type
  add host := (hostConfigKey digest host type).toList.map fun name => .add (.key type name)
  update _ _ := []
  delete item := [.remove item.ident]
  keeps := discards

/-- The first port with the transport and service of the address, and its address or that of this
node for it. Raises at a port that has no choice for its address. -/
def liveToIndex (address : Address) : List Port → Option (Option ℕ)
  | [] => some none
  | port :: rest =>
    if address.trtype ≠ port.trtype || address.trsvcid ≠ port.trsvcid then
      liveToIndex address rest
    else if address.traddr = port.traddr then some (some port.index)
    else
      match addrTraddrToAddress config (port.index + ANA_PORT_INDEX_OFFSET) port.trtype
        port.traddr with
      | none => none
      | some traddr =>
        if address.traddr = traddr then some (some (port.index + ANA_PORT_INDEX_OFFSET))
        else liveToIndex address rest

def liveAddressToKey (address : Address) : Option Text :=
  (liveToIndex config address config.ports).map fun
    | some index => str index
    | none =>
      match address.trtype with
      | .tcp | .rdma => colon address.trtype.name (colon address.traddr address.trsvcid)
      | .fc => colon address.trtype.name (colon address.traddr [])

def Port.address (port : Port) (traddr : Text) : Address where
  trtype := port.trtype
  adrfam := port.adrfam
  traddr := traddr
  trsvcid := port.trsvcid

def addToNqn (port : Port) (nqn : Text) : List (Call Item Ident) :=
  match addrTraddrToAddress config port.index port.trtype port.traddr with
  | none => [.fail]
  | some traddr =>
    .add (.listener nqn (port.address traddr) .optimized) ::
      if nqn ≠ NVMET_DISCOVERY_NQN && port.index > ANA_PORT_INDEX_OFFSET then
        [.alter (.listener nqn (port.address traddr) (anaState config))]
      else []

def addressMatch (port : Port) (address : Address) : Bool :=
  decide (port.trtype = address.trtype ∧ port.traddr = address.traddr ∧
    port.trsvcid = address.trsvcid)

def portDict : List Port :=
  config.ports.flatMap fun port =>
    (if port.id ∈ config.nonAnaPortIds then [port] else []) ++ if port.id ∈ config.anaPortIds then
        [{ port with index := ANA_PORT_INDEX_OFFSET + port.index }]
      else []

def portConfig : Kind Port Item Ident Text where
  owns
    | .listener nqn _ _ => decide (nqn = NVMET_DISCOVERY_NQN)
    | _ => false
  listing
    | .listener _ address _ => (liveAddressToKey config address).elim .raises .listed
    | _ => .hidden
  key port := some (str port.index)
  add port := addToNqn config port NVMET_DISCOVERY_NQN
  update port
    | .listener nqn address _ =>
      if addressMatch port address then []
      else .remove (.listener nqn address) :: addToNqn config port NVMET_DISCOVERY_NQN
    | _ => []
  delete item := [.remove item.ident]
  keeps := discards

def referralDict : List Address :=
  if config.node = .manual then []
  else
    config.ports.filterMap fun port =>
      if port.id ∈ config.anaPortIds then
        match (config.choices port.trtype).bind fun choices => choices.lookup port.traddr with
        | none => none
        | some pair =>
          let peer := if config.node = .a then pair.2 else pair.1
          if peer = [] then none else some (port.address peer)
      else none

/-- A transport without choices is not caught. -/
def referralRaises : Bool :=
  config.node ≠ .manual &&
    config.ports.any fun port => port.id ∈ config.anaPortIds && (config.choices port.trtype).isNone

def referralKey (address : Address) : Text :=
  colon address.trtype.name (colon address.traddr address.trsvcid)

def portAnaReferralConfig : Kind Address Item Ident Text where
  owns item := item matches .referral _
  listing
    | .referral address => .listed (referralKey address)
    | _ => .hidden
  key address := some (referralKey address)
  add address := [.add (.referral address)]
  update _ _ := []
  delete item := [.remove item.ident]
  keeps := discards

def secretMatches (host : Host) (type : KeyType) (live : Option Text) : Bool :=
  match host.secret type, live with
  | none, none => true
  | some _, some name => decide (some name = hostConfigKey digest host type)
  | _, _ => false

def hostOf (entry : HostSubsys) : Item :=
  .host entry.subsys.subnqn entry.host.hostnqn (hostConfigKey digest entry.host .dhchapKey)
    (hostConfigKey digest entry.host .dhchapCtrlKey)

def hostSubsysConfig : Kind HostSubsys Item Ident Text where
  owns item := item matches .host _ _ _ _
  listing
    | .host nqn hostnqn _ _ =>
      if nqn = NVMET_DISCOVERY_NQN then .hidden else .listed (colon hostnqn nqn)
    | _ => .hidden
  key entry := some (colon entry.host.hostnqn entry.subsys.subnqn)
  add entry := [.add (hostOf digest entry)]
  update entry
    | .host nqn hostnqn dhchapKey dhchapCtrlKey =>
      if secretMatches digest entry.host .dhchapKey dhchapKey &&
          secretMatches digest entry.host .dhchapCtrlKey dhchapCtrlKey then []
      else [.remove (.host nqn hostnqn), .add (hostOf digest entry)]
    | _ => []
  delete item := [.remove item.ident]
  keeps := discards

def portSubsysEntry (entry : PortSubsys) : Option PortSubsys :=
  match portSubsysIndex config entry with
  | none | some 0 => none
  | some index =>
    if index < ANA_PORT_INDEX_OFFSET then some entry
    else some { entry with port := { entry.port with index := index } }

def portSubsysDict : List PortSubsys := config.portSubsys.filterMap (portSubsysEntry config)

def portSubsysConfig : Kind PortSubsys Item Ident Text where
  owns
    | .listener nqn _ _ => decide (nqn ≠ NVMET_DISCOVERY_NQN)
    | _ => false
  listing
    | .listener nqn address _ =>
      (liveAddressToKey config address).elim .raises fun key => .listed (colon key nqn)
    | _ => .hidden
  key entry := some (colon (str entry.port.index) entry.subsys.subnqn)
  add entry := addToNqn config entry.port entry.subsys.subnqn
  update entry
    | .listener nqn address _ =>
      if addressMatch entry.port address then []
      else .remove (.listener nqn address) :: addToNqn config entry.port entry.subsys.subnqn
    | _ => []
  delete item := [.remove item.ident]
  keeps := discards

/-- The call for a listener of the subsystem that is not in the state of this node. -/
def anaUpdate (subsys : Subsys) : Item → Option (Call Item Ident)
  | .listener nqn address state =>
    if nqn = subsys.subnqn && state ≠ anaState config then
      some (.alter (.listener nqn address (anaState config)))
    else none
  | _ => none

/-- Not by key: listeners of subsystems with ANA are brought to the state of this node. -/
def anaStateConfig (items : List Item) : Plan Item Ident :=
  let subsystems := config.subsystems.filter (subsysAna config)
  if subsystems.any fun subsys => !has items (.subsystem subsys.subnqn) then
    { enter := [.fail], leave := [] }
  else
    let updates := subsystems.flatMap fun subsys => items.filterMap (anaUpdate config subsys)
    if anaState config = .inaccessible then { enter := updates, leave := [] }
    else { enter := [], leave := updates }

def zvolKey (filename : Text) : Text :=
  "ZVOL:".toList ++ replace '+' ' ' (filename.drop 5)

def liveKey (name : Text) : Product → Listing Text
  | .uring filename =>
    if "/dev/zvol/".toList <+: filename then .listed (zvolKey filename) else .hidden
  | .aio filename _ =>
    if "/mnt".toList <+: filename then .listed ("FILE:".toList ++ filename)
    else if "/dev/zvol/".toList <+: filename then .listed (zvolKey filename)
    else .hidden
  | .null _ _ => .listed name
  | .other => .hidden

def bdevName (entry : Namespace) : Option Text :=
  if config.status = .backup then none
  else if entry.locked then none
  else
    match entry.deviceType with
    | .zvol => some ("ZVOL:".toList ++ replace '+' ' ' entry.devicePath)
    | .file => some ("FILE:".toList ++ entry.devicePath)

def devicePathToPath (entry : Namespace) : Text :=
  match entry.deviceType with
  | .zvol => "/dev/".toList ++ replace ' ' '+' entry.devicePath
  | .file => entry.devicePath

/-- The product of a device. Record sizes are not looked up: every file has blocks of 512 bytes. -/
def productOf (entry : Namespace) : Product :=
  if config.status = .backup then .null 1 4096
  else
    match entry.deviceType with
    | .zvol => .aio (devicePathToPath entry) none
    | .file => .aio (devicePathToPath entry) (some 512)

def bdevConfig : Kind Namespace Item Ident Text where
  owns item := item matches .bdev _ _
  listing
    | .bdev name product => liveKey name product
    | _ => .hidden
  key entry :=
    if subsysVisible config entry.subsys && config.status ≠ .backup then
      some (colon entry.deviceType.name entry.devicePath)
    else none
  add entry :=
    (bdevName config entry).toList.map fun name =>
      .add (.bdev name (productOf config entry))
  update _ _ := []
  delete item := [.remove item.ident]
  keeps := discards

def attachedOf (entry : Namespace) (name : Text) : Attached where
  bdevName := name
  uuid := entry.deviceUuid
  nguid := entry.deviceNguid.filter (· ≠ '-')
  anagrpid := anaGrpid config

def nsOf (entry : Namespace) : Option Item :=
  (bdevName config entry).map fun name =>
    .ns entry.subsys.subnqn entry.nsid (attachedOf config entry name)

def nsKey (name nqn : Text) (nsid : ℕ) : Text := colon name (colon nqn (str nsid))

def namespaceConfig : Kind Namespace Item Ident Text where
  owns item := item matches .ns _ _ _
  listing
    | .ns nqn nsid attached => .listed (nsKey attached.bdevName nqn nsid)
    | _ => .hidden
  key entry :=
    if subsysVisible config entry.subsys then
      some (nsKey ((bdevName config entry).getD "None".toList) entry.subsys.subnqn
        entry.nsid)
    else none
  add entry := (nsOf config entry).toList.map .add
  update _ _ := []
  delete item := [.remove item.ident]
  keeps := discards

end Classes

/-! ### Runs -/

structure Order where
  arrange : List Text → List Text
  perm : ∀ keys, (arrange keys).Perm keys

def transports (config : Config) : List Trtype := (config.ports.map Port.trtype).dedup

def referralPlan (config : Config) (order : Order) (items : List Item) : Plan Item Ident :=
  if referralRaises config then { enter := [.fail], leave := [] }
  else (portAnaReferralConfig.layer (referralDict config)).plan order.arrange items

def plans (digest : Text → Text) (order : Order) (config : Config) :
    List (List Item → Plan Item Ident) :=
  [((subsysConfig config).layer config.subsystems).plan order.arrange,
    (transportConfig.layer (transports config)).plan order.arrange,
    ((keyringConfig digest .dhchapKey).layer config.hosts).plan order.arrange,
    ((keyringConfig digest .dhchapCtrlKey).layer config.hosts).plan order.arrange,
    ((portConfig config).layer (portDict config)).plan order.arrange,
    referralPlan config order,
    ((hostSubsysConfig digest).layer config.hostSubsys).plan order.arrange,
    ((portSubsysConfig config).layer (portSubsysDict config)).plan order.arrange,
    anaStateConfig config,
    ((bdevConfig config).layer config.namespaces).plan order.arrange,
    ((namespaceConfig config).layer config.namespaces).plan order.arrange]

def writeConfig (digest : Text → Text) (order : Order) (config : Config)
    (state : State Item Ident) : Except (State Item Ident) (State Item Ident) :=
  render spdk (plans digest order config) state

structure Run where
  order : Order
  config : Config

/-- A run on what the target holds. One that raises leaves what it did. -/
def step (digest : Text → Text) (items : List Item) (run : Run) : Option (List Item) :=
  match writeConfig digest run.order run.config ⟨items, []⟩ with
  | .ok after | .error after => some after.items

end TruenasMiddleware.Nvmet
