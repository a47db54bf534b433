import TruenasMiddleware.Nvmet.Classes
import Mathlib.Data.List.Dedup

/-! A run of `write_config` leaves what the configuration prescribes, and a second run issues no
call.

ANA, ids of namespaces that are in use for other devices, and addresses that the lookup of a live
listener trips over are what runs fail on; `Applicable` rules them out. -/

namespace TruenasMiddleware.Nvmet

open Reconcile hiding exec
open Transition List Option

variable {digest : Text → Text} {config : Config} {items : List Item}

/-! ### Keys that are discarded -/

variable {key : Text} {table : Table Item Ident Text}

theorem discards_of_colon (colon : ':' ∈ key) : discards key = false := by
  refine decide_eq_false fun eq => ?_
  rw [eq] at colon
  exact absurd colon (by decide)

theorem discards_str (n : ℕ) : discards (str n) = false := by
  refine decide_eq_false fun eq => ?_
  have mem : 'n' ∈ str n := by
    rw [eq]
    decide
  have digit := Nat.isDigit_of_mem_toDigits (by decide) (by decide) mem
  exact absurd digit (by decide)

theorem mem_colon (left right : Text) : ':' ∈ colon left right :=
  mem_append_right _ mem_cons_self

theorem discards_liveAddressToKey {address : Address}
    (found : liveAddressToKey config address = some key) : discards key = false := by
  obtain ⟨index, _, rfl⟩ := map_eq_some_iff.mp found
  cases index with
  | some index => exact discards_str index
  | none =>
    cases address.trtype <;> exact discards_of_colon (mem_colon _ _)

theorem not_spared {item : Item}
    (discarded : ∀ key, table.kind.listing item = .listed key → table.kind.keeps key = false)
    (leaves : table.Leaves items item) : table.Asks item := by
  obtain ⟨_, asks | ⟨_, ⟨key, ofKey, outside⟩, kept⟩⟩ := leaves
  · exact asks
  · exact absurd ⟨key, ofKey, outside, discarded key ofKey⟩ kept

/-! ### The tables as a whole -/

theorem owns_eq (item : Item) :
    ((tables digest config items).map fun table => table.kind.owns item) =
      (range 10).map fun n => decide (item.level = n) := by
  cases item with
  | key type name => cases type <;> rfl
  | listener nqn address state =>
    change [false, false, false, false, decide (nqn = NVMET_DISCOVERY_NQN), false, false,
      decide (nqn ≠ NVMET_DISCOVERY_NQN), false, false] =
        (range 10).map fun n => decide ((if nqn = NVMET_DISCOVERY_NQN then 4 else 7) = n)
    by_cases own : nqn = NVMET_DISCOVERY_NQN
    · simp only [own, if_true]
      rfl
    · simp only [own, if_false, ne_eq, not_false_eq_true]
      rfl
  | _ => rfl

theorem owns_iff (n : ℕ) (inside : n < (tables digest config items).length) (item : Item) :
    (tables digest config items)[n].kind.owns item = true ↔ item.level = n := by
  have owned : ((tables digest config items).map fun table => table.kind.owns item)[n]? =
      ((range 10).map fun n => decide (item.level = n))[n]? := by rw [owns_eq]
  have bound : n < 10 := inside
  rw [List.getElem?_map, List.getElem?_map, List.getElem?_eq_getElem inside,
    List.getElem?_range bound, map_some, map_some, Option.some.injEq] at owned
  rw [owned, decide_eq_true_eq]

theorem level_lt (item : Item) : item.level < 10 := by
  rw [Item.level, Ident.level.eq_def]
  split <;> (try split) <;> decide

theorem mem_tables : table ∈ tables digest config items ↔
      table = subsysTable config ∨ table = transportTable config ∨
      table = keyringTable digest config .dhchapKey ∨
      table = keyringTable digest config .dhchapCtrlKey ∨ table = portTable config ∨
      table = referralTable config ∨ table = hostTable digest config ∨
      table = portSubsysTable config ∨ table = bdevTable config items ∨
      table = namespaceTable config := by
  simp only [tables, mem_cons, not_mem_nil, or_false]

def Kept (items : List Item) (item : Item) : Prop :=
  item ∈ items ∧ item.ident = .subsystem NVMET_DISCOVERY_NQN

def Target (digest : Text → Text) (config : Config) (items : List Item) (item : Item) : Prop :=
  (∃ table ∈ tables digest config items, table.Asks item) ∨ Kept items item

section Needs

variable {subsys : Subsys} {name nqn : Text} {ident : Ident}

theorem asks_subsystem (mem : subsys ∈ config.subsystems)
    (visible : subsysVisible config subsys = true) :
    (subsysTable config).Asks (.subsystem (subsystemOf config subsys)) := by
  refine ⟨subsys, mem, ?_, rfl⟩
  rw [show (subsysTable config).kind.key subsys = some subsys.subnqn from if_pos visible]
  rfl

theorem target_subsystem (mem : subsys ∈ config.subsystems)
    (visible : subsysVisible config subsys = true) :
    Target digest config items (.subsystem (subsystemOf config subsys)) :=
  .inl ⟨subsysTable config, mem_tables.mpr (.inl rfl), asks_subsystem mem visible⟩

theorem target_transport {port : Port} (mem : port ∈ config.ports) :
    Target digest config items (.transport port.trtype) := by
  have used : port.trtype ∈ transports config :=
    mem_dedup.mpr (mem_map.mpr ⟨port, mem, rfl⟩)
  exact .inl ⟨transportTable config, mem_tables.mpr (.inr (.inl rfl)), port.trtype, used, rfl, rfl⟩

theorem target_key {host : Host} (mem : host ∈ config.hosts) (type : KeyType)
    (named : hostConfigKey digest host type = some name) :
    Target digest config items (.key type name) := by
  refine .inl ⟨keyringTable digest config type, ?_, host, mem, ?_, ?_⟩
  · cases type
    · exact mem_tables.mpr (.inr (.inr (.inl rfl)))
    · exact mem_tables.mpr (.inr (.inr (.inr (.inl rfl))))
  · exact isSome_iff_exists.mpr ⟨name, named⟩
  · exact congrArg (Option.map (Item.key type)) named

theorem target_device {entry : Namespace} (mem : entry ∈ config.namespaces)
    (visible : subsysVisible config entry.subsys = true)
    (named : bdevName config entry = some name) :
    Target digest config items (.bdev name (productOf config entry)) := by
  refine .inl ⟨bdevTable config items, by simp [mem_tables], entry, mem, ?_, ?_⟩
  · have active : config.status ≠ .backup := by
      intro backup
      rw [bdevName, if_pos backup] at named
      cases named
    rw [show (bdevTable config items).kind.key entry = some _ from
      if_pos (Bool.and_eq_true_iff.mpr ⟨visible, decide_eq_true active⟩)]
    rfl
  · exact askDevice_of_some (deviceOf_of_some named)

variable (applicable : Applicable digest items config)

include applicable

variable {table : Table Item Ident Text} {item : Item}

theorem Applicable.needs_met (inv : Inv items) (mem : table ∈ tables digest config items)
    {new : Item} (asks : table.Asks new) (needed : ident ∈ needs new) :
    ∃ item, Target digest config items item ∧ item.ident = ident := by
  have owned := (applicable.told table mem).owns_of_asks asks
  obtain ⟨object, inside, hasKey, asked⟩ := asks
  rcases mem_tables.mp mem with
    rfl | rfl | rfl | rfl | rfl | rfl | rfl | rfl | rfl | rfl
  case inr.inr.inr.inr.inl =>
    rw [show (portTable config).ask object = _ from
      listenerAt_of_lt (applicable.below_of_mem_portDict inside) _] at asked
    cases asked
    have inPorts := (applicable.mem_portDict.mp inside).1
    rcases mem_pair.mp needed with rfl | rfl
    · obtain ⟨own, present, eq⟩ := has_iff.mp inv.discovery
      exact ⟨own, .inr ⟨present, eq⟩, eq⟩
    · exact ⟨_, target_transport inPorts, rfl⟩
  case inr.inr.inr.inr.inr.inr.inl =>
    cases asked
    obtain ⟨inHosts, inSubsystems, visible⟩ := applicable.hostSubsys object inside
    simp only [hostOf, needs, mem_cons, mem_append, List.mem_map, mem_toList] at needed
    rcases needed with rfl | ⟨name, named, rfl⟩ | ⟨name, named, rfl⟩
    · exact ⟨_, target_subsystem inSubsystems visible, rfl⟩
    · exact ⟨_, target_key inHosts .dhchapKey named, rfl⟩
    · exact ⟨_, target_key inHosts .dhchapCtrlKey named, rfl⟩
  case inr.inr.inr.inr.inr.inr.inr.inl =>
    rw [show (portSubsysTable config).ask object = _ from
      listenerAt_of_lt (applicable.below_of_mem_portSubsysDict inside) _] at asked
    cases asked
    obtain ⟨inTable, active⟩ := applicable.mem_portSubsysDict.mp inside
    obtain ⟨inPorts, inSubsystems, known⟩ := applicable.portSubsys object inTable
    rcases mem_pair.mp needed with rfl | rfl
    · exact ⟨_, target_subsystem inSubsystems (visible_of_active active known), rfl⟩
    · exact ⟨_, target_transport inPorts, rfl⟩
  case inr.inr.inr.inr.inr.inr.inr.inr.inr =>
    obtain ⟨key, ofKey⟩ := isSome_iff_exists.mp hasKey
    have visible := visible_of_namespaceKey ofKey
    obtain ⟨name, named, rfl⟩ := map_eq_some_iff.mp asked
    rcases mem_pair.mp needed with rfl | rfl
    · exact ⟨_, target_subsystem (applicable.namespaces object inside).1 visible, rfl⟩
    · exact ⟨_, target_device inside visible named, rfl⟩
  -- the items of the other tables need nothing
  all_goals cases new <;> first | (cases needed; done) | cases owned

omit applicable in
theorem keeps_of_needs (mem : table ∈ tables digest config items)
    (owned : table.kind.owns item = true) (needy : needs item ≠ [])
    (listed : table.kind.listing item = .listed key) : table.kind.keeps key = false := by
  rcases mem_tables.mp mem with
    rfl | rfl | rfl | rfl | rfl | rfl | rfl | rfl | rfl | rfl
  all_goals cases item <;> first | exact absurd rfl needy | (cases owned; done) | skip
  case inr.inr.inr.inr.inl.listener nqn address state =>
    cases found : liveAddressToKey config address with
    | none => simp [portTable, portConfig, found] at listed
    | some text =>
      obtain rfl : text = key := by simpa [portTable, portConfig, found] using listed
      exact discards_liveAddressToKey found
  case inr.inr.inr.inr.inr.inr.inl.host nqn hostnqn _ _ =>
    change (if nqn = NVMET_DISCOVERY_NQN then Listing.hidden else .listed (colon hostnqn nqn)) = _
      at listed
    split at listed
    · cases listed
    · obtain rfl := Listing.listed.inj listed
      exact discards_of_colon (mem_colon _ _)
  case inr.inr.inr.inr.inr.inr.inr.inl.listener nqn address state =>
    cases found : liveAddressToKey config address with
    | none => simp [portSubsysTable, portSubsysConfig, found] at listed
    | some text =>
      obtain rfl : colon text nqn = key := by
        simpa [portSubsysTable, portSubsysConfig, found] using listed
      exact discards_of_colon (mem_colon _ _)
  case inr.inr.inr.inr.inr.inr.inr.inr.inr.ns nqn nsid attached =>
    obtain rfl := Listing.listed.inj listed
    exact discards_of_colon (mem_colon _ _)

omit applicable in
theorem mem_needs_of_under (below : under ident item = true) : ident ∈ needs item := by
  unfold under at below
  split at below
  all_goals first
    | cases below
    | obtain rfl := of_decide_eq_true below
      simp [needs]

omit applicable in
theorem eq_subsystem_of_ident (eq : item.ident = .subsystem nqn) :
    ∃ live, item = .subsystem live ∧ live.nqn = nqn := by
  cases item with
  | subsystem live => exact ⟨live, rfl, Ident.subsystem.inj eq⟩
  | _ => cases eq

omit applicable in
theorem not_stale_of_discovery (mem : table ∈ tables digest config items)
    (owned : table.kind.owns item = true) (eq : item.ident = .subsystem NVMET_DISCOVERY_NQN) :
    ¬ Stale table.layer item := by
  rintro ⟨key, listed, _, dropped⟩
  obtain ⟨n, inside, rfl⟩ := mem_iff_getElem.mp mem
  obtain ⟨live, rfl, named⟩ := eq_subsystem_of_ident eq
  obtain rfl : 0 = n := (owns_iff n inside _).mp owned
  obtain rfl : live.nqn = key := Listing.listed.inj listed
  exact of_decide_eq_false dropped named

theorem Applicable.leads (inv : Inv items) (table : Table Item Ident Text)
    (mem : table ∈ tables digest config items) : table.Leads spdk items := by
  have told := applicable.told table mem
  rcases mem_tables.mp mem with
    rfl | rfl | rfl | rfl | rfl | rfl | rfl | rfl | rfl | rfl
  · exact applicable.leads_subsys
  · exact applicable.leads_transport
  · exact leads_keyring told
  · exact leads_keyring told
  · exact applicable.leads_port
  · exact applicable.leads_referral
  · exact applicable.leads_host
  · exact applicable.leads_portSubsys
  · exact applicable.leads_bdev
  · exact applicable.leads_namespace inv

theorem Applicable.spared (item : Item) (kept : Kept items item) :
    item ∈ items ∧ ∀ table ∈ tables digest config items,
      table.kind.owns item = true → Unasked table.layer item := by
  obtain ⟨present, eq⟩ := kept
  refine ⟨present, fun table mem owned => ?_⟩
  obtain ⟨n, inside, rfl⟩ := mem_iff_getElem.mp mem
  obtain ⟨live, rfl, named⟩ := eq_subsystem_of_ident eq
  obtain rfl : 0 = n := (owns_iff n inside _).mp owned
  refine ⟨NVMET_DISCOVERY_NQN, congrArg Listing.listed named, fun inKeys => ?_⟩
  rw [Table.layer, keys_entries] at inKeys
  obtain ⟨subsys, present, ofKey⟩ := mem_filterMap.mp inKeys
  exact (applicable.subsystems subsys present).1 (Applicable.subnqn_of_subsysKey ofKey)

theorem Applicable.bare (inv : Inv items) (table : Table Item Ident Text)
    (mem : table ∈ tables digest config items) (item : Item) (present : item ∈ items)
    (owned : table.kind.owns item = true) (stale : Stale table.layer item) (other : Item)
    (left : ∃ table ∈ tables digest config items, table.Leaves items other) :
    spdk.under (spdk.ident item) other = false := by
  by_contra below
  have needed := mem_needs_of_under (Bool.not_eq_false _ ▸ below)
  obtain ⟨table', mem', leaves⟩ := left
  have asks := not_spared (fun key listed =>
    keeps_of_needs mem' leaves.1 (ne_nil_of_mem needed) listed) leaves
  obtain ⟨target, ⟨asking, inTables, asks'⟩ | kept, eq⟩ :=
    applicable.needs_met inv mem' asks needed
  · have told := applicable.told table mem
    have owned' := (applicable.told asking inTables).owns_of_asks asks'
    obtain ⟨n, inside, rfl⟩ := mem_iff_getElem.mp mem
    obtain ⟨m, inside', rfl⟩ := mem_iff_getElem.mp inTables
    have levels : target.level = item.level := congrArg Ident.level eq
    obtain rfl : n = m := by
      rw [← (owns_iff n inside item).mp owned, ← (owns_iff m inside' target).mp owned', levels]
    exact told.ident_ne_of_stale present owned stale asks' eq.symm
  · exact not_stale_of_discovery mem owned (eq.symm.trans kept.2) stale

theorem Applicable.sound (inv : Inv items) :
    Tables spdk Item.level (Kept items) (tables digest config items) items where
  owns := owns_iff
  top := level_lt
  told := applicable.told
  leads := applicable.leads inv
  spared := applicable.spared
  ready table mem new asks present there := by
    simp only [spdk, List.all_eq_true, has_iff]
    intro ident needed
    obtain ⟨item, target, rfl⟩ := applicable.needs_met inv mem asks needed
    exact ⟨item, there item target (level_of_mem_needs needed), rfl⟩
  bare := applicable.bare inv

end Needs

/-! ### What a run leaves -/

def Item.exposed : Item → Bool
  | .subsystem _ | .listener _ _ _ | .host _ _ _ _ | .ns _ _ _ => true
  | .transport _ | .key _ _ | .referral _ | .bdev _ _ => false

namespace Applicable

variable (applicable : Applicable digest items config)

include applicable

variable {item : Item}

theorem prescribed_of_asks (mem : table ∈ tables digest config items) (asks : table.Asks item)
    (exposed : item.exposed = true) : item ∈ prescribed digest config := by
  have owned := (applicable.told table mem).owns_of_asks asks
  obtain ⟨object, inside, hasKey, asked⟩ := asks
  obtain ⟨key, ofKey⟩ := isSome_iff_exists.mp hasKey
  rcases mem_tables.mp mem with
    rfl | rfl | rfl | rfl | rfl | rfl | rfl | rfl | rfl | rfl
  case inl =>
    exact mem_prescribed.mpr
      (.inl ⟨object, inside, visible_of_subsysKey ofKey, Option.some.inj asked⟩)
  case inr.inr.inr.inr.inl => exact applicable.prescribes_port inside asked
  case inr.inr.inr.inr.inr.inr.inl =>
    exact mem_prescribed.mpr (.inr (.inr (.inr (.inr (.inl ⟨object, inside,
      (applicable.hostSubsys object inside).2.2, Option.some.inj asked⟩)))))
  case inr.inr.inr.inr.inr.inr.inr.inl => exact applicable.prescribes_portSubsys inside asked
  case inr.inr.inr.inr.inr.inr.inr.inr.inr =>
    exact applicable.prescribes_namespace inside (visible_of_namespaceKey ofKey) (.inr asked)
  all_goals cases item <;> first | (cases exposed; done) | cases owned

theorem asks_of_prescribed (prescribes : item ∈ prescribed digest config)
    (exposed : item.exposed = true) : ∃ table ∈ tables digest config items, table.Asks item := by
  rcases mem_prescribed.mp prescribes with ⟨subsys, mem, visible, rfl⟩ |
    ⟨port, mem, ⟨_, used⟩, asked⟩ | ⟨port, _, ⟨_, used⟩, _⟩ | ⟨entry, mem, _, asked⟩ |
    ⟨entry, mem, _, rfl⟩ | ⟨entry, mem, ⟨visible, _⟩, asked | asked⟩
  · exact ⟨subsysTable config, by simp [tables], asks_subsystem mem visible⟩
  · exact ⟨portTable config, by simp [tables], port, applicable.mem_portDict.mpr ⟨mem, used⟩,
      rfl, asked⟩
  · rw [applicable.anaPortIds] at used
    cases used
  · rw [applicable.portSubsysIndex_eq mem] at asked
    split at asked
    · cases asked
    · next active =>
      exact ⟨portSubsysTable config, by simp [tables], entry,
        applicable.mem_portSubsysDict.mpr ⟨mem, active⟩, rfl, asked⟩
  · exact ⟨hostTable digest config, by simp [tables], entry, mem, rfl, rfl⟩
  · obtain ⟨name, _, rfl⟩ := map_eq_some_iff.mp asked
    cases exposed
  · refine ⟨namespaceTable config, by simp [tables], entry, mem, ?_, asked⟩
    rw [show (namespaceTable config).kind.key entry = some _ from if_pos visible]
    rfl

theorem leaves_iff (exposed : item.exposed = true) :
    (∃ table ∈ tables digest config items, table.Leaves items item) ↔
      item ∈ prescribed digest config ∨ Kept items item := by
  constructor
  · rintro ⟨table, mem, owned, asks | ⟨present, ⟨key, listed, outside⟩, kept⟩⟩
    · exact .inl (applicable.prescribed_of_asks mem asks exposed)
    · have keeps : table.kind.keeps key = true := by
        by_contra dropped
        exact kept ⟨key, listed, outside, (Bool.not_eq_true _).mp dropped⟩
      have satisfied : needs item = [] := by
        by_contra needy
        exact absurd (keeps.symm.trans (keeps_of_needs mem owned needy listed)) (by decide)
      cases item with
      | subsystem live =>
        obtain ⟨n, inside, rfl⟩ := mem_iff_getElem.mp mem
        obtain rfl : 0 = n := (owns_iff n inside _).mp owned
        obtain rfl : live.nqn = key := Listing.listed.inj listed
        exact .inr ⟨present, congrArg Ident.subsystem (of_decide_eq_true keeps)⟩
      | listener | host | ns => cases satisfied
      | transport | key | referral | bdev => cases exposed
  · rintro (prescribes | kept)
    · obtain ⟨table, mem, asks⟩ := applicable.asks_of_prescribed prescribes exposed
      exact ⟨table, mem, (applicable.told table mem).owns_of_asks asks, .inl asks⟩
    · have mem : subsysTable config ∈ tables digest config items := mem_tables.mpr (.inl rfl)
      obtain ⟨present, unasked⟩ := applicable.spared _ kept
      obtain ⟨live, rfl, _⟩ := eq_subsystem_of_ident kept.2
      exact ⟨_, mem, rfl, .inr ⟨present, unasked _ mem rfl, not_stale_of_discovery mem rfl kept.2⟩⟩

theorem writeConfig_eq (order : Order) (state : State Item Ident) :
    writeConfig digest order config state =
      render spdk ((tables digest config items).map fun table => table.layer.plan order.arrange)
        state := by
  let plan (table : Table Item Ident Text) := table.layer.plan order.arrange
  have skip : render spdk _ state = _ := render_skip applicable.anaStateConfig_eq
    [plan (subsysTable config), plan (transportTable config),
      plan (keyringTable digest config .dhchapKey),
      plan (keyringTable digest config .dhchapCtrlKey), plan (portTable config),
      plan (referralTable config), plan (hostTable digest config), plan (portSubsysTable config)]
    [plan (bdevTable config items), plan (namespaceTable config)] state
  rw [writeConfig, plans, applicable.referralPlan_eq]
  exact skip

end Applicable

/-- A run gets through and leaves what the configuration prescribes, beside the discovery
subsystem, which stays as it is. Running again at once issues no call. -/
def Converges (digest : Text → Text) (order again : Order) (config : Config) (items : List Item) :
    Prop :=
  ∃ after, writeConfig digest order config ⟨items, []⟩ = .ok after ∧
    (∀ item : Item, item.exposed = true →
      (item ∈ after.items ↔ item ∈ prescribed digest config ∨ Kept items item)) ∧
    writeConfig digest again config ⟨after.items, []⟩ = .ok ⟨after.items, []⟩

/-- Whatever earlier runs left, a configuration that is applicable to it is brought about. -/
theorem write_config_converges (reached : Reach (step digest) Always fresh items)
    (applicable : Applicable digest items config) (order again : Order) :
    Converges digest order again config items := by
  have inv := Inv.of_reach reached
  obtain ⟨after, ran, _, left, settled⟩ :=
    (applicable.sound inv).render leveled inv.unique order.perm []
  refine ⟨after, ?_, fun item exposed => ?_, ?_⟩
  · rw [applicable.writeConfig_eq]
    exact ran
  · rw [left item, applicable.leaves_iff exposed]
  · rw [applicable.writeConfig_eq]
    exact render_settled (forall_mem_map.mpr (settled again.arrange again.perm))

/-! ### Configurations on which runs do and do not converge -/

section Sites

def asGiven : Order := ⟨id, fun _ => .refl _⟩

def tank : Subsys where
  subnqn := "nqn:tank".toList
  serial := "7".toList
  allowAnyHost := false
  ana := none

def front : Port where
  id := 1
  index := 1
  trtype := .tcp
  adrfam := .ipv4
  traddr := "10.0.0.9".toList
  trsvcid := "4420".toList
  enabled := true

def client : Host where
  hostnqn := "nqn:client".toList
  dhchapKey := some "secret".toList
  dhchapCtrlKey := none

def volume (nsid : ℕ) (devicePath : Text) (nsid_pos : 0 < nsid) : Namespace where
  nsid := nsid
  subsys := tank
  deviceType := .zvol
  devicePath := devicePath
  deviceUuid := "u".toList
  deviceNguid := "n-g".toList
  locked := false
  enabled := true
  nsid_pos := nsid_pos

def site : Config where
  licensed := false
  node := .manual
  status := .single
  anaEnabled := false
  model := "M".toList
  choices _ := some []
  ports := [front]
  nonAnaPortIds := [1]
  anaPortIds := []
  subsystems := [tank]
  hosts := [client]
  portSubsys := [⟨front, tank⟩]
  hostSubsys := [⟨client, tank⟩]
  namespaces := [volume 1 "zvol/tank/a".toList (by decide)]

/-- The flag of the subsystem and the key of the host change, the volume gives way to another. -/
def changed : Config :=
  let subsys := { tank with allowAnyHost := true }
  let host := { client with dhchapKey := some "other".toList }
  { site with
    subsystems := [subsys]
    hosts := [host]
    portSubsys := [⟨front, subsys⟩]
    hostSubsys := [⟨host, subsys⟩]
    namespaces := [{ volume 2 "zvol/tank/b".toList (by decide) with subsys := subsys }] }

theorem write_config_converges_changed : ∃ items,
    Reach (step id) Always fresh items ∧ Converges id asGiven asGiven changed items := by
  exact exists_reach_of_run (P := fun items => Applicable id items changed) [⟨asGiven, site⟩]
    (by decide +kernel) fun items reached applicable =>
      write_config_converges reached applicable asGiven asGiven

def replaced : Config :=
  { site with namespaces := [volume 1 "zvol/tank/b".toList (by decide)] }

def doubled : Config :=
  let back := { front with id := 2, index := 2, traddr := "10.0.0.8".toList }
  { site with
    ports := [front, back]
    nonAnaPortIds := [1, 2]
    portSubsys := [⟨front, tank⟩, ⟨back, tank⟩] }

def paired : Config :=
  { site with
    licensed := true
    node := .a
    status := .master
    anaEnabled := true
    choices _ := some [("10.0.0.9".toList, "10.0.0.1".toList, "10.0.0.2".toList)]
    nonAnaPortIds := []
    anaPortIds := [1] }

def fails (config : Config) (items : List Item) : Bool :=
  match writeConfig id asGiven config ⟨items, []⟩ with
  | .error _ => true
  | .ok after =>
    match writeConfig id asGiven config ⟨after.items, []⟩ with
    | .error _ => true
    | .ok again => !again.calls.isEmpty

theorem not_converges_of_fails (failing : fails config items = true) :
    ¬ Converges id asGiven asGiven config items := by
  rintro ⟨after, ran, _, again⟩
  simp only [fails, ran, again, isEmpty_nil, Bool.not_true, Bool.false_eq_true] at failing

/-- A namespace whose id is in use is not added, the lookup of a live listener trips over another
port, and listeners with ANA are added anew each time. -/
theorem write_config_stuck : (∃ items, Reach (step id) Always fresh items ∧
      ¬ Converges id asGiven asGiven replaced items) ∧
    (∃ items, Reach (step id) Always fresh items ∧ ¬ Converges id asGiven asGiven doubled items) ∧
    ¬ Converges id asGiven asGiven paired fresh := by
  refine ⟨?_, ?_, not_converges_of_fails (by decide +kernel)⟩
  · exact exists_reach_of_run [⟨asGiven, site⟩] (by decide +kernel)
      fun items reached (failing : fails replaced items = true) => not_converges_of_fails failing
  · exact exists_reach_of_run [⟨asGiven, doubled⟩] (by decide +kernel)
      fun items reached (failing : fails doubled items = true) => not_converges_of_fails failing

end Sites

end TruenasMiddleware.Nvmet
