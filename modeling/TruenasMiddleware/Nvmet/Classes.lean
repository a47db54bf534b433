import TruenasMiddleware.Nvmet.Tables

/-! The calls of each class lead from what is live to what its entries ask for, and there are none
when that is there. -/

namespace TruenasMiddleware.Nvmet

open Reconcile List

variable {digest : Text → Text} {config : Config} {items : List Item}

/-! ### Ports without ANA -/

theorem addrTraddrToAddress_of_lt {index : ℕ} (below : index < ANA_PORT_INDEX_OFFSET)
    (trtype : Trtype) (traddr : Text) :
    addrTraddrToAddress config index trtype traddr = some traddr :=
  if_neg (Nat.lt_asymm below)

theorem listenerAt_of_lt {port : Port} {index : ℕ} (below : index < ANA_PORT_INDEX_OFFSET)
    (nqn : Text) : listenerAt config port index nqn =
      some (.listener nqn (port.address port.traddr) .optimized) := by
  have above : decide (index > ANA_PORT_INDEX_OFFSET) = false :=
    decide_eq_false (Nat.lt_asymm below)
  rw [listenerAt, addrTraddrToAddress_of_lt below, Option.map_some, above, Bool.and_false]
  rfl

theorem addToNqn_of_lt {port : Port} (below : port.index < ANA_PORT_INDEX_OFFSET) (nqn : Text) :
    addToNqn config port nqn = [.add (.listener nqn (port.address port.traddr) .optimized)] := by
  have above : decide (port.index > ANA_PORT_INDEX_OFFSET) = false :=
    decide_eq_false (Nat.lt_asymm below)
  simp only [addToNqn, addrTraddrToAddress_of_lt below, above, Bool.and_false]
  rfl

theorem addressMatch_self (port : Port) : addressMatch port (port.address port.traddr) = true :=
  decide_eq_true ⟨rfl, rfl, rfl⟩

theorem portConfig_update_self (port : Port) (nqn : Text) (state : AnaState) :
    (portConfig config).update port (.listener nqn (port.address port.traddr) state) = [] :=
  if_pos (addressMatch_self port)

theorem portSubsysConfig_update_self (entry : PortSubsys) (nqn : Text) (state : AnaState) :
    (portSubsysConfig config).update entry
      (.listener nqn (entry.port.address entry.port.traddr) state) = [] :=
  if_pos (addressMatch_self entry.port)

theorem portSubsysIndex_of_plain {entry : PortSubsys}
    (plain : entry.subsys.ana.getD config.anaEnabled = false)
    (below : entry.port.index < ANA_PORT_INDEX_OFFSET) :
    portSubsysIndex config entry =
      if config.status = .backup then none else some entry.port.index := by
  rw [portSubsysIndex]
  cases own : entry.subsys.ana with
  | none =>
    rw [own, Option.getD_none] at plain
    simp only [plain, below, Bool.false_eq_true, if_false, decide_true, Bool.true_and,
      decide_eq_true_eq]
  | some ana =>
    rw [own, Option.getD_some] at plain
    simp only [plain, below, decide_true, Bool.true_and, decide_eq_true_eq]

namespace Applicable

variable (applicable : Applicable digest items config)
include applicable

theorem mem_portDict {port : Port} :
    port ∈ portDict config ↔ port ∈ config.ports ∧ port.id ∈ config.nonAnaPortIds := by
  simp only [portDict, applicable.anaPortIds, not_mem_nil, if_false, append_nil, mem_flatMap]
  constructor
  · rintro ⟨other, mem, inside⟩
    split at inside
    · next used =>
      obtain rfl := mem_singleton.mp inside
      exact ⟨mem, used⟩
    · cases inside
  · rintro ⟨mem, used⟩
    exact ⟨port, mem, by rw [if_pos used]; exact mem_singleton_self port⟩

theorem below_of_mem_portDict {port : Port}
    (mem : port ∈ portDict config) : port.index < ANA_PORT_INDEX_OFFSET :=
  (applicable.ports port (applicable.mem_portDict.mp mem).1).2.1

variable {entry : PortSubsys}

theorem portSubsysIndex_eq (mem : entry ∈ config.portSubsys) : portSubsysIndex config entry =
      if config.status = .backup then none else some entry.port.index := by
  obtain ⟨inPorts, inSubsystems, _⟩ := applicable.portSubsys entry mem
  exact portSubsysIndex_of_plain (applicable.subsystems _ inSubsystems).2
    (applicable.ports _ inPorts).2.1

theorem mem_portSubsysDict :
    entry ∈ portSubsysDict config ↔ entry ∈ config.portSubsys ∧ config.status ≠ .backup := by
  have own (other : PortSubsys) (mem : other ∈ config.portSubsys) :
      portSubsysEntry config other = if config.status = .backup then none else some other := by
    obtain ⟨positive, below, _⟩ := applicable.ports _ (applicable.portSubsys other mem).1
    rw [portSubsysEntry, applicable.portSubsysIndex_eq mem]
    by_cases backup : config.status = .backup
    · rw [if_pos backup, if_pos backup]
    · rw [if_neg backup, if_neg backup]
      obtain ⟨index, ofPort⟩ := Nat.exists_eq_succ_of_ne_zero (Nat.ne_of_gt positive)
      rw [ofPort] at below ⊢
      exact if_pos below
  rw [portSubsysDict, mem_filterMap]
  constructor
  · rintro ⟨other, mem, result⟩
    rw [own other mem] at result
    split at result
    · cases result
    · next active =>
      cases result
      exact ⟨mem, active⟩
  · rintro ⟨mem, active⟩
    exact ⟨entry, mem, (own entry mem).trans (if_neg active)⟩

theorem below_of_mem_portSubsysDict (mem : entry ∈ portSubsysDict config) :
    entry.port.index < ANA_PORT_INDEX_OFFSET := by
  have inTable := (applicable.mem_portSubsysDict.mp mem).1
  exact (applicable.ports _ (applicable.portSubsys entry inTable).1).2.1

theorem referralDict_eq :
    referralDict config = [] := by
  simp only [referralDict, applicable.anaPortIds, not_mem_nil, if_false, filterMap_none, ite_self]

theorem referralPlan_eq (order : Order) :
    referralPlan config order = (referralTable config).layer.plan order.arrange := by
  funext live
  have silent : referralRaises config = false := by
    simp [referralRaises, applicable.anaPortIds]
  rw [referralPlan, silent]
  rfl

theorem anaStateConfig_eq (live : List Item) :
    anaStateConfig config live = ⟨[], []⟩ := by
  have none : config.subsystems.filter (subsysAna config) = [] := by
    refine filter_eq_nil_iff.mpr fun subsys mem uses => ?_
    have plain := (applicable.subsystems subsys mem).2
    simp only [subsysAna, Bool.and_eq_true] at uses
    cases enabled : config.anaEnabled <;> cases own : subsys.ana <;> simp_all
  simp only [anaStateConfig, none, any_nil, flatMap_nil, Bool.false_eq_true, if_false, ite_self]

/-! ### What the entries ask for -/

theorem agrees_of_key {table : Table Item Ident Text} (mem : table ∈ tables digest config items)
    {object : table.Object} (inside : object ∈ table.objects) {key : Text}
    (ofKey : table.kind.key object = some key) {new : Item} (asked : table.ask object = some new)
    (inPrescribed : new ∈ prescribed digest config) {item : Item} (present : item ∈ items)
    (owned : table.kind.owns item = true) (listed : table.kind.listing item = .listed key) :
    item.ident = new.ident ∧ agrees item new = true := by
  have eq := ((applicable.told table mem).ident object inside key ofKey new asked item
    present owned).mp listed
  exact ⟨eq, applicable.agree item present new inPrescribed eq⟩

end Applicable

variable {item device : Item} {host : Host} {type : KeyType} {key name nqn : Text}

theorem mem_prescribed : item ∈ prescribed digest config ↔
    (∃ subsys ∈ config.subsystems, subsysVisible config subsys = true ∧
      .subsystem (subsystemOf config subsys) = item) ∨
    (∃ port ∈ config.ports, (port.enabled = true ∧ port.id ∈ config.nonAnaPortIds) ∧
      listenerAt config port port.index NVMET_DISCOVERY_NQN = some item) ∨
    (∃ port ∈ config.ports, (port.enabled = true ∧ port.id ∈ config.anaPortIds) ∧
      listenerAt config port (ANA_PORT_INDEX_OFFSET + port.index) NVMET_DISCOVERY_NQN = some item) ∨
    (∃ entry ∈ config.portSubsys, entry.port.enabled = true ∧
      ((portSubsysIndex config entry).bind fun index =>
        listenerAt config entry.port index entry.subsys.subnqn) = some item) ∨
    (∃ entry ∈ config.hostSubsys, subsysVisible config entry.subsys = true ∧
      hostOf digest entry = item) ∨
    ∃ entry ∈ config.namespaces, (subsysVisible config entry.subsys = true ∧ entry.enabled = true) ∧
        (deviceOf config entry = some item ∨ nsOf config entry = some item) := by
  simp only [prescribed, mem_append, mem_map, mem_filterMap, mem_flatMap,
    mem_filter, Bool.and_eq_true, decide_eq_true_eq, Option.mem_toList, and_assoc,
    or_assoc]

/-! ### The calls of the classes -/

theorem visible_of_active {subsys : Subsys} (active : config.status ≠ .backup)
    (known : config.status ≠ .other) : subsysVisible config subsys = true := by
  rw [subsysVisible]
  cases status : config.status with
  | single | master => rfl
  | backup => exact absurd status active
  | other => exact absurd status known

def Item.fixed : Item → Bool
  | .subsystem _ | .host _ _ _ _ => false
  | _ => true

theorem eq_of_agrees {new : Item} (agree : agrees item new = true) (fixed : new.fixed = true) :
    item = new := by
  cases new with
  | subsystem | host => cases fixed
  | _ => cases item <;> exact of_decide_eq_true agree

theorem eq_of_secretMatches {live : Option Text}
    (matching : secretMatches digest host type live = true) :
    live = hostConfigKey digest host type := by
  unfold secretMatches at matching
  split at matching
  · next absent => rw [hostConfigKey, absent]
  · exact of_decide_eq_true matching
  · cases matching

theorem secretMatches_self (proper : host.secret type ≠ some []) :
    secretMatches digest host type (hostConfigKey digest host type) = true := by
  cases secret : host.secret type with
  | none =>
    simp only [secretMatches, hostConfigKey, secret]
  | some text =>
    cases text with
    | nil => exact absurd secret proper
    | cons first rest =>
      simp only [secretMatches, hostConfigKey, secret, decide_true]

variable {entry : Namespace}

theorem visible_of_namespaceKey (ofKey : (namespaceConfig config).key entry = some key) :
    subsysVisible config entry.subsys = true := by
  by_contra invisible
  rw [show (namespaceConfig config).key entry = none from if_neg invisible] at ofKey
  cases ofKey

theorem visible_of_bdevKey (ofKey : (bdevConfig config).key entry = some key) :
    subsysVisible config entry.subsys = true := by
  by_contra invisible
  have skipped : (bdevConfig config).key entry = none :=
    if_neg fun both => invisible (Bool.and_eq_true_iff.mp both).1
  rw [skipped] at ofKey
  cases ofKey

theorem deviceOf_of_some (named : bdevName config entry = some name) :
    deviceOf config entry = some (.bdev name (productOf config entry)) := by
  rw [deviceOf, named, Option.map_some]

theorem askDevice_of_some (isDevice : deviceOf config entry = some device) :
    askDevice config items entry = some device := by
  rw [askDevice, isDevice]

theorem askDevice_of_none (unnamed : bdevName config entry = none)
    (ofKey : (bdevConfig config).key entry = some key) :
    askDevice config items entry = items.find? fun item => (bdevConfig config).owns item &&
      decide ((bdevConfig config).listing item = .listed key) := by
  have absent : deviceOf config entry = none := by rw [deviceOf, unnamed, Option.map_none]
  rw [askDevice, absent, ofKey, Option.elim_some]

theorem Inv.listing_ne_of_nsOf (inv : Inv items) (absent : nsOf config entry = none)
    {nsid : ℕ} {attached : Attached} (present : .ns nqn nsid attached ∈ items)
    (ofKey : (namespaceConfig config).key entry = some key) :
    (namespaceConfig config).listing (.ns nqn nsid attached) ≠ .listed key := by
  intro listed
  have visible := visible_of_namespaceKey ofKey
  have unnamed : bdevName config entry = none := Option.map_eq_none_iff.mp absent
  have ofEntry : key = nsKey "None".toList entry.subsys.subnqn entry.nsid := by
    rw [show (namespaceConfig config).key entry = _ from if_pos visible, unnamed] at ofKey
    exact (Option.some.inj ofKey).symm
  have eq : nsKey attached.bdevName nqn nsid = key := Listing.listed.inj listed
  refine inv.named (.ns nqn nsid attached) present ?_
  have heads := congrArg head? (eq.trans ofEntry)
  cases name : attached.bdevName with rw [name] at heads
  | nil =>
    exact absurd (Option.some.inj heads) (by decide)
  | cons first rest =>
    exact heads

namespace Applicable

variable {item : Item} {subsys : Subsys} {key : Text} (applicable : Applicable digest items config)
include applicable

theorem prescribes_port {port : Port} (mem : port ∈ portDict config)
    (asked : listenerAt config port port.index NVMET_DISCOVERY_NQN = some item) :
    item ∈ prescribed digest config := by
  obtain ⟨inPorts, used⟩ := applicable.mem_portDict.mp mem
  exact mem_prescribed.mpr
    (.inr (.inl ⟨port, inPorts, ⟨(applicable.ports port inPorts).2.2, used⟩, asked⟩))

theorem prescribes_portSubsys {entry : PortSubsys} (mem : entry ∈ portSubsysDict config)
    (asked : listenerAt config entry.port entry.port.index entry.subsys.subnqn = some item) :
    item ∈ prescribed digest config := by
  obtain ⟨inTable, active⟩ := applicable.mem_portSubsysDict.mp mem
  refine mem_prescribed.mpr (.inr (.inr (.inr (.inl ⟨entry, inTable, ?_, ?_⟩))))
  · exact (applicable.ports _ (applicable.portSubsys entry inTable).1).2.2
  · rw [applicable.portSubsysIndex_eq inTable, if_neg active, Option.bind_some]
    exact asked

theorem prescribes_namespace
    (mem : entry ∈ config.namespaces) (visible : subsysVisible config entry.subsys = true)
    (asked : deviceOf config entry = some item ∨ nsOf config entry = some item) :
    item ∈ prescribed digest config :=
  mem_prescribed.mpr (.inr (.inr (.inr (.inr (.inr
    ⟨entry, mem, ⟨visible, (applicable.namespaces entry mem).2⟩, asked⟩)))))

omit applicable in
theorem visible_of_subsysKey
    (ofKey : (subsysConfig config).key subsys = some key) : subsysVisible config subsys = true := by
  by_contra invisible
  rw [show (subsysConfig config).key subsys = none from if_neg invisible] at ofKey
  cases ofKey

omit applicable in
theorem subnqn_of_subsysKey
    (ofKey : (subsysConfig config).key subsys = some key) : subsys.subnqn = key :=
  Option.some.inj ((if_pos (visible_of_subsysKey ofKey)).symm.trans ofKey)

theorem leads_subsys :
    (subsysTable config).Leads spdk items where
  leads := {
    add := fun _ _ _ _ _ => rfl
    delete := fun _ _ => rfl
    update := by
      intro subsys inside key ofKey item present owned listed
      have prescribes : .subsystem (subsystemOf config subsys) ∈ prescribed digest config :=
        mem_prescribed.mpr (.inl ⟨subsys, inside, visible_of_subsysKey ofKey, rfl⟩)
      have mem : subsysTable config ∈ tables digest config items := by simp [tables]
      obtain ⟨eq, agree⟩ :=
        applicable.agrees_of_key mem inside ofKey rfl prescribes present owned listed
      refine ⟨_, rfl, ?_⟩
      cases item with
      | subsystem live =>
        have asked : { live with allowAnyHost := subsys.allowAnyHost } =
          subsystemOf config subsys := of_decide_eq_true agree
        by_cases flag : subsys.allowAnyHost = live.allowAnyHost
        · rw [flag] at asked
          rw [← asked, show (subsysTable config).kind.update subsys (.subsystem live) = [] from
            if_neg (not_not.mpr flag)]
          exact .keep
        · rw [← asked, show (subsysTable config).kind.update subsys (.subsystem live) =
            [.alter (.subsystem { live with allowAnyHost := subsys.allowAnyHost })] from
              if_pos flag]
          exact .alter rfl
      | _ => cases owned }
  steady subsys _ item asked := by
    cases asked
    exact if_neg (not_not.mpr rfl)

theorem leads_transport :
    (transportTable config).Leads spdk items where
  leads := {
    add := fun _ _ _ _ _ => rfl
    delete := fun _ _ => rfl
    update := by
      intro trtype mem key ofKey item present owned listed
      have told : (transportTable config).Told spdk items := applicable.told _ (by simp [tables])
      have eq := (told.ident trtype mem key ofKey _ rfl item present owned).mp listed
      refine ⟨_, rfl, ?_⟩
      cases item with
      | transport trtype' =>
        obtain rfl := Ident.transport.inj eq
        exact .keep
      | _ => cases owned }
  steady _ _ _ _ := rfl

omit applicable in
theorem leads_keyring (told : (keyringTable digest config type).Told spdk items) :
    (keyringTable digest config type).Leads spdk items where
  leads := {
    add := fun host _ key _ _ => by
      cases named : hostConfigKey digest host type <;>
        simp only [keyringTable, keyringConfig, named, Option.toList_none, Option.toList_some,
          Option.map_none, Option.map_some, List.map_nil, List.map_cons]
    delete := fun _ _ => rfl
    update := by
      intro host mem key ofKey item present owned listed
      have asked : (keyringTable digest config type).ask host = some (.key type key) :=
        congrArg (Option.map (Item.key type)) ofKey
      have eq := (told.ident host mem key ofKey _ asked item present owned).mp listed
      refine ⟨_, asked, ?_⟩
      cases item with
      | key type' name =>
        obtain ⟨rfl, rfl⟩ := Ident.key.inj eq
        exact .keep
      | _ => cases owned }
  steady _ _ _ _ := rfl

theorem leads_referral :
    (referralTable config).Leads spdk items := by
  have none (address : Address) : address ∉ (referralTable config).objects := by
    rw [show (referralTable config).objects = [] from applicable.referralDict_eq]
    exact not_mem_nil
  exact {
    leads := {
      add := fun address mem => absurd mem (none address)
      update := fun address mem => absurd mem (none address)
      delete := fun _ _ => rfl }
    steady := fun address mem => absurd mem (none address) }

theorem leads_fixed {table : Table Item Ident Text} (mem : table ∈ tables digest config items)
    (delete : ∀ item, table.kind.delete item = [.remove (spdk.ident item)])
    (asks : ∀ object ∈ table.objects, ∃ new ∈ prescribed digest config, new.fixed = true ∧
      table.ask object = some new ∧ table.kind.add object = [.add new] ∧
      table.kind.update object new = []) :
    table.Leads spdk items where
  leads := {
    add := by
      intro object inside key _ _
      obtain ⟨new, -, -, asked, added, -⟩ := asks object inside
      rw [asked, added]
      rfl
    delete := fun item _ => delete item
    update := by
      intro object inside key ofKey item present owned listed
      obtain ⟨new, prescribes, fixed, asked, -, steady⟩ := asks object inside
      obtain ⟨_, agree⟩ :=
        applicable.agrees_of_key mem inside ofKey asked prescribes present owned listed
      obtain rfl := eq_of_agrees agree fixed
      exact ⟨_, asked, steady ▸ .keep⟩ }
  steady object inside item asked := by
    obtain ⟨new, -, -, asks, -, steady⟩ := asks object inside
    cases asks.symm.trans asked
    exact steady

theorem leads_port : (portTable config).Leads spdk items := by
  refine applicable.leads_fixed (by simp [tables]) (fun _ => rfl) fun port inside => ?_
  have below := applicable.below_of_mem_portDict inside
  have asked : (portTable config).ask port = _ := listenerAt_of_lt below _
  exact ⟨_, applicable.prescribes_port inside asked, rfl, asked, addToNqn_of_lt below _,
    portConfig_update_self port _ _⟩

theorem leads_portSubsys : (portSubsysTable config).Leads spdk items := by
  refine applicable.leads_fixed (by simp [tables]) (fun _ => rfl) fun entry inside => ?_
  have below := applicable.below_of_mem_portSubsysDict inside
  have asked : (portSubsysTable config).ask entry = _ := listenerAt_of_lt below _
  exact ⟨_, applicable.prescribes_portSubsys inside asked, rfl, asked, addToNqn_of_lt below _,
    portSubsysConfig_update_self entry _ _⟩

theorem leads_host :
    (hostTable digest config).Leads spdk items where
  leads := {
    add := fun _ _ _ _ _ => rfl
    delete := fun _ _ => rfl
    update := by
      intro entry mem key ofKey item present owned listed
      have told : (hostTable digest config).Told spdk items := applicable.told _ (by simp [tables])
      have eq := (told.ident entry mem key ofKey _ rfl item present owned).mp listed
      refine ⟨_, rfl, ?_⟩
      cases item with
      | host nqn hostnqn dhchapKey dhchapCtrlKey =>
        obtain ⟨rfl, rfl⟩ := Ident.host.inj eq
        change Swap spdk _ _ (if _ then _ else _)
        split
        · next both =>
          obtain ⟨first, second⟩ := Bool.and_eq_true_iff.mp both
          rw [eq_of_secretMatches first, eq_of_secretMatches second]
          exact .keep
        · exact .replace rfl fun item => by cases item <;> rfl
      | _ => cases owned }
  steady entry mem item asked := by
    cases asked
    obtain ⟨first, second⟩ := applicable.hosts _ (applicable.hostSubsys entry mem).1
    refine if_pos (Bool.and_eq_true_iff.mpr ⟨?_, ?_⟩)
    · exact secretMatches_self first
    · exact secretMatches_self second

theorem leads_namespace (inv : Inv items) :
    (namespaceTable config).Leads spdk items where
  leads := {
    add := fun _ _ _ _ _ => rfl
    delete := fun _ _ => rfl
    update := by
      intro entry inside key ofKey item present owned listed
      have visible := visible_of_namespaceKey ofKey
      have mem : namespaceTable config ∈ tables digest config items := by simp [tables]
      cases asked : nsOf config entry with
      | some new =>
        have prescribes := applicable.prescribes_namespace inside visible (.inr asked)
        obtain ⟨_, agree⟩ :=
          applicable.agrees_of_key mem inside ofKey asked prescribes present owned listed
        obtain ⟨name, _, rfl⟩ := Option.map_eq_some_iff.mp asked
        obtain rfl := eq_of_agrees agree rfl
        exact ⟨_, asked, .keep⟩
      | none =>
        -- the key of an entry without a device starts with "None"
        cases item with
        | ns nqn nsid attached =>
          exact absurd listed (inv.listing_ne_of_nsOf asked present ofKey)
        | _ => cases owned }
  steady _ _ _ _ := rfl

theorem leads_bdev :
    (bdevTable config items).Leads spdk items where
  leads := {
    add := by
      intro entry inside key ofKey absent
      change (bdevConfig config).add entry = (askDevice config items entry).toList.map .add
      cases named : bdevName config entry with
      | some name =>
        have device := deviceOf_of_some named
        simp only [bdevConfig, askDevice, named, device, Option.toList_some, map_cons, map_nil]
      | none =>
        rw [askDevice_of_none named ofKey, List.find?_eq_none.mpr]
        · simp only [bdevConfig, named, Option.toList_none, map_nil]
        · intro item present live
          obtain ⟨owned, listed⟩ := Bool.and_eq_true_iff.mp live
          exact absent item present owned (of_decide_eq_true listed)
    delete := fun _ _ => rfl
    update := by
      intro entry inside key ofKey item present owned listed
      have mem : bdevTable config items ∈ tables digest config items := by simp [tables]
      cases named : bdevName config entry with
      | some name =>
        have device := deviceOf_of_some named
        have asked : (bdevTable config items).ask entry = _ := askDevice_of_some device
        have prescribes :=
          applicable.prescribes_namespace inside (visible_of_bdevKey ofKey) (.inl device)
        obtain ⟨_, agree⟩ :=
          applicable.agrees_of_key mem inside ofKey asked prescribes present owned listed
        obtain rfl := eq_of_agrees agree rfl
        exact ⟨_, asked, .keep⟩
      | none =>
        have asked : (bdevTable config items).ask entry = _ := askDevice_of_none named ofKey
        have someLive : (items.find? fun item => (bdevConfig config).owns item &&
            decide ((bdevConfig config).listing item = .listed key)).isSome = true :=
          List.find?_isSome.mpr
            ⟨item, present, Bool.and_eq_true_iff.mpr ⟨owned, decide_eq_true listed⟩⟩
        obtain ⟨found, isFound⟩ := Option.isSome_iff_exists.mp someLive
        have live := List.find?_some isFound
        obtain ⟨owned', listed'⟩ := Bool.and_eq_true_iff.mp live
        have eq : found = item := (applicable.told _ mem).apart found
          (mem_of_find?_eq_some isFound) owned' item present owned
          ((of_decide_eq_true listed').trans listed.symm)
        rw [isFound, eq] at asked
        exact ⟨item, asked, .keep⟩ }
  steady _ _ _ _ := rfl

end Applicable

end TruenasMiddleware.Nvmet
