import Mathlib.Data.List.Nodup

/-! `plugins/network.py`: the interface tables, their snapshot before the first pending change, and
its restoration. The tables keep primary keys, unique columns and foreign keys at every write;
deleting a row deletes the rows that refer to it, as the schema's `ON DELETE CASCADE` says. -/

namespace TruenasMiddleware.Network

open List

structure Interface where
  id : Nat
  interface : String
  name : String := ""
  dhcp : Bool := false
  address : String := ""
  addressB : String := ""
  version : Int := 4
  netmask : Int := 24
  ipv6auto : Bool := false
  vip : Option String := none
  vhid : Option Int := none
  critical : Bool := false
  group : Option Int := none
  mtu : Option Int := none
  fecMode : Option String := none

structure Alias where
  id : Nat
  interface : Nat
  address : String := ""
  version : Int := 4
  netmask : Int := 24
  addressB : String := ""
  vip : String := ""

structure Bridge where
  id : Nat
  members : List String := []
  interface : Nat
  stp : Bool := true
  enableLearning : Bool := true

structure Vlan where
  id : Nat
  vint : String
  pint : String
  tag : Int
  description : String := ""
  pcp : Option Int := none

structure Lagg where
  id : Nat
  interface : Nat
  protocol : String
  xmitHashPolicy : Option String := none
  lacpduRate : Option String := none

structure LaggMember where
  id : Nat
  ordernum : Int
  physnic : String
  interfacegroup : Nat

structure Nameservers where
  nameserver1 : String := ""
  nameserver2 : String := ""
  nameserver3 : String := ""

structure GlobalConfiguration extends Nameservers where
  hostname : String := "nas"
  hostnameB : Option String := none
  domain : String := "local"
  ipv4gateway : String := ""
  ipv6gateway : String := ""
  httpproxy : String := ""
  hosts : String := ""
  domains : String := ""
  serviceAnnouncement : String := ""
  hostnameVirtual : Option String := none
  activity : String := ""

structure Tables where
  interfaces : List Interface := []
  aliases : List Alias := []
  bridges : List Bridge := []
  vlans : List Vlan := []
  laggs : List Lagg := []
  laggmembers : List LaggMember := []

def Unique {ρ κ : Type} (key : ρ → κ) (rows : List ρ) : Prop := (rows.map key).Nodup

def Refers {ρ τ : Type} (column : ρ → Nat) (rows : List ρ) (id : τ → Nat) (target : List τ) :
    Prop :=
  ∀ row ∈ rows, column row ∈ target.map id

instance {ρ κ : Type} [DecidableEq κ] (key : ρ → κ) (rows : List ρ) : Decidable (Unique key rows) :=
  inferInstanceAs (Decidable (List.Nodup _))

instance {ρ τ : Type} (column : ρ → Nat) (rows : List ρ) (id : τ → Nat) (target : List τ) :
    Decidable (Refers column rows id target) :=
  inferInstanceAs (Decidable (∀ row ∈ rows, _))

variable (tables : Tables)

/-- Primary keys, unique columns and foreign keys, none of which is nullable. -/
structure Tables.Valid : Prop where
  interfaceId : Unique Interface.id tables.interfaces
  interfaceName : Unique Interface.interface tables.interfaces
  aliasId : Unique Alias.id tables.aliases
  bridgeId : Unique Bridge.id tables.bridges
  vlanId : Unique Vlan.id tables.vlans
  laggId : Unique Lagg.id tables.laggs
  memberId : Unique LaggMember.id tables.laggmembers
  memberPhysnic : Unique LaggMember.physnic tables.laggmembers
  aliasInterface : Refers Alias.interface tables.aliases Interface.id tables.interfaces
  bridgeInterface : Refers Bridge.interface tables.bridges Interface.id tables.interfaces
  laggInterface : Refers Lagg.interface tables.laggs Interface.id tables.interfaces
  memberGroup : Refers LaggMember.interfacegroup tables.laggmembers Lagg.id tables.laggs

instance : Decidable tables.Valid :=
  decidable_of_iff
    ((Unique Interface.id tables.interfaces ∧ Unique Interface.interface tables.interfaces ∧
      Unique Alias.id tables.aliases ∧ Unique Bridge.id tables.bridges ∧
      Unique Vlan.id tables.vlans ∧ Unique Lagg.id tables.laggs ∧
      Unique LaggMember.id tables.laggmembers ∧ Unique LaggMember.physnic tables.laggmembers) ∧
      Refers Alias.interface tables.aliases Interface.id tables.interfaces ∧
      Refers Bridge.interface tables.bridges Interface.id tables.interfaces ∧
      Refers Lagg.interface tables.laggs Interface.id tables.interfaces ∧
      Refers LaggMember.interfacegroup tables.laggmembers Lagg.id tables.laggs)
    ⟨fun ⟨⟨a, b, c, d, e, f, g, h⟩, i, j, k, l⟩ => ⟨a, b, c, d, e, f, g, h, i, j, k, l⟩,
      fun ⟨a, b, c, d, e, f, g, h, i, j, k, l⟩ => ⟨⟨a, b, c, d, e, f, g, h⟩, i, j, k, l⟩⟩

@[ext]
structure Database where
  tables : Tables
  config : GlobalConfiguration
  valid : tables.Valid

/-- A write of one of the interface tables. An update sets the columns of the row with the id of
the given one. -/
inductive Write
  | insertInterface (row : Interface)
  | insertAlias (row : Alias)
  | insertBridge (row : Bridge)
  | insertVlan (row : Vlan)
  | insertLagg (row : Lagg)
  | insertMember (row : LaggMember)
  | updateInterface (row : Interface)
  | updateAlias (row : Alias)
  | updateBridge (row : Bridge)
  | updateVlan (row : Vlan)
  | updateLagg (row : Lagg)
  | updateMember (row : LaggMember)
  | deleteInterfaces (chosen : Interface → Bool)
  | deleteAliases (chosen : Alias → Bool)
  | deleteBridges (chosen : Bridge → Bool)
  | deleteVlans (chosen : Vlan → Bool)
  | deleteLaggs (chosen : Lagg → Bool)
  | deleteMembers (chosen : LaggMember → Bool)

def updated {ρ : Type} (id : ρ → Nat) (rows : List ρ) (row : ρ) : List ρ :=
  rows.map fun old => if id old = id row then row else old

/-- The rows that stay when the rows `gone` of the table they refer to are deleted. -/
def cascade {ρ τ : Type} (column : ρ → Nat) (rows : List ρ) (id : τ → Nat) (gone : List τ) :
    List ρ :=
  rows.filter fun row => decide (column row ∉ gone.map id)

def Tables.deleteLaggs (chosen : Lagg → Bool) : Tables :=
  { tables with
    laggs := tables.laggs.filter fun row => !chosen row
    laggmembers := cascade LaggMember.interfacegroup tables.laggmembers Lagg.id
      (tables.laggs.filter chosen) }

def Tables.deleteInterfaces (chosen : Interface → Bool) : Tables :=
  let gone := tables.interfaces.filter chosen
  let rest := tables.deleteLaggs fun row => decide (row.interface ∈ gone.map Interface.id)
  { rest with
    interfaces := tables.interfaces.filter fun row => !chosen row
    aliases := cascade Alias.interface tables.aliases Interface.id gone
    bridges := cascade Bridge.interface tables.bridges Interface.id gone }

def Tables.apply : Write → Tables
  | .insertInterface row => { tables with interfaces := tables.interfaces ++ [row] }
  | .insertAlias row => { tables with aliases := tables.aliases ++ [row] }
  | .insertBridge row => { tables with bridges := tables.bridges ++ [row] }
  | .insertVlan row => { tables with vlans := tables.vlans ++ [row] }
  | .insertLagg row => { tables with laggs := tables.laggs ++ [row] }
  | .insertMember row => { tables with laggmembers := tables.laggmembers ++ [row] }
  | .updateInterface row =>
    { tables with interfaces := updated Interface.id tables.interfaces row }
  | .updateAlias row => { tables with aliases := updated Alias.id tables.aliases row }
  | .updateBridge row => { tables with bridges := updated Bridge.id tables.bridges row }
  | .updateVlan row => { tables with vlans := updated Vlan.id tables.vlans row }
  | .updateLagg row => { tables with laggs := updated Lagg.id tables.laggs row }
  | .updateMember row =>
    { tables with laggmembers := updated LaggMember.id tables.laggmembers row }
  | .deleteInterfaces chosen => tables.deleteInterfaces chosen
  | .deleteAliases chosen =>
    { tables with aliases := tables.aliases.filter fun row => !chosen row }
  | .deleteBridges chosen =>
    { tables with bridges := tables.bridges.filter fun row => !chosen row }
  | .deleteVlans chosen => { tables with vlans := tables.vlans.filter fun row => !chosen row }
  | .deleteLaggs chosen => tables.deleteLaggs chosen
  | .deleteMembers chosen =>
    { tables with laggmembers := tables.laggmembers.filter fun row => !chosen row }

/-- `datastore.insert`, `datastore.update` or `datastore.delete`; `none` is an `IntegrityError`. -/
def Database.write (db : Database) (write : Write) : Option Database :=
  if valid : (db.tables.apply write).Valid then
    some { db with tables := db.tables.apply write, valid := valid }
  else none

/-- The writes of a request up to the first one that raises. -/
def Database.writes (db : Database) : List Write → Database
  | [] => db
  | write :: rest =>
    match db.write write with
    | some next => next.writes rest
    | none => db

structure Datastores where
  tables : Tables
  ipv4gateway : String

def Database.getDatastores (db : Database) : Datastores := ⟨db.tables, db.config.ipv4gateway⟩

def Database.setGateway (db : Database) (gateway : String) : Database :=
  { db with config := { db.config with ipv4gateway := gateway } }

def Database.insertAll {ρ : Type} (db : Database) (insert : ρ → Write) (rows : List ρ) :
    Option Database :=
  rows.foldlM (fun db row => db.write (insert row)) db

def Database.restoreDatastores (db : Database) (original : Datastores) : Option Database := do
  let db ← db.write (.deleteLaggs fun _ => true)
  let db ← db.write (.deleteInterfaces fun _ => true)
  let db ← db.write (.deleteVlans fun _ => true)
  let db := db.setGateway ""
  let db ← db.insertAll .insertInterface original.tables.interfaces
  let db ← db.insertAll .insertAlias original.tables.aliases
  let db ← db.insertAll .insertBridge original.tables.bridges
  let db ← db.insertAll .insertVlan original.tables.vlans
  let db ← db.insertAll .insertLagg original.tables.laggs
  let db ← db.insertAll .insertMember original.tables.laggmembers
  return db.setGateway original.ipv4gateway

/-- The service: `original` is `_original_datastores`, `none` when it is empty. -/
structure Pending where
  db : Database
  original : Option Datastores := none

/-- The arguments of `save_network_config`; a nameserver that is not given is left as it is. -/
structure NetworkConfig where
  ipv4gateway : String
  nameserver1 : Option String := none
  nameserver2 : Option String := none
  nameserver3 : Option String := none

def NetworkConfig.apply (given : NetworkConfig) (config : GlobalConfiguration) :
    GlobalConfiguration :=
  { config with
    ipv4gateway := given.ipv4gateway
    nameserver1 := given.nameserver1.getD config.nameserver1
    nameserver2 := given.nameserver2.getD config.nameserver2
    nameserver3 := given.nameserver3.getD config.nameserver3 }

section Requests

-- `gw in ip_interface(address/netmask).network`, `none` for a `ValueError`
variable (inNetwork : String → Int → String → Option Bool)

def aliasReaches (gateway : String) : List Alias → Bool
  | [] => false
  | row :: rest =>
    match inNetwork row.address row.netmask gateway with
    | none => false
    | some true => true
    | some false => aliasReaches gateway rest

def reaches (tables : Tables) (gateway : String) : Bool :=
  (tables.interfaces.any fun row =>
    decide (inNetwork row.address row.netmask gateway = some true)) ||
  aliasReaches inNetwork gateway tables.aliases

inductive Request
  /-- `do_create`, `do_update` or `do_delete`, after its validation. -/
  | change (writes : List Write)
  | saveNetworkConfig (given : NetworkConfig)

def Pending.saveDatastores (pending : Pending) : Pending :=
  match pending.original with
  | some _ => pending
  | none => { pending with original := some pending.db.getDatastores }

def Pending.handle (pending : Pending) : Request → Pending
  | .change writes =>
    let saved := pending.saveDatastores
    { saved with db := saved.db.writes writes }
  | .saveNetworkConfig given =>
    if pending.original.isSome ∧ reaches inNetwork pending.db.tables given.ipv4gateway then
      { pending with db := { pending.db with config := given.apply pending.db.config } }
    else pending

def Pending.handleAll (pending : Pending) (requests : List Request) : Pending :=
  requests.foldl (Pending.handle inNetwork) pending

end Requests

/-- The part of `rollback` that concerns the tables; `none` when a write raises. -/
def Pending.rollback (pending : Pending) : Option Pending :=
  match pending.original with
  | none => some pending
  | some original => (pending.db.restoreDatastores original).map fun db => ⟨db, none⟩

section Restore

variable {tables after : Tables} {db : Database}

theorem Tables.Valid.part {part : Tables} (valid : tables.Valid)
    (interfaces : part.interfaces.Sublist tables.interfaces)
    (aliases : part.aliases.Sublist tables.aliases)
    (bridges : part.bridges.Sublist tables.bridges)
    (vlans : part.vlans.Sublist tables.vlans)
    (laggs : part.laggs.Sublist tables.laggs)
    (laggmembers : part.laggmembers.Sublist tables.laggmembers)
    (referring : part.aliases = [] ∧ part.bridges = [] ∧ part.laggs = [] ∨
      part.interfaces = tables.interfaces)
    (grouped : part.laggmembers = [] ∨ part.laggs = tables.laggs) : part.Valid := by
  have unique {ρ κ : Type} {key : ρ → κ} {some all : List ρ} (sub : some.Sublist all)
      (holds : Unique key all) : Unique key some := holds.sublist (sub.map key)
  have refers {ρ τ : Type} {column : ρ → Nat} {id : τ → Nat} {some all : List ρ}
      {left target : List τ} (sub : some.Sublist all) (holds : Refers column all id target)
      (either : some = [] ∨ left = target) : Refers column some id left := by
    rcases either with rfl | rfl
    · exact fun _ mem => absurd mem not_mem_nil
    · exact fun row mem => holds row (sub.subset mem)
  refine ⟨unique interfaces valid.interfaceId, unique interfaces valid.interfaceName,
    unique aliases valid.aliasId, unique bridges valid.bridgeId, unique vlans valid.vlanId,
    unique laggs valid.laggId, unique laggmembers valid.memberId,
    unique laggmembers valid.memberPhysnic, refers aliases valid.aliasInterface ?_,
    refers bridges valid.bridgeInterface ?_, refers laggs valid.laggInterface ?_,
    refers laggmembers valid.memberGroup grouped⟩
  · exact referring.imp_left fun empty => empty.1
  · exact referring.imp_left fun empty => empty.2.1
  · exact referring.imp_left fun empty => empty.2.2

variable {ρ τ : Type} {write : Write} {start next : Database} {pending : Pending}

theorem cascade_all {column : ρ → Nat} {rows : List ρ} {id : τ → Nat}
    {target : List τ} (refers : Refers column rows id target) :
    cascade column rows id target = [] :=
  filter_eq_nil_iff.mpr fun row mem => by simpa using refers row mem

theorem write_ok (applied : db.tables.apply write = after) (valid : after.Valid) :
    ∃ next, db.write write = some next ∧ next.tables = after ∧ next.config = db.config := by
  subst applied
  exact ⟨_, dif_pos valid, rfl, rfl⟩

theorem insertAll_ok (insert : ρ → Write) (add : List ρ → Tables) (rows : List ρ)
    (applies : ∀ done row, (add done).apply (insert row) = add (done ++ [row]))
    (valid : ∀ done, done.Sublist rows → (add done).Valid) (empty : db.tables = add []) :
    ∃ next, db.insertAll insert rows = some next ∧ next.tables = add rows ∧
      next.config = db.config := by
  -- by induction on the rows that are left, with those already inserted
  suffices ∀ rest done (db : Database), done ++ rest = rows → db.tables = add done →
      ∃ next, db.insertAll insert rest = some next ∧ next.tables = add rows ∧
        next.config = db.config from
    this rows [] db rfl empty
  intro rest
  induction rest with
  | nil =>
    intro done db whole current
    rw [append_nil] at whole
    subst whole
    exact ⟨db, rfl, current, rfl⟩
  | cons row rest ih =>
    intro done db whole current
    rw [append_cons] at whole
    have after : db.tables.apply (insert row) = add (done ++ [row]) := by
      rw [current, applies]
    have part : (done ++ [row]).Sublist rows := by
      rw [← whole]
      exact sublist_append_left _ _
    obtain ⟨next, written, tables, config⟩ := write_ok after (valid _ part)
    obtain ⟨last, inserted, all, eq⟩ := ih (done ++ [row]) next whole tables
    refine ⟨last, ?_, all, eq.trans config⟩
    rw [Database.insertAll, foldlM_cons, written]
    exact inserted

theorem deleteAll_ok (db : Database) :
    ∃ one two three, db.write (.deleteLaggs fun _ => true) = some one ∧
      one.write (.deleteInterfaces fun _ => true) = some two ∧
      two.write (.deleteVlans fun _ => true) = some three ∧
      three.tables = {} ∧ three.config = db.config := by
  have laggs : db.tables.apply (.deleteLaggs fun _ => true) =
      { db.tables with laggs := [], laggmembers := [] } := by
    simp [Tables.apply, Tables.deleteLaggs, cascade_all db.valid.memberGroup]
  have rest : Tables.Valid { db.tables with laggs := [], laggmembers := [] } :=
    db.valid.part (.refl _) (.refl _) (.refl _) (.refl _) (nil_sublist _)
      (nil_sublist _) (.inr rfl) (.inl rfl)
  obtain ⟨one, first, tablesOne, configOne⟩ := write_ok laggs rest
  have interfaces : one.tables.apply (.deleteInterfaces fun _ => true) =
      { vlans := db.tables.vlans } := by
    have aliases := cascade_all db.valid.aliasInterface
    have bridges := cascade_all db.valid.bridgeInterface
    rw [tablesOne]
    simp only [Tables.apply, Tables.deleteInterfaces, Tables.deleteLaggs, filter_true,
      aliases, bridges, filter_nil, Bool.not_true, filter_false]
    rfl
  have onlyVlans : Tables.Valid { vlans := db.tables.vlans } :=
    db.valid.part (nil_sublist _) (nil_sublist _) (nil_sublist _) (.refl _)
      (nil_sublist _) (nil_sublist _) (.inl ⟨rfl, rfl, rfl⟩) (.inl rfl)
  obtain ⟨two, second, tablesTwo, configTwo⟩ := write_ok interfaces onlyVlans
  have vlans : two.tables.apply (.deleteVlans fun _ => true) = {} := by
    rw [tablesTwo]
    simp only [Tables.apply, Bool.not_true, filter_false]
  obtain ⟨three, third, tablesThree, configThree⟩ := write_ok vlans (by decide)
  exact ⟨one, two, three, first, second, third, tablesThree,
    configThree.trans (configTwo.trans configOne)⟩

theorem restoreDatastores_ok (db : Database) (original : Datastores)
    (valid : original.tables.Valid) :
    ∃ next, db.restoreDatastores original = some next ∧ next.tables = original.tables ∧
      next.config = { db.config with ipv4gateway := original.ipv4gateway } := by
  obtain ⟨one, two, three, first, second, third, empty, config⟩ := deleteAll_ok db
  have nil {ρ : Type} (rows : List ρ) : ([] : List ρ).Sublist rows := nil_sublist rows
  obtain ⟨four, fourth, tablesFour, configFour⟩ := insertAll_ok .insertInterface
    (fun rows => { interfaces := rows }) original.tables.interfaces (fun _ _ => rfl)
    (fun _ sub => valid.part sub (nil _) (nil _) (nil _) (nil _) (nil _)
      (.inl ⟨rfl, rfl, rfl⟩) (.inl rfl))
    (show (three.setGateway "").tables = _ from empty)
  -- from here on all the interfaces are there to refer to
  obtain ⟨five, fifth, tablesFive, configFive⟩ := insertAll_ok .insertAlias
    (fun rows => { interfaces := original.tables.interfaces, aliases := rows })
    original.tables.aliases (fun _ _ => rfl)
    (fun _ sub => valid.part (.refl _) sub (nil _) (nil _) (nil _) (nil _) (.inr rfl) (.inl rfl))
    tablesFour
  obtain ⟨six, sixth, tablesSix, configSix⟩ := insertAll_ok .insertBridge
    (fun rows => { interfaces := original.tables.interfaces, aliases := original.tables.aliases,
                   bridges := rows })
    original.tables.bridges (fun _ _ => rfl)
    (fun _ sub => valid.part (.refl _) (.refl _) sub (nil _) (nil _) (nil _) (.inr rfl) (.inl rfl))
    tablesFive
  obtain ⟨seven, seventh, tablesSeven, configSeven⟩ := insertAll_ok .insertVlan
    (fun rows => { original.tables with vlans := rows, laggs := [], laggmembers := [] })
    original.tables.vlans (fun _ _ => rfl)
    (fun _ sub => valid.part (.refl _) (.refl _) (.refl _) sub (nil _) (nil _) (.inr rfl)
      (.inl rfl))
    tablesSix
  obtain ⟨eight, eighth, tablesEight, configEight⟩ := insertAll_ok .insertLagg
    (fun rows => { original.tables with laggs := rows, laggmembers := [] })
    original.tables.laggs (fun _ _ => rfl)
    (fun _ sub => valid.part (.refl _) (.refl _) (.refl _) (.refl _) sub (nil _) (.inr rfl)
      (.inl rfl))
    tablesSeven
  obtain ⟨nine, ninth, tablesNine, configNine⟩ := insertAll_ok .insertMember
    (fun rows => { original.tables with laggmembers := rows })
    original.tables.laggmembers (fun _ _ => rfl)
    (fun _ sub => valid.part (.refl _) (.refl _) (.refl _) (.refl _) (.refl _) sub (.inr rfl)
      (.inr rfl))
    tablesEight
  have kept : nine.config = (three.setGateway "").config := by
    rw [configNine, configEight, configSeven, configSix, configFive, configFour]
  refine ⟨nine.setGateway original.ipv4gateway, ?_, tablesNine, ?_⟩
  · simp only [Database.restoreDatastores, first, second, third, fourth, fifth, sixth, seventh,
      eighth, ninth, Option.bind_eq_bind, Option.bind_some, Option.pure_def]
  · simp only [Database.setGateway, kept, config]

theorem write_config (written : db.write write = some next) :
    next.config = db.config := by
  rw [Database.write] at written
  split at written <;> cases written
  rfl

theorem writes_config (db : Database) (writes : List Write) :
    (db.writes writes).config = db.config := by
  induction writes generalizing db with
  | nil => rfl
  | cons write rest ih =>
    rw [Database.writes]
    split
    · rename_i next written
      rw [ih next, write_config written]
    · rfl

variable (inNetwork : String → Int → String → Option Bool)

/-- What requests leave of the database `start`: its snapshot, or all of it while there is none;
and of the global configuration everything but the gateway and the nameservers. -/
structure Follows (start : Database) (pending : Pending) : Prop where
  original : ∀ original ∈ pending.original, original = start.getDatastores
  unchanged : pending.original = none → pending.db = start
  config : pending.db.config =
    { start.config with
      toNameservers := pending.db.config.toNameservers
      ipv4gateway := pending.db.config.ipv4gateway }

theorem Follows.saveDatastores (follows : Follows start pending) :
    Follows start pending.saveDatastores ∧ pending.saveDatastores.db = pending.db ∧
      pending.saveDatastores.original = some start.getDatastores := by
  rw [Pending.saveDatastores]
  cases saved : pending.original with
  | some original =>
    obtain rfl := follows.original original saved
    exact ⟨follows, rfl, saved⟩
  | none =>
    have eq := follows.unchanged saved
    refine ⟨⟨?_, nofun, follows.config⟩, rfl, by rw [eq]⟩
    rintro original ⟨⟩
    rw [eq]

theorem Follows.handle (follows : Follows start pending)
    (request : Request) : Follows start (pending.handle inNetwork request) := by
  cases request with
  | change writes =>
    obtain ⟨saved, -, pendingNow⟩ := follows.saveDatastores
    refine ⟨saved.original, fun none => ?_, ?_⟩
    · rw [Pending.handle, pendingNow] at none
      cases none
    · rw [Pending.handle, writes_config]
      exact saved.config
  | saveNetworkConfig given =>
    rw [Pending.handle]
    split
    · rename_i effective
      refine ⟨follows.original, fun none => ?_, ?_⟩
      · rw [none] at effective
        exact absurd effective.1 Bool.false_ne_true
      · rw [NetworkConfig.apply, follows.config]
    · exact follows

theorem follows_handleAll (start : Database) (requests : List Request) :
    Follows start (Pending.handleAll inNetwork ⟨start, none⟩ requests) := by
  have from_ : ∀ pending : Pending, Follows start pending →
      Follows start (pending.handleAll inNetwork requests) := by
    induction requests with
    | nil => exact fun pending follows => follows
    | cons request rest ih =>
      exact fun pending follows => ih _ (follows.handle inNetwork request)
  exact from_ _ ⟨nofun, fun _ => rfl, rfl⟩

/-- Changes and saved configurations followed by a rollback: the interface tables and the gateway
are what they were before the first change, and the database as a whole is if the nameservers were
not changed, since the snapshot leaves these out. -/
theorem rollback_restores_iff (start : Database) (requests : List Request) :
    ∃ done, (Pending.handleAll inNetwork ⟨start, none⟩ requests).rollback = some done ∧
      done.original = none ∧ done.db.tables = start.tables ∧
      done.db.config.ipv4gateway = start.config.ipv4gateway ∧
      (done.db = start ↔
        (Pending.handleAll inNetwork ⟨start, none⟩ requests).db.config.toNameservers =
          start.config.toNameservers) := by
  have follows := follows_handleAll inNetwork start requests
  generalize Pending.handleAll inNetwork ⟨start, none⟩ requests = pending at follows ⊢
  rw [Pending.rollback]
  cases saved : pending.original with
  | none =>
    have same := follows.unchanged saved
    refine ⟨pending, rfl, saved, by rw [same], by rw [same], ?_⟩
    rw [same]
    exact ⟨fun _ => rfl, fun _ => rfl⟩
  | some original =>
    obtain rfl := follows.original original saved
    obtain ⟨next, restored, tables, config⟩ :=
      restoreDatastores_ok pending.db start.getDatastores start.valid
    have whole : next.config =
        { start.config with toNameservers := pending.db.config.toNameservers } := by
      rw [config, follows.config]
      rfl
    refine ⟨⟨next, none⟩, ?_, rfl, tables, ?_, ?_⟩
    · dsimp only
      rw [restored, Option.map_some]
    · rw [whole]
    · constructor
      · rintro same
        have config := congrArg (fun db => db.config.toNameservers) same
        dsimp only at config
        rwa [whole] at config
      · intro same
        refine Database.ext tables ?_
        rw [whole, same]

/-- A nameserver saved with the gateway stays when the changes are rolled back. -/
theorem rollback_keeps_nameserver : ∃ (start : Database) (requests : List Request) (done : Pending),
      (Pending.handleAll (fun _ _ _ => some true) ⟨start, none⟩ requests).rollback = some done ∧
        start.config.nameserver1 = "" ∧ done.db.config.nameserver1 = "192.168.0.1" := by
  let start : Database :=
    ⟨{ interfaces := [{ id := 1, interface := "eno1", dhcp := true }] }, {}, by decide⟩
  let static : Interface :=
    { id := 1, interface := "eno1", address := "192.168.0.10" }
  let requests : List Request := [.change [.updateInterface static],
    .saveNetworkConfig { ipv4gateway := "192.168.0.1", nameserver1 := some "192.168.0.1" }]
  have run : ((Pending.handleAll (fun _ _ _ => some true) ⟨start, none⟩ requests).rollback).any
      fun done => decide (done.db.config.nameserver1 = "192.168.0.1") := by
    decide +kernel
  obtain ⟨done, rolledBack, nameserver⟩ := (Option.any_eq_true _ _).mp run
  exact ⟨start, requests, done, rolledBack, rfl, of_decide_eq_true nameserver⟩

end Restore

end TruenasMiddleware.Network
