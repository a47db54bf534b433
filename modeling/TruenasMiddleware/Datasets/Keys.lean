import TruenasMiddleware.Foundation.Dict
import Mathlib.Data.List.Infix

/-! `sync_db_keys` of `plugins/pool_/dataset_encryption_info.py`: the stored encryption keys are
checked against the datasets, and the records of those that do not open their dataset are deleted.
Which datasets are seen for the conversion of a raw key depends on `is_internal_dataset`. -/

namespace TruenasMiddleware.Datasets

open List Dict

inductive ZFSKeyFormat
  | hex
  | passphrase
  | raw
deriving DecidableEq

structure Encryption where
  root : String
  keyFormat : ZFSKeyFormat
deriving DecidableEq

/-- A dataset in its pool, named by its own part of the path. -/
inductive Tree
  | node (part : String) (encryption : Option Encryption) (children : List Tree)

structure Dataset where
  name : String
  encryption : Option Encryption
deriving DecidableEq

/-- A row of `storage.encrypteddataset`, with an empty text for no key. -/
structure Record where
  id : Nat
  name : String
  encryptionKey : String
  kmipUid : Option String := none
deriving DecidableEq

/-- A key as it is given to `check_key`. -/
inductive Material
  | text (key : String)
  | bytes (key : List UInt8)
deriving DecidableEq

inductive Checked
  | answers (opens : Bool)
  | raises

def startsWith (name start : String) : Bool := decide (start.toList <+: name.toList)

def BOOT_POOL_NAME_VALID : List String := ["freenas-boot", "boot-pool"]

def INTERNAL_DATASETS : List String :=
  [".system", "ix-applications", "ix-apps", ".truenas_containers"]

def isInternalDataset (name : String) : Bool :=
  BOOT_POOL_NAME_VALID.any (fun i => decide (name = i) || startsWith name (i ++ "/")) ||
    INTERNAL_DATASETS.any fun i => decide (("/" ++ i).toList <:+: name.toList)

def childName (parent part : String) : String := parent ++ "/" ++ part

mutual

/-- `generic_query_callback`: an internal dataset is left out, and so is what is below it. -/
def Tree.query (exclude : Bool) (name : String) : Tree → List Dataset
  | .node _ encryption children =>
    if exclude && isInternalDataset name then []
    else ⟨name, encryption⟩ :: queryAll exclude name children

def queryAll (exclude : Bool) (parent : String) : List Tree → List Dataset
  | [] => []
  | .node part encryption children :: rest =>
    Tree.query exclude (childName parent part) (.node part encryption children) ++
      queryAll exclude parent rest

end

def Tree.part : Tree → String
  | .node part _ _ => part

def queryPools (exclude : Bool) (pools : List Tree) : List Dataset :=
  pools.flatMap fun pool => pool.query exclude pool.part

/-- What `sync_db_keys` finds: the imported pools, of which no two datasets have the same name,
the records, the keys that KMIP has in memory, and `check_key`. -/
structure System where
  singleMasterNode : Bool
  poolNames : List String
  pools : List Tree
  unique : ((queryPools false pools).map Dataset.name).Nodup
  records : List Record
  zfsKeys : String → Option String
  fromhex : String → Option (List UInt8)
  checkKey : String → Material → Checked

variable (system : System)

def dsNames : List String :=
  (system.pools.map Tree.part).filter fun name => !isInternalDataset name

variable (name : Option String)

/-- The filters: what is asked for, less the pools that are not imported. -/
def selected (dataset : String) : Bool :=
  (match name with
    | some name => decide (name = "") || decide (dataset = name) || startsWith dataset (name ++ "/")
    | none => true) &&
  (system.poolNames.filter fun pool => decide (pool ∉ dsNames system)).all fun pool =>
    decide (dataset ≠ pool) && !startsWith dataset (pool ++ "/")

def Record.key (record : Record) : Option String :=
  if record.encryptionKey ≠ "" then some record.encryptionKey else system.zfsKeys record.name

def queryEncryptedRootsKeys : List (String × String) :=
  (system.records.filter fun record => selected system name record.name).foldl
    (fun keys record => write ((record.key system).map fun key => (record.name, key)) keys) []

def encryptedRoots : List (String × ZFSKeyFormat) :=
  ((queryPools true system.pools).filter fun dataset => selected system name dataset.name).filterMap
    fun dataset => dataset.encryption.bind fun encryption =>
      if dataset.name = encryption.root then some (dataset.name, encryption.keyFormat) else none

def material (format : ZFSKeyFormat) (key : String) : Material :=
  match format with
  | .raw => if key = "" then .text key else (system.fromhex key).elim (.text key) .bytes
  | _ => .text key

def presented (dataset key : String) : Material :=
  match (encryptedRoots system name).lookup dataset with
  | some format => material system format key
  | none => .text key

def shouldRemove (dataset key : String) : Bool :=
  match system.checkKey dataset (presented system name dataset key) with
  | .answers opens => !opens
  | .raises => true

def toRemove : List String :=
  ((queryEncryptedRootsKeys system name).filter fun entry =>
    shouldRemove system name entry.1 entry.2).map Prod.fst

/-- `delete_encrypted_datasets_from_db`: the records that are left. -/
def deleteEncryptedDatasetsFromDb (names : List String) : List Record :=
  system.records.filter fun record => decide (record.name ∉ names)

def syncDbKeys : List Record :=
  if system.singleMasterNode then deleteEncryptedDatasetsFromDb system (toRemove system name)
  else system.records

theorem toList_childName (parent part : String) :
    (childName parent part).toList = (parent ++ "/").toList ++ part.toList := by
  rw [childName, String.toList_append]

theorem parent_childName (parent part : String) :
    parent.toList <+: (childName parent part).toList := by
  rw [toList_childName, String.toList_append, append_assoc]
  exact ⟨_, rfl⟩

theorem isInternalDataset_childName {parent : String} (part : String)
    (inside : isInternalDataset parent = true) :
    isInternalDataset (childName parent part) = true := by
  rw [isInternalDataset, Bool.or_eq_true, any_eq_true, any_eq_true] at inside ⊢
  refine inside.imp ?_ ?_
  · rintro ⟨pool, mem, boot⟩
    refine ⟨pool, mem, ?_⟩
    rw [Bool.or_eq_true, decide_eq_true_eq] at boot ⊢
    rcases boot with rfl | below
    · refine .inr (decide_eq_true ?_)
      rw [toList_childName]
      exact ⟨_, rfl⟩
    · exact .inr (decide_eq_true ((of_decide_eq_true below).trans (parent_childName parent part)))
  · rintro ⟨part', mem, contained⟩
    refine ⟨part', mem, decide_eq_true ?_⟩
    exact (of_decide_eq_true contained).trans (parent_childName parent part).isInfix

mutual

theorem internal_of_mem_query {name : String} (inside : isInternalDataset name = true) :
    ∀ (tree : Tree) (dataset : Dataset), dataset ∈ tree.query false name →
      isInternalDataset dataset.name = true
  | .node part encryption children, dataset, mem => by
    rw [Tree.query] at mem
    rcases mem_cons.mp mem with rfl | below
    · exact inside
    · exact internal_of_mem_queryAll inside children dataset below

theorem internal_of_mem_queryAll {parent : String} (inside : isInternalDataset parent = true) :
    ∀ (trees : List Tree) (dataset : Dataset), dataset ∈ queryAll false parent trees →
      isInternalDataset dataset.name = true
  | [], _, mem => by
    rw [queryAll] at mem
    cases mem
  | .node part encryption children :: rest, dataset, mem => by
    rw [queryAll] at mem
    rcases mem_append.mp mem with first | later
    · exact internal_of_mem_query (isInternalDataset_childName part inside) _ dataset first
    · exact internal_of_mem_queryAll inside rest dataset later

end

mutual

theorem query_true (name : String) : ∀ tree : Tree, tree.query true name =
    (tree.query false name).filter fun dataset => !isInternalDataset dataset.name
  | .node part encryption children => by
    cases inside : isInternalDataset name with
    | true =>
      rw [Tree.query, inside]
      refine (filter_eq_nil_iff.mpr fun dataset mem => ?_).symm
      simp [internal_of_mem_query inside _ dataset mem]
    | false =>
      simp only [Tree.query, inside, Bool.and_false, Bool.false_eq_true, if_false]
      rw [filter_cons_of_pos (by simp [inside]), ← queryAll_true name children]

theorem queryAll_true (parent : String) : ∀ trees : List Tree, queryAll true parent trees =
    (queryAll false parent trees).filter fun dataset => !isInternalDataset dataset.name
  | [] => by simp [queryAll]
  | .node part encryption children :: rest => by
    rw [queryAll, queryAll, filter_append, query_true, queryAll_true parent rest]

end

theorem queryPools_true (pools : List Tree) : queryPools true pools =
    (queryPools false pools).filter fun dataset => !isInternalDataset dataset.name := by
  rw [queryPools, queryPools, filter_flatMap]
  refine flatMap_congr fun pool _ => ?_
  exact query_true pool.part pool

section Lookup

variable {system : System} {name : Option String} {dataset : Dataset} {encryption : Encryption}

theorem mem_encryptedRoots {entry : String × ZFSKeyFormat} :
    entry ∈ encryptedRoots system name ↔ ∃ dataset ∈ queryPools false system.pools,
      isInternalDataset dataset.name = false ∧ selected system name dataset.name = true ∧
        ∃ encryption, dataset.encryption = some encryption ∧ dataset.name = encryption.root ∧
          entry = (dataset.name, encryption.keyFormat) := by
  rw [encryptedRoots, mem_filterMap, queryPools_true]
  simp only [mem_filter, Option.bind_eq_some_iff, Option.ite_none_right_eq_some,
    Option.some.injEq, Bool.not_eq_true']
  constructor
  · rintro ⟨dataset, ⟨⟨existing, external⟩, chosen⟩, encryption, encrypted, root, eq⟩
    exact ⟨dataset, existing, external, chosen, encryption, encrypted, root, eq.symm⟩
  · rintro ⟨dataset, existing, external, chosen, encryption, encrypted, root, eq⟩
    exact ⟨dataset, ⟨⟨existing, external⟩, chosen⟩, encryption, encrypted, root, eq.symm⟩

theorem lookup_encryptedRoots (existing : dataset ∈ queryPools false system.pools)
    (encrypted : dataset.encryption = some encryption)
    (chosen : selected system name dataset.name = true) :
    (encryptedRoots system name).lookup dataset.name =
      if isInternalDataset dataset.name = false ∧ encryption.root = dataset.name then
        some encryption.keyFormat
      else none := by
  have eq : ∀ other ∈ queryPools false system.pools, other.name = dataset.name →
      other = dataset := fun other inside equal =>
    inj_on_of_nodup_map system.unique inside existing equal
  have only : ∀ format, (dataset.name, format) ∈ encryptedRoots system name →
      format = encryption.keyFormat ∧
        isInternalDataset dataset.name = false ∧ encryption.root = dataset.name := by
    intro format inside
    obtain ⟨other, there, external, -, found, given, root, equal⟩ := mem_encryptedRoots.mp inside
    obtain ⟨names, formats⟩ := Prod.mk.inj equal
    obtain rfl := eq other there names.symm
    cases encrypted.symm.trans given
    exact ⟨formats, external, root.symm⟩
  split_ifs with seen
  · have inside : (dataset.name, encryption.keyFormat) ∈ encryptedRoots system name :=
      mem_encryptedRoots.mpr
        ⟨dataset, existing, seen.1, chosen, encryption, encrypted, seen.2.symm, rfl⟩
    cases found : (encryptedRoots system name).lookup dataset.name with
    | none => exact absurd (mem_map_of_mem inside) (lookup_eq_none.mp found)
    | some format => rw [(only format (mem_of_lookup found)).1]
  · refine lookup_eq_none.mpr fun inside => ?_
    obtain ⟨⟨key, format⟩, mem, rfl⟩ := mem_map.mp inside
    exact seen (only format mem).2

theorem mem_toRemove {dataset : String} : dataset ∈ toRemove system name ↔
    ∃ key, (queryEncryptedRootsKeys system name).lookup dataset = some key ∧
      shouldRemove system name dataset key = true := by
  have nodup : (keys (queryEncryptedRootsKeys system name)).Nodup :=
    nodup_writes nodup_nil
  rw [toRemove, mem_map]
  constructor
  · rintro ⟨⟨_, key⟩, mem, rfl⟩
    obtain ⟨inside, removed⟩ := mem_filter.mp mem
    exact ⟨key, lookup_of_mem nodup inside, removed⟩
  · rintro ⟨key, found, removed⟩
    exact ⟨(dataset, key), mem_filter.mpr ⟨mem_of_lookup found, removed⟩, rfl⟩

theorem exists_storedKey {record : Record} {key : String} (stored : record ∈ system.records)
    (chosen : selected system name record.name = true) (given : record.key system = some key) :
    ∃ key, (queryEncryptedRootsKeys system name).lookup record.name = some key := by
  refine exists_lookup.mpr (mem_keys_writes.mpr
    (.inr ⟨record, mem_filter.mpr ⟨stored, chosen⟩, key, ?_⟩))
  rw [given, Option.map_some]

theorem selected_of_mem_toRemove {dataset : String} (removed : dataset ∈ toRemove system name) :
    selected system name dataset = true := by
  obtain ⟨key, found, -⟩ := mem_toRemove.mp removed
  by_contra outside
  have missing : (queryEncryptedRootsKeys system name).lookup dataset = none := by
    refine lookup_writes_of_none ?_ []
    intro record mem value written
    obtain ⟨_, -, equal⟩ := Option.map_eq_some_iff.mp written
    obtain rfl := (Prod.mk.inj equal).1
    exact outside (mem_filter.mp mem).2
  rw [missing] at found
  cases found

end Lookup

section Usable

variable {system : System} {name : Option String} {opens : String → Material → Bool}
  {record : Record} {encryption : Encryption}

/-- `check_key` tells the truth when it answers. -/
def Truthful (system : System) (opens : String → Material → Bool) : Prop :=
  ∀ dataset key answer, system.checkKey dataset key = .answers answer → answer = opens dataset key

/-- A raw key has to be given as bytes. -/
def RawBytes (system : System) (opens : String → Material → Bool) : Prop :=
  ∀ dataset ∈ queryPools false system.pools, ∀ encryption ∈ dataset.encryption,
    encryption.keyFormat = .raw → ∀ text, opens dataset.name (.text text) = false

structure Usable (system : System) (opens : String → Material → Bool) (record : Record)
    (encryption : Encryption) : Prop where
  existing : ⟨record.name, some encryption⟩ ∈ queryPools false system.pools
  opens : ∃ key, record.key system = some key ∧
    opens record.name (material system encryption.keyFormat key) = true

/-- The last stored key of the name opens the dataset too, `check_key` answers for it, and a
dataset with a raw key is not internal and is its own encryption root. -/
structure Confirmed (system : System) (opens : String → Material → Bool) (name : Option String)
    (record : Record) (encryption : Encryption) : Prop where
  seen : encryption.keyFormat = .raw →
    isInternalDataset record.name = false ∧ encryption.root = record.name
  checked : ∀ key, (queryEncryptedRootsKeys system name).lookup record.name = some key →
    opens record.name (material system encryption.keyFormat key) = true ∧
      system.checkKey record.name (material system encryption.keyFormat key) ≠ .raises

theorem shouldRemove_eq_false_iff {dataset key : String} (truthful : Truthful system opens) :
    shouldRemove system name dataset key = false ↔
      opens dataset (presented system name dataset key) = true ∧
        system.checkKey dataset (presented system name dataset key) ≠ .raises := by
  rw [shouldRemove]
  cases checked : system.checkKey dataset (presented system name dataset key) with
  | raises => simp
  | answers answer => simp [truthful _ _ _ checked]

theorem presented_opens_iff {key : String} (rawBytes : RawBytes system opens)
    (existing : ⟨record.name, some encryption⟩ ∈ queryPools false system.pools)
    (chosen : selected system name record.name = true) :
    (opens record.name (presented system name record.name key) = true ∧
        system.checkKey record.name (presented system name record.name key) ≠ .raises) ↔
      (encryption.keyFormat = .raw →
        isInternalDataset record.name = false ∧ encryption.root = record.name) ∧
      opens record.name (material system encryption.keyFormat key) = true ∧
        system.checkKey record.name (material system encryption.keyFormat key) ≠ .raises := by
  have lookup := lookup_encryptedRoots existing rfl chosen
  dsimp only at lookup
  rw [presented, lookup]
  by_cases seen : isInternalDataset record.name = false ∧ encryption.root = record.name
  · rw [if_pos seen]
    simp [seen]
  · rw [if_neg seen]
    cases format : encryption.keyFormat with
    | raw =>
      have closed := rawBytes _ existing encryption rfl format key
      exact iff_of_false (fun both => by simp [closed] at both) fun both => seen (both.1 rfl)
    | hex | passphrase => simp [material]

theorem mem_syncDbKeys {record : Record} : record ∈ syncDbKeys system name ↔
    record ∈ system.records ∧
      (system.singleMasterNode = true → record.name ∉ toRemove system name) := by
  rw [syncDbKeys]
  split_ifs with master
  · rw [deleteEncryptedDatasetsFromDb, mem_filter, decide_eq_true_eq]
    simp [master]
  · simp [master]

theorem kept_iff_confirmed (truthful : Truthful system opens) (rawBytes : RawBytes system opens)
    (stored : record ∈ system.records) (chosen : selected system name record.name = true)
    (usable : Usable system opens record encryption) :
    record.name ∉ toRemove system name ↔ Confirmed system opens name record encryption := by
  obtain ⟨own, given, -⟩ := usable.opens
  obtain ⟨key, found⟩ := exists_storedKey stored chosen given
  have removed : record.name ∈ toRemove system name ↔
      shouldRemove system name record.name key = true := by
    rw [mem_toRemove]
    constructor
    · rintro ⟨other, again, gone⟩
      rw [found] at again
      rwa [Option.some.inj again]
    · exact fun gone => ⟨key, found, gone⟩
  rw [removed, Bool.not_eq_true, shouldRemove_eq_false_iff truthful,
    presented_opens_iff rawBytes usable.existing chosen]
  constructor
  · rintro ⟨seen, checked⟩
    refine ⟨seen, ?_⟩
    intro other again
    rw [found] at again
    rwa [← Option.some.inj again]
  · intro confirmed
    exact ⟨confirmed.seen, confirmed.checked key found⟩

/-- No record of an existing dataset is deleted whose key opens it, exactly when each such record
that is looked at is confirmed. -/
theorem usable_records_kept_iff (system : System) (name : Option String)
    (opens : String → Material → Bool) (truthful : Truthful system opens)
    (rawBytes : RawBytes system opens) :
    (∀ record ∈ system.records, ∀ encryption, Usable system opens record encryption →
        record ∈ syncDbKeys system name) ↔
      (system.singleMasterNode = true → ∀ record ∈ system.records,
        selected system name record.name = true → ∀ encryption,
          Usable system opens record encryption →
            Confirmed system opens name record encryption) := by
  constructor
  · intro kept master record stored chosen encryption usable
    have left := (mem_syncDbKeys.mp (kept record stored encryption usable)).2 master
    exact (kept_iff_confirmed truthful rawBytes stored chosen usable).mp left
  · intro confirmed record stored encryption usable
    refine mem_syncDbKeys.mpr ⟨stored, fun master removed => ?_⟩
    have chosen := selected_of_mem_toRemove removed
    exact (kept_iff_confirmed truthful rawBytes stored chosen usable).mpr
      (confirmed master record stored chosen encryption usable) removed

end Usable

def rightKey (dataset : String) (key : Material) : Bool :=
  decide (key = if dataset = "tank/.system" then .bytes [0, 255] else .text "00ff")

def systemRecord : Record := ⟨1, "tank/.system", "00ff", none⟩

def dataRecord : Record := ⟨2, "tank/data", "00ff", none⟩

/-- A pool with both datasets and the right keys; `check_key` fails for those of `failing`. -/
def machine (failing : List String) : System where
  singleMasterNode := true
  poolNames := ["tank"]
  pools := [.node "tank" none [.node ".system" (some ⟨"tank/.system", .raw⟩) [],
    .node "data" (some ⟨"tank/data", .hex⟩) []]]
  unique := by decide
  records := [systemRecord, dataRecord]
  zfsKeys _ := none
  fromhex _ := some [0, 255]
  checkKey dataset key :=
    if dataset ∈ failing then .raises else .answers (rightKey dataset key)

theorem machine_truthful (failing : List String) : Truthful (machine failing) rightKey := by
  intro dataset key answer checked
  simp only [machine] at checked
  split_ifs at checked
  exact (Checked.answers.inj checked).symm

theorem machine_rawBytes (failing : List String) : RawBytes (machine failing) rightKey := by
  have raw : ∀ dataset ∈ queryPools false (machine failing).pools,
      ∀ encryption ∈ dataset.encryption, encryption.keyFormat = .raw →
        dataset.name = "tank/.system" := by
    change ∀ dataset ∈ queryPools false (machine []).pools,
      ∀ encryption ∈ dataset.encryption, encryption.keyFormat = .raw → dataset.name = "tank/.system"
    decide
  intro dataset existing encryption encrypted format text
  rw [raw dataset existing encryption encrypted format]
  simp [rightKey]

theorem usable_records_kept_data : dataRecord ∈ syncDbKeys (machine []) (some "tank/data") ∧
      Confirmed (machine []) rightKey (some "tank/data") dataRecord ⟨"tank/data", .hex⟩ := by
  have left : syncDbKeys (machine []) (some "tank/data") = (machine []).records := by decide
  refine ⟨by rw [left]; decide, ?_⟩
  refine (usable_records_kept_iff (machine []) (some "tank/data") rightKey (machine_truthful [])
    (machine_rawBytes [])).mp ?_ rfl dataRecord (by decide) (by decide) _
    ⟨by decide, "00ff", by decide, by decide⟩
  intro record stored _ _
  rw [left]
  exact stored

/-- Both keys open their datasets, and both records are deleted: `.system` is internal, so that its
raw key is checked as text, and for `data` the check has failed. -/
theorem usable_records_deleted :
    Truthful (machine ["tank/data"]) rightKey ∧ RawBytes (machine ["tank/data"]) rightKey ∧
      Usable (machine ["tank/data"]) rightKey systemRecord ⟨"tank/.system", .raw⟩ ∧
      Usable (machine ["tank/data"]) rightKey dataRecord ⟨"tank/data", .hex⟩ ∧
      syncDbKeys (machine ["tank/data"]) none = [] :=
  ⟨machine_truthful _, machine_rawBytes _, ⟨by decide, "00ff", by decide, by decide⟩,
    ⟨by decide, "00ff", by decide, by decide⟩, by decide⟩

end TruenasMiddleware.Datasets
