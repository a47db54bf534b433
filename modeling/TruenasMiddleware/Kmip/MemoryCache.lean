import TruenasMiddleware.Foundation.Dict

/-! The keys that `push_zfs_keys` of `plugins/kmip/zfs_keys.py` leaves in memory. -/

namespace TruenasMiddleware.Kmip.MemoryCache

open List

/-- A row of `storage.encrypteddataset`, whose dataset exists; an empty key is none. -/
structure EncryptedDataset where
  id : Nat
  name : String
  encryptionKey : String
  kmipUid : Option Nat
deriving DecidableEq

structure Service where
  rows : List EncryptedDataset
  zfsKeys : List (String × String)

structure Answers where
  checkKey : String → String → Option Bool
  retrieveSecretData : Option Nat → Option String
  revokeAndDestroyKey : Nat → Bool
  registerSecretData : String → String → Option Nat

/-- What a name is compared with when it is looked for among the rows. -/
inductive Value
  | str (text : String)
  | dict (row : EncryptedDataset)
deriving DecidableEq

variable (service : Service)

def Service.update (id : Nat) (change : EncryptedDataset → EncryptedDataset) : Service :=
  { service with rows := service.rows.map fun row => if row.id = id then change row else row }

def Service.remember (name key : String) : Service :=
  { service with zfsKeys := Dict.set name key service.zfsKeys }

section Push

variable (answers : Answers)

/-- A key that is only on the server is fetched, unless the one in memory opens the dataset. -/
def retrieve (service : Service) (ds : EncryptedDataset) : Service :=
  if (service.zfsKeys.lookup ds.name).elim (some false) (answers.checkKey ds.name) = some false then
    (answers.retrieveSecretData ds.kmipUid).elim service (service.remember ds.name)
  else service

def pushRow (service : Service) (ds : EncryptedDataset) : Service :=
  if ds.encryptionKey = "" then retrieve answers service ds
  else
    let service := service.remember ds.name ds.encryptionKey
    match answers.registerSecretData ds.name ds.encryptionKey with
    | some uid =>
      service.update ds.id fun row => { row with encryptionKey := "", kmipUid := some uid }
    | none =>
      if ds.kmipUid.any answers.revokeAndDestroyKey then
        service.update ds.id fun row => { row with kmipUid := none }
      else service

def getEncryptedDatasets (ids : Option (List Nat)) : List EncryptedDataset :=
  service.rows.filter fun row => ids.all (·.contains row.id)

/-- At the end names are looked for among the rows, which are dictionaries. -/
def pushZfsKeys (ids : Option (List Nat)) (service : Service) : Service :=
  let existing := getEncryptedDatasets service ids
  let pushed := existing.foldl (pushRow answers) service
  { pushed with
    zfsKeys := pushed.zfsKeys.filter fun entry =>
      (existing.map Value.dict).contains (.str entry.1) }

end Push

/-- With KMIP enabled and managing ZFS keys. -/
def zfsKeysPendingSync : Bool :=
  service.rows.any fun ds =>
    ds.encryptionKey != "" || !(Dict.keys service.zfsKeys).contains ds.name

structure Exact (opens : String → String → Bool) (service : Service) : Prop where
  single : (Dict.keys service.zfsKeys).Nodup
  known : ∀ name ∈ Dict.keys service.zfsKeys, name ∈ service.rows.map EncryptedDataset.name
  working : ∀ row ∈ service.rows, ∃ key, service.zfsKeys.lookup row.name = some key ∧
    opens row.name key = true

variable (answers : Answers) (service : Service)

theorem zfsKeys_push (ids : Option (List Nat)) :
    (pushZfsKeys answers ids service).zfsKeys = [] := by
  simp [pushZfsKeys]

theorem length_pushRow (ds : EncryptedDataset) :
    (pushRow answers service ds).rows.length = service.rows.length := by
  unfold pushRow retrieve
  split_ifs
  · cases answers.retrieveSecretData ds.kmipUid <;> rfl
  · rfl
  all_goals
    split <;> simp [Service.update, Service.remember]

theorem length_push (ids : Option (List Nat)) :
    (pushZfsKeys answers ids service).rows.length = service.rows.length := by
  rw [pushZfsKeys]
  generalize getEncryptedDatasets service ids = existing
  induction existing generalizing service with
  | nil => rfl
  | cons ds rest ih => exact (ih _).trans (length_pushRow answers service ds)

/-- A push leaves no key in memory: what it promises about the cache holds for an empty table only,
and what it promises about other datasets where they have no keys in memory. -/
theorem memory_cache_iff (opens : String → String → Bool) :
    (Exact opens (pushZfsKeys answers none service) ∧
        zfsKeysPendingSync (pushZfsKeys answers none service) = false ↔ service.rows = []) ∧
    ∀ ids, (∀ row ∈ service.rows, row.id ∉ ids → ∀ key, service.zfsKeys.lookup row.name = some key →
        (pushZfsKeys answers (some ids) service).zfsKeys.lookup row.name = some key) ↔
      ∀ row ∈ service.rows, row.id ∉ ids → service.zfsKeys.lookup row.name = none := by
  have rows : (pushZfsKeys answers none service).rows = [] ↔ service.rows = [] := by
    rw [← length_eq_zero_iff, length_push, length_eq_zero_iff]
  constructor
  · rw [← rows]
    constructor
    · rintro ⟨exact, -⟩
      refine eq_nil_iff_forall_not_mem.mpr fun row member => ?_
      obtain ⟨key, found, -⟩ := exact.working row member
      rw [zfsKeys_push] at found
      cases found
    · intro empty
      refine ⟨⟨?_, ?_, ?_⟩, ?_⟩ <;> simp [zfsKeys_push, zfsKeysPendingSync, Dict.keys, empty]
  · intro ids
    simp only [zfsKeys_push, lookup_nil, reduceCtorEq, imp_false]
    simp only [← ne_eq, ← Option.eq_none_iff_forall_ne_some]

theorem pushed_key_forgotten :
    let service := pushZfsKeys ⟨fun _ _ => some true, fun _ => none, fun _ => true,
      fun _ _ => some 7⟩ none ⟨[⟨1, "tank", "key", none⟩], []⟩
    service.zfsKeys = [] ∧ service.rows = [⟨1, "tank", "", some 7⟩] ∧
      zfsKeysPendingSync service = true := by
  decide

end TruenasMiddleware.Kmip.MemoryCache
