import TruenasMiddleware.Tdb.Handle

/-! The cache of directory-service accounts: `plugins/directoryservices_/util_cache.py` and
`DSCache._insert` and `_retrieve`. One cache file holds the users or the groups; an account is
stored twice, under a key made from its id and under one made from its name. -/

namespace TruenasMiddleware.DirectoryServices

open Tdb List

inductive IdType
  | user
  | group

def cacheFile : IdType → String
  | .user => "directoryservice_cache_user.tdb"
  | .group => "directoryservice_cache_group.tdb"

def BASE_SYNTHETIC_DATASTORE_ID : Nat := 100000000

def SID_LOCAL_USER_PREFIX : Str := "S-1-22-1-".toList

def SID_LOCAL_GROUP_PREFIX : Str := "S-1-22-2-".toList

def SID_BUILTIN_PREFIX : Str := "S-1-5-32-".toList

instance encodableChar : Encodable Char :=
  Encodable.ofLeftInverse Char.toNat Char.ofNat Char.ofNat_toNat

variable {Details : Type}

/-- A `struct passwd` or `struct group`; `details` are the fields that are only copied. -/
structure NssEntry (Details : Type) where
  xid : Nat
  name : Str
  details : Details

structure Entry (Details : Type) where
  id : Nat
  xid : Nat
  name : Str
  sid : Option Str
  smb : Bool
  details : Details
deriving Encodable

inductive CacheValue (Details : Type)
  | entry (entry : Entry Details)
  | truenasVersion (version : Str)
  | expiration (timestamp : Nat)
deriving Encodable

def syntheticEntry (nss : NssEntry Details) (sid : Option Str) : Entry Details where
  id := BASE_SYNTHETIC_DATASTORE_ID + nss.xid
  xid := nss.xid
  name := nss.name
  sid := sid
  smb := sid.isSome
  details := nss.details

/-- Local and builtin accounts that the directory service reports are not cached. -/
def foreign (sid : Str) : Bool :=
  !([SID_LOCAL_USER_PREFIX, SID_LOCAL_GROUP_PREFIX, SID_BUILTIN_PREFIX].any (·.isPrefixOf sid))

/-- `_add_sid_info_to_entries` for one account; an account without a SID stays. -/
def addSidInfo (idmaps : Nat → Option Str) (nss : NssEntry Details) :
    Option (NssEntry Details × Option Str) :=
  match idmaps nss.xid with
  | none => some (nss, none)
  | some sid => if foreign sid then some (nss, some sid) else none

/-- The accounts that a fill stores, in order. `idmaps` is `none` where there is no client. -/
def entriesForCache (idmaps : Option (Nat → Option Str)) (accounts : List (NssEntry Details)) :
    List (Entry Details) :=
  let known :=
    match idmaps with
    | none => accounts.map fun nss => (nss, none)
    | some idmaps => accounts.filterMap (addSidInfo idmaps)
  (known.filter fun account => !account.1.name.isEmpty).map fun account =>
    syntheticEntry account.1 account.2

def digits (xid : Nat) : Str := Nat.toDigits 10 xid

def idKey (xid : Nat) : Str := 'I' :: 'D' :: '_' :: digits xid

def nameKey (name : Str) : Str := 'N' :: 'A' :: 'M' :: 'E' :: '_' :: name

def TRUENAS_CACHE_VERSION_KEY : Str := "TRUENAS_VERSION".toList

def CACHE_EXPIRATION_KEY : Str := "CACHE_EXPIRATION".toList

variable (json : JsonCodec (CacheValue Details))

variable (handle : Handle)

def tdbAddEntry (xid : Nat) (name : Str) (entry : Entry Details) : Except Error Handle := do
  let handle ← handle.store json.toCodec (idKey xid) (.entry entry)
  handle.store json.toCodec (nameKey name) (.entry entry)

def tdbAddEntries (handle : Handle) : List (Entry Details) → Except Error Handle
  | [] => pure handle
  | entry :: rest => do
    let handle ← tdbAddEntry json handle entry.xid entry.name entry
    tdbAddEntries handle rest

def fillCache (idType : IdType) (version : Str) (expiration : Nat)
    (entries : List (Entry Details)) : Except Error Handle := do
  let handle := (tdbHandle (cacheFile idType) .json).clear
  let handle ← handle.store json.toCodec TRUENAS_CACHE_VERSION_KEY (.truenasVersion version)
  let handle ← handle.store json.toCodec CACHE_EXPIRATION_KEY (.expiration expiration)
  tdbAddEntries json handle entries

/-- The name is not used: both keys are made from the id. -/
def insertCacheEntry (xid : Nat) (_name : Str) (entry : Entry Details) : Except Error Handle :=
  (handle.batchOp json.toCodec []
    [.set (idKey xid) (.entry entry), .set (nameKey (digits xid)) (.entry entry)]).map Prod.fst

def retrieveCacheEntry (name : Str) (xid : Option Nat) : Except Error (CacheValue Details) :=
  match xid with
  | some xid => handle.get json.toCodec (idKey xid)
  | none => handle.get json.toCodec (nameKey name)

/-- What the name service and `idmap.synthetic_user` answer on a miss: nothing, a local account,
or an account with the SID found for it. -/
inductive NssAnswer (Details : Type)
  | keyError
  | localAccount (sid : Option Str)
  | account (nss : NssEntry Details) (sid : Option Str)

/-- `DSCache._retrieve` on a cache miss: the entry, and whether it is to be inserted. -/
def lookupNss (smb : Bool) : NssAnswer Details → Option (Entry Details)
  | .keyError => none
  | .localAccount _ => none
  | .account nss sid => if smb && sid.isNone then none else some (syntheticEntry nss sid)

def stripSid (smb : Bool) (entry : Entry Details) : Entry Details :=
  if smb then entry else { entry with sid := none }

/-- `DSCache._retrieve`. An error of the cache other than a miss is raised; one of the insert is
only logged. -/
def retrieve (who : Str) (xid : Option Nat) (smb : Bool)
    (answer : NssAnswer Details) : Except Error (Handle × Option (CacheValue Details)) :=
  match retrieveCacheEntry json handle who xid with
  | .ok (.entry entry) => .ok (handle, some (.entry (stripSid smb entry)))
  | .ok other => .ok (handle, some other)
  | .error (.matchNotFound _) =>
    match lookupNss smb answer with
    | none => .ok (handle, none)
    | some entry =>
      let found := some (.entry (stripSid smb entry))
      match insertCacheEntry json handle entry.xid entry.name entry with
      | .ok inserted => .ok (inserted, found)
      | .error _ => .ok (handle, found)
  | .error error => .error error

/-! Histories of a cache file. -/

inductive Change (Details : Type)
  | fill (version : Str) (expiration : Nat) (idmaps : Option (Nat → Option Str))
      (accounts : List (NssEntry Details))
  | insert (entry : Entry Details)

/-- A raising fill is not committed, and a raising insert is rolled back. -/
def change (idType : IdType) (handle : Handle) : Change Details → Handle
  | .fill version expiration idmaps accounts =>
    match fillCache json idType version expiration (entriesForCache idmaps accounts) with
    | .ok filled => filled
    | .error _ => handle
  | .insert entry =>
    match insertCacheEntry json handle entry.xid entry.name entry with
    | .ok inserted => inserted
    | .error _ => handle

def cacheAfter (idType : IdType) (changes : List (Change Details)) : Handle :=
  changes.foldl (change json idType) (tdbHandle (cacheFile idType) .json)

def written (changes : List (Change Details)) : List (Entry Details) :=
  changes.foldl
    (fun entries change =>
      match change with
      | .fill _ _ idmaps accounts => entriesForCache idmaps accounts
      | .insert entry => entries ++ [entry])
    []

variable (idType : IdType)

theorem digits_injective : Function.Injective digits := by
  intro left right eq
  have values := congrArg (fun text => Nat.ofDigitChars 10 text 0) eq
  simpa [digits, Nat.ofDigitChars_toDigits] using values

theorem idKey_injective : Function.Injective idKey := by
  intro left right eq
  simp only [idKey, List.cons.injEq, true_and] at eq
  exact digits_injective eq

theorem nameKey_injective : Function.Injective nameKey := by
  intro left right eq
  simpa [nameKey] using eq

theorem idKey_ne_nameKey (xid : Nat) (name : Str) : idKey xid ≠ nameKey name := by
  simp [idKey, nameKey]

variable {entries : List (Entry Details)} {handle : Handle}

theorem tdbAddEntry_spec (type : handle.dataType = .json) (xid : Nat) (name : Str)
    (entry : Entry Details) :
    ∃ added, tdbAddEntry json handle xid name entry = .ok added ∧ added.dataType = .json ∧
      (∀ other, added.get json.toCodec (idKey other) =
        if other = xid then .ok (.entry entry) else handle.get json.toCodec (idKey other)) ∧
      ∀ other, added.get json.toCodec (nameKey other) =
        if other = name then .ok (.entry entry) else handle.get json.toCodec (nameKey other) := by
  obtain ⟨first, stored, kept, reads⟩ := Handle.get_store json type (idKey xid) (.entry entry)
  obtain ⟨second, again, eq, answers⟩ :=
    Handle.get_store json kept (nameKey name) (.entry entry)
  refine ⟨second, ?_, eq, ?_, ?_⟩
  · simp only [tdbAddEntry, stored, bind, Except.bind, again]
  · intro other
    simp only [answers, reads, idKey_injective.eq_iff, if_neg (idKey_ne_nameKey other name)]
  · intro other
    simp only [answers, reads, nameKey_injective.eq_iff,
      if_neg (Ne.symm (idKey_ne_nameKey xid other))]

theorem insertCacheEntry_eq (handle : Handle) (xid : Nat) (name : Str) (entry : Entry Details) :
    insertCacheEntry json handle xid name entry =
      tdbAddEntry json handle xid (digits xid) entry := by
  rw [insertCacheEntry, tdbAddEntry, Handle.batchOp]
  cases handle.store json.toCodec (idKey xid) (.entry entry) with
  | error error => rfl
  | ok first =>
    simp only [bind, Except.bind, Handle.batchOp]
    cases first.store json.toCodec (nameKey (digits xid)) (.entry entry) <;> rfl

def latest (property : Entry Details → Bool) (entries : List (Entry Details)) :
    Option (Entry Details) :=
  (entries.filter property).getLast?

theorem latest_append (property : Entry Details → Bool) (entries : List (Entry Details))
    (entry : Entry Details) :
    latest property (entries ++ [entry]) =
      if property entry then some entry else latest property entries := by
  rw [latest, filter_append]
  cases holds : property entry <;> simp [holds, latest]

variable {property : Entry Details → Bool} {entry : Entry Details} {changes : List (Change Details)}

theorem latest_holds (found : latest property entries = some entry) : property entry :=
  (mem_filter.mp (List.mem_of_getLast? found)).2

theorem latest_of_current {before after : List (Entry Details)}
    (holds : property entry) (later : ∀ other ∈ after, ¬property other) :
    latest property (before ++ entry :: after) = some entry := by
  have none : after.filter property = [] := filter_eq_nil_iff.mpr later
  rw [latest, filter_append, filter_cons_of_pos holds, none]
  simp

def answered (key : Str) : Option (Entry Details) → Except Error (CacheValue Details)
  | some entry => .ok (.entry entry)
  | none => .error (.matchNotFound key)

/-- The cache answers the last entry written with the id, and the last one with the name. -/
structure Mirrors (handle : Handle) (entries : List (Entry Details)) : Prop where
  type : handle.dataType = .json
  byId : ∀ xid, handle.get json.toCodec (idKey xid) =
    answered (idKey xid) (latest (fun entry => decide (entry.xid = xid)) entries)
  byName : ∀ name, handle.get json.toCodec (nameKey name) =
    answered (nameKey name) (latest (fun entry => decide (entry.name = name)) entries)

theorem Mirrors.add (mirrors : Mirrors json handle entries) (entry : Entry Details) :
    ∃ added, tdbAddEntry json handle entry.xid entry.name entry = .ok added ∧
      Mirrors json added (entries ++ [entry]) := by
  obtain ⟨added, stored, type, byId, byName⟩ :=
    tdbAddEntry_spec json mirrors.type entry.xid entry.name entry
  refine ⟨added, stored, type, ?_, ?_⟩
  · intro xid
    rw [byId, mirrors.byId, latest_append]
    by_cases eq : xid = entry.xid
    · simp [eq, answered]
    · simp [eq, Ne.symm eq]
  · intro name
    rw [byName, mirrors.byName, latest_append]
    by_cases eq : name = entry.name
    · simp [eq, answered]
    · simp [eq, Ne.symm eq]

theorem Mirrors.addAll (mirrors : Mirrors json handle entries) (more : List (Entry Details)) :
    ∃ added, tdbAddEntries json handle more = .ok added ∧ Mirrors json added (entries ++ more) := by
  induction more generalizing handle entries with
  | nil => exact ⟨handle, rfl, (append_nil entries).symm ▸ mirrors⟩
  | cons entry rest ih =>
    obtain ⟨first, stored, mirrors⟩ := mirrors.add json entry
    obtain ⟨added, all, mirrors⟩ := ih mirrors
    refine ⟨added, ?_, append_assoc entries [entry] rest ▸ mirrors⟩
    simp only [tdbAddEntries, stored, bind, Except.bind, all]

theorem mirrors_empty : Mirrors json (tdbHandle (cacheFile idType) .json) [] :=
  ⟨rfl, fun _ => rfl, fun _ => rfl⟩

theorem Mirrors.store (mirrors : Mirrors json handle entries) (key : Str)
    (value : CacheValue Details) (notId : key.head? ≠ some 'I') (notName : key.head? ≠ some 'N') :
    ∃ stored, handle.store json.toCodec key value = .ok stored ∧ Mirrors json stored entries := by
  obtain ⟨stored, done, type, reads⟩ := Handle.get_store json mirrors.type key value
  refine ⟨stored, done, type, ?_, ?_⟩
  · intro xid
    have other : idKey xid ≠ key := fun eq => notId (eq ▸ rfl)
    rw [reads, if_neg other, mirrors.byId]
  · intro name
    have other : nameKey name ≠ key := fun eq => notName (eq ▸ rfl)
    rw [reads, if_neg other, mirrors.byName]

theorem fillCache_mirrors (version : Str) (expiration : Nat) (entries : List (Entry Details)) :
    ∃ filled, fillCache json idType version expiration entries = .ok filled ∧
      Mirrors json filled entries := by
  have start : Mirrors json (tdbHandle (cacheFile idType) .json).clear [] :=
    mirrors_empty json idType
  obtain ⟨first, versioned, mirrors⟩ := start.store json TRUENAS_CACHE_VERSION_KEY
    (.truenasVersion version) (by decide) (by decide)
  obtain ⟨second, expires, mirrors⟩ := mirrors.store json CACHE_EXPIRATION_KEY
    (.expiration expiration) (by decide) (by decide)
  obtain ⟨filled, all, mirrors⟩ := mirrors.addAll json entries
  refine ⟨filled, ?_, mirrors⟩
  simp only [fillCache, versioned, bind, Except.bind, expires, all]

/-- The inserts of a history whose names are the digits of their ids. -/
def NamedByDigits (changes : List (Change Details)) : Prop :=
  ∀ entry, .insert entry ∈ changes → entry.name = digits entry.xid

theorem cacheAfter_append (changes : List (Change Details)) (last : Change Details) :
    cacheAfter json idType (changes ++ [last]) =
      change json idType (cacheAfter json idType changes) last := by
  rw [cacheAfter, foldl_append, foldl_cons, foldl_nil, ← cacheAfter]

theorem mirrors_cacheAfter (named : NamedByDigits changes) :
    Mirrors json (cacheAfter json idType changes) (written changes) := by
  induction changes using reverseRecOn with
  | nil => exact mirrors_empty json idType
  | append_singleton before last ih =>
    have mirrors := ih fun entry mem => named entry (mem_append_left _ mem)
    rw [cacheAfter_append, written, foldl_append, foldl_cons, foldl_nil, ← written]
    cases last with
    | fill version expiration idmaps accounts =>
      obtain ⟨filled, done, mirrors⟩ := fillCache_mirrors json idType version expiration
        (entriesForCache idmaps accounts)
      simp only [change, done]
      exact mirrors
    | insert entry =>
      have name := named entry (mem_append_right _ (mem_singleton_self _))
      obtain ⟨added, done, mirrors⟩ := mirrors.add json entry
      simp only [change, insertCacheEntry_eq, ← name, done]
      exact mirrors

/-- An entry that was stored since the last fill, with nothing under its id or name after it. -/
def Current (changes : List (Change Details)) (entry : Entry Details) : Prop :=
  ∃ before after, written changes = before ++ entry :: after ∧
    ∀ later ∈ after, later.xid ≠ entry.xid ∧ later.name ≠ entry.name

/-- Lookups answer entries with the id or name asked for, and find every current entry. -/
structure Coherent (idType : IdType) (changes : List (Change Details)) : Prop where
  byName : ∀ name value,
    retrieveCacheEntry json (cacheAfter json idType changes) name none = .ok value →
      ∃ entry, value = .entry entry ∧ entry.name = name
  byId : ∀ name xid value,
    retrieveCacheEntry json (cacheAfter json idType changes) name (some xid) = .ok value →
      ∃ entry, value = .entry entry ∧ entry.xid = xid
  found : ∀ entry, Current changes entry →
    (∀ name, retrieveCacheEntry json (cacheAfter json idType changes) name (some entry.xid) =
      .ok (.entry entry)) ∧
    retrieveCacheEntry json (cacheAfter json idType changes) entry.name none = .ok (.entry entry)

theorem answered_eq_ok {key : Str} {found : Option (Entry Details)} {value : CacheValue Details}
    (answer : answered key found = .ok value) :
    ∃ entry, found = some entry ∧ value = .entry entry := by
  cases found with
  | none => cases answer
  | some entry => exact ⟨entry, rfl, (Except.ok.inj answer).symm⟩

theorem Mirrors.coherent {idType : IdType}
    (mirrors : Mirrors json (cacheAfter json idType changes) (written changes)) :
    Coherent json idType changes where
  byName := by
    intro name value answer
    rw [retrieveCacheEntry, mirrors.byName] at answer
    obtain ⟨entry, last, rfl⟩ := answered_eq_ok answer
    exact ⟨entry, rfl, of_decide_eq_true (latest_holds last)⟩
  byId := by
    intro name xid value answer
    rw [retrieveCacheEntry, mirrors.byId] at answer
    obtain ⟨entry, last, rfl⟩ := answered_eq_ok answer
    exact ⟨entry, rfl, of_decide_eq_true (latest_holds last)⟩
  found := by
    rintro entry ⟨before, after, history, later⟩
    constructor
    · intro name
      rw [retrieveCacheEntry, mirrors.byId, history, latest_of_current (decide_eq_true rfl)]
      · rfl
      · intro other mem
        simpa using (later other mem).1
    · rw [retrieveCacheEntry, mirrors.byName, history, latest_of_current (decide_eq_true rfl)]
      · rfl
      · intro other mem
        simpa using (later other mem).2

theorem cacheAfter_dataType (changes : List (Change Details)) :
    (cacheAfter json idType changes).dataType = .json := by
  induction changes using reverseRecOn with
  | nil => rfl
  | append_singleton before last ih =>
    rw [cacheAfter_append]
    cases last with
    | fill version expiration idmaps accounts =>
      obtain ⟨filled, done, mirrors⟩ := fillCache_mirrors json idType version expiration
        (entriesForCache idmaps accounts)
      simp only [change, done, mirrors.type]
    | insert entry =>
      obtain ⟨added, done, type, -⟩ := tdbAddEntry_spec json ih entry.xid (digits entry.xid) entry
      simp only [change, insertCacheEntry_eq, done, type]

theorem get_inserted (changes : List (Change Details)) (entry : Entry Details) :
    retrieveCacheEntry json (cacheAfter json idType (changes ++ [.insert entry]))
      (digits entry.xid) none = .ok (.entry entry) := by
  obtain ⟨added, done, -, -, byName⟩ := tdbAddEntry_spec json
    (cacheAfter_dataType json idType changes) entry.xid (digits entry.xid) entry
  rw [cacheAfter_append]
  simp only [change, insertCacheEntry_eq, done, retrieveCacheEntry, byName, if_true]

/-- What a retrieval fetches from the name service is inserted, and from then on retrievals by its
id answer it, whatever the name service says. -/
theorem retrieve_fetched {who key : Str} {xid : Option Nat} {smb : Bool}
    {answer : NssAnswer Details}
    (miss : retrieveCacheEntry json (cacheAfter json idType changes) who xid =
      .error (.matchNotFound key))
    (given : lookupNss smb answer = some entry) :
    ∃ after, after = cacheAfter json idType (changes ++ [.insert entry]) ∧
      retrieve json (cacheAfter json idType changes) who xid smb answer =
        .ok (after, some (.entry (stripSid smb entry))) ∧
      ∀ who smb answer, retrieve json after who (some entry.xid) smb answer =
        .ok (after, some (.entry (stripSid smb entry))) := by
  obtain ⟨after, done, -, byId, -⟩ := tdbAddEntry_spec json
    (cacheAfter_dataType json idType changes) entry.xid (digits entry.xid) entry
  refine ⟨after, ?_, ?_, fun _ _ _ => ?_⟩
  · simp only [cacheAfter_append, change, insertCacheEntry_eq, done]
  · simp only [retrieve, miss, given, insertCacheEntry_eq, done]
  · simp only [retrieve, retrieveCacheEntry, byId, if_true]

/-- The name key of an inserted entry is made from its id, so the cache answers for another name
and not for the entry's own, unless the two are the same text. -/
theorem coherent_iff_namedByDigits (idType : IdType) (changes : List (Change Details)) :
    (∀ before, before <+: changes → Coherent json idType before) ↔ NamedByDigits changes := by
  constructor
  · intro coherent entry inside
    obtain ⟨before, after, rfl⟩ := append_of_mem inside
    have known := coherent (before ++ [.insert entry]) ⟨after, by simp⟩
    have answer := get_inserted json idType before entry
    obtain ⟨other, same, name⟩ := known.byName (digits entry.xid) (.entry entry) answer
    obtain rfl := CacheValue.entry.inj same
    exact name
  · intro named before part
    exact (mirrors_cacheAfter json idType fun entry inside =>
      named entry (part.subset inside)).coherent json

def numbered (Value : Type) [Encodable Value] : JsonCodec Value where
  dumps _ value := some (encode (digits (Encodable.encode value)))
  loads _ raw := (decode raw).toOption.bind fun text =>
    Encodable.decode (Nat.ofDigitChars 10 text 0)
  loads_dumps := by
    intro type value raw dumped
    cases dumped
    simp [decode_encode, Except.toOption, digits, Nat.ofDigitChars_toDigits]
  lossless := by
    intro value
    refine ⟨_, rfl, ?_⟩
    simp [decode_encode, Except.toOption, digits, Nat.ofDigitChars_toDigits]

def alice : Entry Unit := syntheticEntry ⟨3001, ['a', 'l', 'i', 'c', 'e'], ()⟩ none

theorem retrieve_fetched_alice : ∃ after, retrieve (numbered (CacheValue Unit)) after [] (some 3001)
    true .keyError = .ok (after, some (.entry alice)) := by
  have miss : retrieveCacheEntry (numbered (CacheValue Unit))
      (cacheAfter (numbered (CacheValue Unit)) .user []) [] none =
    .error (.matchNotFound (nameKey [])) := rfl
  have given : lookupNss false (.account ⟨3001, alice.name, ()⟩ none) = some alice := rfl
  obtain ⟨after, -, -, again⟩ := retrieve_fetched _ .user miss given
  exact ⟨after, again [] true .keyError⟩

theorem inserted_found_by_digits : retrieveCacheEntry (numbered (CacheValue Unit))
      (cacheAfter (numbered (CacheValue Unit)) .user [.insert alice]) (digits 3001) none =
        .ok (.entry alice) ∧ alice.name ≠ digits 3001 :=
  ⟨get_inserted (numbered (CacheValue Unit)) .user [] alice, by decide⟩

end TruenasMiddleware.DirectoryServices
