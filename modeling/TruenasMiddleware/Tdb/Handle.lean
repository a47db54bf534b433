import TruenasMiddleware.Foundation.Dict
import Mathlib

/-! `utils/tdb.py`: the handle on a local TDB file and the one on a clustered database. The two
share everything but the flag for terminated keys and `entries`. A binding stores raw bytes; a
text is the list of its characters. -/

namespace TruenasMiddleware.Tdb

open List Option Dict

abbrev Str := List Char

inductive DataType
  | bytes
  | json
  | string
deriving DecidableEq

/-- The conversions of values: `b64decode`, `json.dumps` or `str.encode` on the way in, and the
reverse on the way out. `none` raises; what was written can be read. -/
structure Codec (Value : Type) where
  dumps : DataType → Value → Option ByteArray
  loads : DataType → ByteArray → Option Value
  loads_dumps : ∀ {type value raw}, dumps type value = some raw → (loads type raw).isSome

instance lawfulBEqByteArray : LawfulBEq ByteArray where
  eq_of_beq same := ByteArray.ext (eq_of_beq (α := Array UInt8) same)
  rfl {bytes} := beq_self_eq_true bytes.data

abbrev Raw := List (ByteArray × ByteArray)

/-- The order in which a binding lists what it holds is its own. -/
structure Binding where
  iter : Raw → Raw
  iter_perm : ∀ raw, (iter raw).Perm raw

inductive Error
  | matchNotFound (key : Str)
  | noExist
  | value
  | decode

structure Handle where
  dataType : DataType
  keysNullTerminated : Bool
  raw : Raw := []

def tdbHandle (basename : String) (dataType : DataType) : Handle :=
  ⟨dataType, match basename with
    | "gencache.tdb" => true
    | "secrets.tdb" => false
    | "group_mapping.tdb" => true
    | "group_mapping_rejects.tdb" => true
    | "passdb.tdb" => true
    | _ => dataType = .bytes, []⟩

def ctdbHandle (dataType : DataType) : Handle := ⟨dataType, true, []⟩

def encode (text : Str) : ByteArray := (String.ofList text).toByteArray

def decode (raw : ByteArray) : Except Error Str :=
  match raw.utf8Decode? with
  | some text => .ok text.toList
  | none => .error .decode

def NUL : Char := '\x00'

def skipped (keyPrefix : Option Str) (key : Str) : Bool :=
  keyPrefix.any fun start => !start.isPrefixOf key

namespace Handle

variable {Value : Type} (codec : Codec Value) (handle : Handle)

def tdbKey (key : Str) : ByteArray :=
  if handle.keysNullTerminated then encode key ++ encode [NUL] else encode key

def parseValue (raw : ByteArray) : Except Error Value :=
  match codec.loads handle.dataType raw with
  | some value => .ok value
  | none => .error .value

def fetched (key : Str) : Option ByteArray → Except Error Value
  | some raw => handle.parseValue codec raw
  | none => .error (.matchNotFound key)

def get (key : Str) : Except Error Value :=
  handle.fetched codec key (handle.raw.lookup (handle.tdbKey key))

def store (key : Str) (value : Value) : Except Error Handle :=
  match codec.dumps handle.dataType value with
  | some raw => .ok { handle with raw := Dict.set (handle.tdbKey key) raw handle.raw }
  | none => .error .value

/-- The binding raises for a key that it does not hold. -/
def delete (key : Str) : Except Error Handle :=
  if handle.tdbKey key ∈ Dict.keys handle.raw then
    .ok { handle with raw := pop (handle.tdbKey key) handle.raw }
  else .error .noExist

def clear : Handle := { handle with raw := [] }

/-- The loop of `TDBHandle.entries` over the keys of the binding. -/
def tdbEntriesLoop (handle : Handle) (keyPrefix : Option Str) :
    List ByteArray → Except Error (List (Str × Value))
  | [] => pure []
  | raw :: rest => do
    let key ← decode raw
    let key := if handle.keysNullTerminated then key.dropLast else key
    if skipped keyPrefix key then handle.tdbEntriesLoop keyPrefix rest
    else
      let value ← handle.get codec key
      let later ← handle.tdbEntriesLoop keyPrefix rest
      pure ((key, value) :: later)

def tdbEntries (binding : Binding) (handle : Handle) (keyPrefix : Option Str) :
    Except Error (List (Str × Value)) :=
  handle.tdbEntriesLoop codec keyPrefix (Dict.keys (binding.iter handle.raw))

/-- The loop of `CTDBHandle.entries`, which does not strip the terminator of a key. -/
def ctdbEntriesLoop (handle : Handle) (keyPrefix : Option Str) :
    Raw → Except Error (List (Str × Value))
  | [] => pure []
  | (raw, val) :: rest => do
    let key ← decode raw
    if skipped keyPrefix key then handle.ctdbEntriesLoop keyPrefix rest
    else
      let value ← handle.parseValue codec val
      let later ← handle.ctdbEntriesLoop keyPrefix rest
      pure ((key, value) :: later)

def ctdbEntries (binding : Binding) (handle : Handle) (keyPrefix : Option Str) :
    Except Error (List (Str × Value)) :=
  handle.ctdbEntriesLoop codec keyPrefix (binding.iter handle.raw)

end Handle

inductive BatchOperation (Value : Type)
  | get (key : Str)
  | set (key : Str) (value : Value)
  | del (key : Str)

/-- `TDBHandle.batch_op`: the answers of its `GET`s, by key. An error cancels the transaction, so
the handle after it is the one before. -/
def Handle.batchOp {Value : Type} (codec : Codec Value) (handle : Handle)
    (output : List (Str × Value)) :
    List (BatchOperation Value) → Except Error (Handle × List (Str × Value))
  | [] => pure (handle, output)
  | .set key value :: rest => do
    let handle ← handle.store codec key value
    handle.batchOp codec output rest
  | .del key :: rest => do
    let handle ← handle.delete key
    handle.batchOp codec output rest
  | .get key :: rest => do
    let value ← handle.get codec key
    handle.batchOp codec (Dict.set key value output) rest

/-! Sequences of operations, on a handle and on the logical store that both are meant to be. -/

inductive Operation (Value : Type)
  | store (key : Str) (value : Value)
  | get (key : Str)
  | delete (key : Str)
  | entries (keyPrefix : Option Str)

variable {Value : Type} (codec : Codec Value) (handle : Handle)

/-- A raising operation changes nothing. -/
def Handle.perform : Operation Value → Handle
  | .store key value =>
    match handle.store codec key value with
    | .ok stored => stored
    | .error _ => handle
  | .delete key =>
    match handle.delete key with
    | .ok deleted => deleted
    | .error _ => handle
  | .get _ => handle
  | .entries _ => handle

def Handle.run (operations : List (Operation Value)) : Handle :=
  operations.foldl (Handle.perform codec) handle

abbrev Store := List (Str × ByteArray)

def Store.perform (dataType : DataType) (store : Store) : Operation Value → Store
  | .store key value =>
    match codec.dumps dataType value with
    | some raw => Dict.set key raw store
    | none => store
  | .delete key => pop key store
  | .get _ => store
  | .entries _ => store

def Store.run (dataType : DataType) (operations : List (Operation Value)) : Store :=
  operations.foldl (Store.perform codec dataType) []

theorem decode_encode (text : Str) : decode (encode text) = .ok text := by
  rw [decode, encode, String.toByteArray_ofList, List.utf8Decode?_utf8Encode]

theorem encode_append (left right : Str) :
    encode (left ++ right) = encode left ++ encode right := by
  simp [encode, String.toByteArray_ofList]

theorem encode_injective : Function.Injective encode := by
  intro left right eq
  have decoded := congrArg decode eq
  rw [decode_encode, decode_encode] at decoded
  exact Except.ok.inj decoded

namespace Handle

def terminated (key : Str) : Str :=
  if handle.keysNullTerminated then key ++ [NUL] else key

theorem tdbKey_eq (key : Str) :
    handle.tdbKey key = encode (handle.terminated key) := by
  rw [tdbKey, terminated]
  split
  · exact (encode_append key [NUL]).symm
  · rfl

theorem tdbKey_injective : Function.Injective handle.tdbKey := by
  intro left right eq
  rw [tdbKey_eq, tdbKey_eq] at eq
  have texts := encode_injective eq
  rw [terminated, terminated] at texts
  split at texts
  · exact append_cancel_right texts
  · exact texts

end Handle

def Handle.Refines (store : Store) : Prop :=
  handle.raw = rename handle.tdbKey store

variable {store : Store} {handle : Handle}

theorem Handle.Refines.perform (refines : handle.Refines store) (operation : Operation Value) :
    (handle.perform codec operation).Refines (store.perform codec handle.dataType operation) := by
  cases operation with
  | store key value =>
    rw [Handle.perform, Handle.store, Store.perform]
    cases codec.dumps handle.dataType value with
    | none => exact refines
    | some raw =>
      have kept := rename_set handle.tdbKey_injective store key raw
      exact (congrArg (Dict.set (handle.tdbKey key) raw) refines).trans kept.symm
  | delete key =>
    have kept := rename_pop handle.tdbKey_injective store key
    have popped := (congrArg (pop (handle.tdbKey key)) refines).trans kept.symm
    rw [Handle.perform, Handle.delete, Store.perform]
    by_cases held : handle.tdbKey key ∈ Dict.keys handle.raw
    · rw [if_pos held]
      exact popped
    · rw [if_neg held]
      exact (pop_of_not_mem held).symm.trans popped
  | get | entries => exact refines

theorem Handle.perform_eq (handle : Handle) (operation : Operation Value) :
    handle.perform codec operation =
      { handle with raw := (handle.perform codec operation).raw } := by
  cases operation with
  | store key value =>
    rw [Handle.perform, Handle.store]
    cases codec.dumps handle.dataType value <;> rfl
  | delete key =>
    rw [Handle.perform, Handle.delete]
    by_cases held : handle.tdbKey key ∈ Dict.keys handle.raw
    · rw [if_pos held]
    · rw [if_neg held]
  | _ => rfl

theorem Handle.Refines.run (refines : handle.Refines store) (operations : List (Operation Value)) :
    ∃ raw, handle.run codec operations = { handle with raw := raw } ∧
      (handle.run codec operations).Refines
        (operations.foldl (Store.perform codec handle.dataType) store) := by
  induction operations generalizing handle store with
  | nil => exact ⟨handle.raw, rfl, refines⟩
  | cons operation rest ih =>
    have performed := refines.perform codec operation
    have eq := handle.perform_eq codec operation
    obtain ⟨raw, ends, refined⟩ := ih performed
    rw [eq] at ends refined
    rw [Handle.run, foldl_cons, ← Handle.run, eq]
    exact ⟨raw, ends, refined⟩

structure Store.Sound (dataType : DataType) (store : Store) : Prop where
  nodup : (Dict.keys store).Nodup
  readable : ∀ entry ∈ store, (codec.loads dataType entry.2).isSome

variable {dataType : DataType} {keyPrefix : Option Str}

theorem Store.Sound.perform (sound : Store.Sound codec dataType store)
    (operation : Operation Value) :
    Store.Sound codec dataType (store.perform codec dataType operation) := by
  cases operation with
  | store key value =>
    rw [Store.perform]
    cases dumped : codec.dumps dataType value with
    | none => exact sound
    | some raw =>
      refine ⟨nodup_set sound.nodup key raw, ?_⟩
      intro entry mem
      rcases Dict.mem_set mem with rfl | old
      · exact codec.loads_dumps dumped
      · exact sound.readable entry old
  | delete key =>
    exact ⟨nodup_pop sound.nodup key, fun entry mem =>
      sound.readable entry (mem_of_mem_filter mem)⟩
  | get | entries => exact sound

theorem Store.sound_run (dataType : DataType) (operations : List (Operation Value)) :
    Store.Sound codec dataType (Store.run codec dataType operations) := by
  have start : Store.Sound codec dataType [] := ⟨nodup_nil, nofun⟩
  rw [Store.run]
  generalize ([] : Store) = store at start ⊢
  induction operations generalizing store with
  | nil => exact start
  | cons operation rest ih => exact ih _ (start.perform codec operation)

theorem Store.stored_of_mem {operations : List (Operation Value)} {key : Str}
    (mem : key ∈ Dict.keys (Store.run codec dataType operations)) :
    ∃ value, .store key value ∈ operations := by
  induction operations using reverseRecOn with
  | nil => simp [Store.run, Dict.keys] at mem
  | append_singleton before last ih =>
    have earlier : key ∈ Dict.keys (Store.run codec dataType before) →
        ∃ value, .store key value ∈ before ++ [last] := by
      intro mem
      obtain ⟨value, there⟩ := ih mem
      exact ⟨value, mem_append_left _ there⟩
    rw [Store.run, foldl_append, foldl_cons, foldl_nil, ← Store.run] at mem
    cases last with
    | store other value =>
      rw [Store.perform] at mem
      split at mem
      · rcases (mem_keys_set _).mp mem with rfl | old
        · exact ⟨value, mem_append_right _ (mem_singleton_self _)⟩
        · exact earlier old
      · exact earlier mem
    | delete other => exact earlier (map_subset _ (filter_subset_self _) mem)
    | get | entries => exact earlier mem

theorem Handle.Refines.get (refines : handle.Refines store) (key : Str) :
    handle.get codec key = handle.fetched codec key (store.lookup key) := by
  rw [Handle.get, refines, lookup_rename handle.tdbKey_injective]

def Store.listing (dataType : DataType) (shown : Str → Str) (keyPrefix : Option Str)
    (store : Store) : List (Str × Value) :=
  store.filterMap fun entry =>
    if skipped keyPrefix (shown entry.1) then none
    else (codec.loads dataType entry.2).map fun value => (shown entry.1, value)

namespace Handle.Refines

variable {handle : Handle} {store part : Store} (refines : handle.Refines store)
include refines

theorem iter (binding : Binding) :
    ∃ part : Store, part.Perm store ∧ binding.iter handle.raw = rename handle.tdbKey part := by
  have listed := binding.iter_perm handle.raw
  have image : ∀ raw ∈ binding.iter handle.raw,
      raw ∈ Set.range fun entry : Str × ByteArray => (handle.tdbKey entry.1, entry.2) := by
    intro raw mem
    have stored := listed.mem_iff.mp mem
    rw [refines] at stored
    obtain ⟨entry, -, eq⟩ := mem_map.mp stored
    exact ⟨entry, eq⟩
  have injective :
      Function.Injective fun entry : Str × ByteArray => (handle.tdbKey entry.1, entry.2) := by
    intro left right eq
    obtain ⟨keys, values⟩ := Prod.mk.inj eq
    exact Prod.ext (handle.tdbKey_injective keys) values
  obtain ⟨part, eq⟩ := (Set.range_list_map _).ge image
  refine ⟨part, (map_perm_map_iff injective).mp ?_, eq.symm⟩
  rw [eq]
  exact listed.trans (.of_eq refines)

variable (sound : Store.Sound codec handle.dataType store)
include sound

theorem get_of_mem {key : Str} {raw : ByteArray}
    (mem : (key, raw) ∈ store) : handle.get codec key = handle.parseValue codec raw := by
  rw [refines.get, lookup_of_mem sound.nodup mem, fetched]

theorem tdbEntriesLoop_eq (keyPrefix : Option Str) (inside : part ⊆ store) :
    handle.tdbEntriesLoop codec keyPrefix (Dict.keys (rename handle.tdbKey part)) =
      .ok (Store.listing codec handle.dataType id keyPrefix part) := by
  induction part with
  | nil => rfl
  | cons entry rest ih =>
    obtain ⟨key, raw⟩ := entry
    have later := ih (subset_of_cons_subset inside)
    have stripped : (if handle.keysNullTerminated then (handle.terminated key).dropLast
        else handle.terminated key) = key := by
      rw [terminated]
      split <;> simp
    have here := inside mem_cons_self
    obtain ⟨value, read⟩ := isSome_iff_exists.mp (sound.readable _ here)
    have answer : handle.get codec key = .ok value := by
      rw [refines.get_of_mem codec sound here, parseValue, read]
    rw [rename, map_cons, ← rename, Dict.keys, map_cons, ← Dict.keys,
      tdbEntriesLoop, tdbKey_eq, decode_encode, Store.listing, filterMap_cons,
      ← Store.listing]
    simp only [bind, Except.bind, stripped, id_eq, later, answer, read, map_some]
    split <;> rfl

theorem tdbEntries_eq (binding : Binding) (keyPrefix : Option Str) :
    ∃ part : Store, part.Perm store ∧ handle.tdbEntries codec binding keyPrefix =
      .ok (Store.listing codec handle.dataType id keyPrefix part) := by
  obtain ⟨part, listed, eq⟩ := refines.iter binding
  refine ⟨part, listed, ?_⟩
  rw [tdbEntries, eq]
  exact refines.tdbEntriesLoop_eq codec sound keyPrefix listed.subset

omit refines in
omit sound in
theorem ctdbEntriesLoop_eq (keyPrefix : Option Str)
    (readable : ∀ entry ∈ part, (codec.loads handle.dataType entry.2).isSome) :
    handle.ctdbEntriesLoop codec keyPrefix (rename handle.tdbKey part) =
      .ok (Store.listing codec handle.dataType handle.terminated keyPrefix part) := by
  induction part with
  | nil => rfl
  | cons entry rest ih =>
    obtain ⟨key, raw⟩ := entry
    have later := ih fun entry mem => readable entry (mem_cons_of_mem _ mem)
    obtain ⟨value, read⟩ := isSome_iff_exists.mp (readable _ mem_cons_self)
    have answer : handle.parseValue codec raw = .ok value := by rw [parseValue, read]
    rw [rename, map_cons, ← rename, ctdbEntriesLoop, tdbKey_eq, decode_encode,
      Store.listing, filterMap_cons, ← Store.listing]
    simp only [bind, Except.bind, later, answer, read, map_some]
    split <;> rfl

theorem ctdbEntries_eq (binding : Binding) (keyPrefix : Option Str) :
    ∃ part : Store, part.Perm store ∧ handle.ctdbEntries codec binding keyPrefix =
      .ok (Store.listing codec handle.dataType handle.terminated keyPrefix part) := by
  obtain ⟨part, listed, eq⟩ := refines.iter binding
  refine ⟨part, listed, ?_⟩
  rw [ctdbEntries, eq]
  exact ctdbEntriesLoop_eq codec keyPrefix fun entry mem =>
    sound.readable entry (listed.subset mem)

end Handle.Refines

theorem Store.mem_listing {shown : Str → Str} {pair : Str × Value} :
    pair ∈ Store.listing codec dataType shown keyPrefix store ↔
      ∃ entry ∈ store, skipped keyPrefix (shown entry.1) = false ∧
        codec.loads dataType entry.2 = some pair.2 ∧ shown entry.1 = pair.1 := by
  obtain ⟨key, value⟩ := pair
  rw [Store.listing, mem_filterMap]
  refine exists_congr fun entry => and_congr_right fun _ => ?_
  cases skipped keyPrefix (shown entry.1) with
  | true => simp
  | false =>
    simp only [Bool.false_eq_true, if_false, map_eq_some_iff, Prod.mk.injEq, true_and]
    constructor
    · rintro ⟨read, found, eq, rfl⟩
      exact ⟨found, eq⟩
    · rintro ⟨found, eq⟩
      exact ⟨value, found, eq, rfl⟩

theorem skipped_append {key : Str} (more : Str) (shown : skipped keyPrefix key = false) :
    skipped keyPrefix (key ++ more) = false := by
  cases keyPrefix with
  | none => rfl
  | some start =>
    simp only [skipped, any_some, Bool.not_eq_false', isPrefixOf_iff_prefix] at shown ⊢
    exact shown.trans (prefix_append key more)

/-- Every key that `entries` yields was stored, and `get` of it answers the yielded value. -/
def Coherent (operations : List (Operation Value)) (handle : Handle)
    (listed : Except Error (List (Str × Value))) : Prop :=
  ∃ pairs, listed = .ok pairs ∧ ∀ pair ∈ pairs,
    (∃ value, .store pair.1 value ∈ operations) ∧ handle.get codec pair.1 = .ok pair.2

def SamePairs (left right : Except Error (List (Str × Value))) : Prop :=
  ∃ first second, left = .ok first ∧ right = .ok second ∧ first.Perm second

/-- A handle that has come to keep the store of `operations`. -/
def Handle.Keeps (handle : Handle) (operations : List (Operation Value)) : Prop :=
  handle.Refines (Store.run codec handle.dataType operations)

theorem Handle.keeps_run (handle : Handle) (empty : handle.raw = [])
    (operations : List (Operation Value)) :
    (handle.run codec operations).Keeps codec operations ∧
      (handle.run codec operations).dataType = handle.dataType ∧
      (handle.run codec operations).terminated = handle.terminated := by
  have start : handle.Refines [] := by rw [Handle.Refines, empty]; rfl
  obtain ⟨raw, ends, refined⟩ := start.run codec operations
  refine ⟨?_, by rw [ends], ?_⟩
  · rw [ends] at refined ⊢
    exact refined
  · rw [ends]
    rfl

namespace Handle.Keeps

variable {handle : Handle} {operations : List (Operation Value)}
  (keeps : handle.Keeps codec operations)
include keeps

theorem tdb_coherent (binding : Binding) (keyPrefix : Option Str) :
    Coherent codec operations handle (handle.tdbEntries codec binding keyPrefix) := by
  have sound := Store.sound_run codec handle.dataType operations
  obtain ⟨part, listed, yields⟩ := keeps.tdbEntries_eq codec sound binding keyPrefix
  refine ⟨_, yields, ?_⟩
  intro pair mem
  obtain ⟨entry, here, -, read, eq⟩ := (Store.mem_listing codec).mp mem
  have stored := listed.subset here
  rw [← eq]
  refine ⟨Store.stored_of_mem codec (mem_map_of_mem stored), ?_⟩
  rw [id_eq, keeps.get_of_mem codec sound stored, parseValue, read]

theorem unbounded {key : Str}
    (stored : key ∈ Dict.keys (Store.run codec handle.dataType operations))
    (shown : skipped keyPrefix (key ++ [NUL]) = false)
    (found : ∀ other ∈ Dict.keys (Store.run codec handle.dataType operations),
      skipped keyPrefix (other ++ [NUL]) = false →
        ∃ value, handle.get codec (other ++ [NUL]) = .ok value) (size : Nat) :
    ∃ other ∈ Dict.keys (Store.run codec handle.dataType operations),
      skipped keyPrefix (other ++ [NUL]) = false ∧ size ≤ other.length := by
  induction size with
  | zero => exact ⟨key, stored, shown, Nat.zero_le _⟩
  | succ size ih =>
    obtain ⟨other, stored, shown, long⟩ := ih
    obtain ⟨value, answer⟩ := found other stored shown
    refine ⟨other ++ [NUL], ?_, skipped_append [NUL] shown, ?_⟩
    · rw [keeps.get] at answer
      cases lookup : (Store.run codec handle.dataType operations).lookup (other ++ [NUL]) with
      | none => simp [lookup, fetched] at answer
      | some raw => exact exists_lookup.mp ⟨_, lookup⟩
    · rw [length_append, length_singleton]
      omega

theorem ctdb_coherent_iff (terminated : handle.terminated = (· ++ [NUL])) (binding : Binding)
    (keyPrefix : Option Str) :
    Coherent codec operations handle (handle.ctdbEntries codec binding keyPrefix) ↔
      ∀ key ∈ Dict.keys (Store.run codec handle.dataType operations),
        skipped keyPrefix (key ++ [NUL]) := by
  have sound := Store.sound_run codec handle.dataType operations
  obtain ⟨part, listed, yields⟩ := keeps.ctdbEntries_eq codec sound binding keyPrefix
  rw [yields, terminated]
  constructor
  · rintro ⟨pairs, eq, coherent⟩ key stored
    obtain rfl := Except.ok.inj eq
    by_contra shown
    have found : ∀ other ∈ Dict.keys (Store.run codec handle.dataType operations),
        skipped keyPrefix (other ++ [NUL]) = false →
        ∃ value, handle.get codec (other ++ [NUL]) = .ok value := by
      intro other stored shown
      obtain ⟨entry, mem, rfl⟩ := mem_map.mp stored
      obtain ⟨value, read⟩ := isSome_iff_exists.mp (sound.readable entry mem)
      have yielded : (entry.1 ++ [NUL], value) ∈
          Store.listing codec handle.dataType (· ++ [NUL]) keyPrefix part :=
        (Store.mem_listing codec).mpr ⟨entry, listed.symm.subset mem, shown, read, rfl⟩
      exact ⟨value, (coherent _ yielded).2⟩
    -- each key would have a longer one, but there are only so many
    obtain ⟨other, mem, -, long⟩ := keeps.unbounded codec stored
      (Bool.not_eq_true _ ▸ shown) found
      ((((Dict.keys (Store.run codec handle.dataType operations)).map length).sum) + 1)
    have short := le_sum_of_mem (mem_map_of_mem (f := length) mem)
    omega
  · intro hidden
    refine ⟨_, rfl, ?_⟩
    intro pair yielded
    obtain ⟨entry, mem, shown, -⟩ := (Store.mem_listing codec).mp yielded
    have covered := hidden entry.1 (mem_map_of_mem (listed.subset mem))
    rw [covered] at shown
    cases shown

end Handle.Keeps

theorem Store.listing_eq_nil {part : Store}
    (hidden : ∀ key ∈ Dict.keys store, skipped keyPrefix (key ++ [NUL])) (listed : part.Perm store)
    (shown : Str → Str) (shorter : ∀ key, ∃ more, key ++ [NUL] = shown key ++ more) :
    Store.listing codec dataType shown keyPrefix part = [] := by
  refine eq_nil_iff_forall_not_mem.mpr fun pair mem => ?_
  obtain ⟨entry, here, seen, -⟩ := (Store.mem_listing codec).mp mem
  obtain ⟨more, eq⟩ := shorter entry.1
  have covered := hidden entry.1 (mem_map_of_mem (listed.subset here))
  rw [eq, skipped_append more seen] at covered
  cases covered

/-- The local handle is coherent. The clustered one is, and lists what the local one lists,
exactly when it has nothing to list: no stored key, with its terminator, passes the filter. -/
theorem entries_agree_iff (tdb ctdb : Binding) (basename : String) (dataType : DataType)
    (operations : List (Operation Value)) (keyPrefix : Option Str) :
    Coherent codec operations ((tdbHandle basename dataType).run codec operations)
      (((tdbHandle basename dataType).run codec operations).tdbEntries codec tdb keyPrefix) ∧
    ((Coherent codec operations ((ctdbHandle dataType).run codec operations)
        (((ctdbHandle dataType).run codec operations).ctdbEntries codec ctdb keyPrefix) ∧
      SamePairs
        (((tdbHandle basename dataType).run codec operations).tdbEntries codec tdb keyPrefix)
        (((ctdbHandle dataType).run codec operations).ctdbEntries codec ctdb keyPrefix)) ↔
      ∀ key ∈ Dict.keys (Store.run codec dataType operations),
        skipped keyPrefix (key ++ [NUL])) := by
  obtain ⟨held, localType, -⟩ := (tdbHandle basename dataType).keeps_run codec rfl operations
  obtain ⟨keeps, type, terminated⟩ := (ctdbHandle dataType).keeps_run codec rfl operations
  refine ⟨held.tdb_coherent codec tdb keyPrefix, ?_⟩
  generalize (tdbHandle basename dataType).run codec operations = first at held localType ⊢
  generalize (ctdbHandle dataType).run codec operations = second at keeps type terminated ⊢
  have shape : second.terminated = (· ++ [NUL]) := terminated
  have coherent := keeps.ctdb_coherent_iff codec shape ctdb keyPrefix
  obtain rfl : dataType = second.dataType := type.symm
  refine ⟨fun both => coherent.mp both.1, fun hidden => ⟨coherent.mpr hidden, ?_⟩⟩
  have agreed : first.dataType = second.dataType := localType
  obtain ⟨part, listed, yields⟩ := Handle.Refines.tdbEntries_eq codec held
    (Store.sound_run codec first.dataType operations) tdb keyPrefix
  obtain ⟨other, ordered, lists⟩ := Handle.Refines.ctdbEntries_eq codec keeps
    (Store.sound_run codec second.dataType operations) ctdb keyPrefix
  rw [agreed] at yields listed
  refine ⟨_, _, yields, lists, ?_⟩
  rw [shape, Store.listing_eq_nil codec hidden listed id fun key => ⟨[NUL], rfl⟩,
    Store.listing_eq_nil codec hidden ordered (· ++ [NUL]) fun key => ⟨[], (append_nil _).symm⟩]

/-- A codec that reads back what it wrote as JSON, whatever the value. -/
structure JsonCodec (Value : Type) extends Codec Value where
  lossless : ∀ value, ∃ raw, dumps .json value = some raw ∧ loads .json raw = some value

theorem Handle.get_store (json : JsonCodec Value) (type : handle.dataType = .json) (key : Str)
    (value : Value) :
    ∃ stored, handle.store json.toCodec key value = .ok stored ∧ stored.dataType = .json ∧
      ∀ other, stored.get json.toCodec other =
        if other = key then .ok value else handle.get json.toCodec other := by
  obtain ⟨raw, dumped, read⟩ := json.lossless value
  refine ⟨{ handle with raw := Dict.set (handle.tdbKey key) raw handle.raw }, ?_, type, ?_⟩
  · rw [Handle.store, type, dumped]
  · intro other
    have looked := lookup_set handle.raw (handle.tdbKey key) (handle.tdbKey other) raw
    change handle.fetched json.toCodec other
      ((Dict.set (handle.tdbKey key) raw handle.raw).lookup (handle.tdbKey other)) = _
    rw [looked]
    by_cases eq : other = key
    · rw [if_pos eq, if_pos (congrArg _ eq), Handle.fetched, Handle.parseValue, type, read]
    · rw [if_neg eq, if_neg (handle.tdbKey_injective.ne eq), Handle.get]

/-- The conversions of a handle for strings; the other types raise. -/
def stringCodec : Codec Str where
  dumps
    | .string, value => some (encode value)
    | _, _ => none
  loads
    | .string, raw => (decode raw).toOption
    | _, _ => none
  loads_dumps := by
    intro type value raw dumped
    cases type with
    | string =>
      cases dumped
      change (decode (encode value)).toOption.isSome
      rw [decode_encode]
      rfl
    | _ => cases dumped

def keyStored : Handle :=
  (ctdbHandle .string).run stringCodec [.store ['k'] ['v']]

/-- The clustered handle yields the stored key with a terminator and cannot find it. -/
theorem ctdb_entries_keep_terminator :
    keyStored.ctdbEntries stringCodec ⟨id, fun _ => .refl _⟩ none = .ok [(['k', NUL], ['v'])] ∧
      keyStored.get stringCodec ['k', NUL] = .error (.matchNotFound ['k', NUL]) := by
  constructor
  · rfl
  · rfl

end TruenasMiddleware.Tdb
