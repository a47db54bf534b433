import Mathlib.Algebra.Group.Nat.Defs
import Mathlib.Algebra.Ring.Int.Defs

/-! Entries of samba's `passdb.tdb` (`plugins/smb_/util_passdb.py`): integers of fixed width and
strings behind their length, without separators. -/

namespace TruenasMiddleware.Smb.Passdb

open List

abbrev Bytes := List UInt8

structure Format where
  width : Nat
  low : Int

def i : Format := ⟨4, -2 ^ 31⟩

def I : Format := ⟨4, 0⟩

def H : Format := ⟨2, 0⟩

abbrev Format.Fits (format : Format) (n : Int) : Prop :=
  format.low ≤ n ∧ n < format.low + 256 ^ format.width

def littleEndian : Nat → Nat → Bytes
  | 0, _ => []
  | width + 1, n => UInt8.ofNat n :: littleEndian width (n / 256)

def value : Bytes → Nat
  | [] => 0
  | byte :: rest => byte.toNat + 256 * value rest

/-- `none` is an exception, here and below. -/
def pack (format : Format) (n : Int) : Option Bytes :=
  if format.Fits n then some (littleEndian format.width (n % 256 ^ format.width).toNat) else none

/-- Unpacks from the front of the bytes that are left. -/
abbrev Unpack := StateT Bytes Option

def slice (length : Nat) : Unpack Bytes := fun bytes =>
  if length ≤ bytes.length then some (bytes.take length, bytes.drop length) else none

def unpack (format : Format) : Unpack Int := do
  let n := value (← slice format.width)
  return format.low + (n - format.low) % 256 ^ format.width

def packSambaPascalBytes (entry : Bytes) : Option Bytes := do
  return (← pack I entry.length) ++ entry

def packSambaPascalString (entry : String) : Option Bytes :=
  packSambaPascalBytes (entry.toUTF8.data.toList ++ [0])

def unpackSambaPascalBytes : Unpack Bytes := do slice (← unpack I).toNat

def unpackSambaPascalString : Unpack String := do
  String.fromUTF8? ⟨(← unpackSambaPascalBytes).dropLast.toArray⟩

def digits : List Char := "0123456789ABCDEF".toList

def hexByte (high low : Char) : Option UInt8 := do
  return .ofNat (16 * (← digits.idxOf? high.toUpper) + (← digits.idxOf? low.toUpper))

/-- `bytes.fromhex` of a text without blanks. -/
def fromhex : List Char → Option Bytes
  | high :: low :: rest => do return (← hexByte high low) :: (← fromhex rest)
  | [] => some []
  | [_] => none

def hex (bytes : Bytes) : List Char :=
  bytes.flatMap fun byte => [byte.toNat / 16, byte.toNat % 16].map (digits.getD · '0')

structure PDBTimes where
  (logon logoff kickoff badPassword passLastSet passCanChange passMustChange : Int)

def PDBTimes.all (times : PDBTimes) : List Int :=
  [times.logon, times.logoff, times.kickoff, times.badPassword, times.passLastSet,
    times.passCanChange, times.passMustChange]

structure PDBEntry where
  (username ntUsername domain fullName comment homeDir dirDrive logonScript profilePath : String)
  (userRid groupRid : Int)
  acctDesc : String
  acctCtrl : Int
  ntPw : String
  (logonCount badPwCount : Int)
  times : PDBTimes

def PDBEntry.texts (entry : PDBEntry) : List String :=
  [entry.username, entry.domain, entry.ntUsername, entry.fullName, entry.homeDir, entry.dirDrive,
    entry.logonScript, entry.profilePath, entry.acctDesc, "", entry.comment, ""]

/-- `data += …` over the packed fields. -/
def joined : List (Option Bytes) → Option Bytes
  | [] => some []
  | field :: fields => do return (← field) ++ (← joined fields)

def packPdbEntry (entry : PDBEntry) : Option Bytes :=
  joined (entry.times.all.map (pack i) ++ entry.texts.map packSambaPascalString ++
    [pack I entry.userRid, pack I entry.groupRid, packSambaPascalString "",
      fromhex entry.ntPw.toList >>= packSambaPascalBytes, packSambaPascalString "",
      pack I entry.acctCtrl, pack H 168, pack i 21, packSambaPascalBytes (replicate 21 0xff),
      pack H entry.badPwCount, pack H entry.logonCount, pack i 0x4ec])

def unpackPdbBytes : Bytes → Option PDBEntry := StateT.run' do
  let times : PDBTimes :=
    ⟨← unpack i, ← unpack i, ← unpack i, ← unpack i, ← unpack i, ← unpack i, ← unpack i⟩
  let username ← unpackSambaPascalString
  let domain ← unpackSambaPascalString
  let ntUsername ← unpackSambaPascalString
  let fullName ← unpackSambaPascalString
  let homeDir ← unpackSambaPascalString
  let dirDrive ← unpackSambaPascalString
  let logonScript ← unpackSambaPascalString
  let profilePath ← unpackSambaPascalString
  let acctDesc ← unpackSambaPascalString
  let _workstations ← unpackSambaPascalString
  let comment ← unpackSambaPascalString
  let _mungedDial ← unpackSambaPascalString
  let userRid ← unpack I
  let groupRid ← unpack I
  let _lmPw ← unpackSambaPascalBytes
  let ntPw := String.ofList (hex (← unpackSambaPascalBytes))
  let _ntPwHistory ← unpackSambaPascalBytes
  let acctCtrl ← unpack i
  let _logonDivs ← unpack H
  let _hoursLen ← unpack i
  let _hours ← unpackSambaPascalBytes
  let badPwCount ← unpack H
  let logonCount ← unpack H
  return ⟨username, ntUsername, domain, fullName, comment, homeDir, dirDrive, logonScript,
    profilePath, userRid, groupRid, acctDesc, acctCtrl, ntPw, logonCount, badPwCount, times⟩

theorem length_littleEndian (width n : Nat) : (littleEndian width n).length = width := by
  induction width generalizing n with
  | zero => rfl
  | succ width ih => rw [littleEndian, length_cons, ih]

theorem value_littleEndian (width n : Nat) : value (littleEndian width n) = n % 256 ^ width := by
  induction width generalizing n with
  | zero => rw [Nat.pow_zero, Nat.mod_one, littleEndian, value]
  | succ width ih =>
    rw [littleEndian, value, ih, Nat.pow_succ', Nat.mod_mul]
    rfl

section Fields

variable {α : Type} {packed : Option Bytes} {reader : Unpack α} {x : α}

def Reads (packed : Option Bytes) (reader : Unpack α) (x : α) : Prop :=
  ∃ bytes, packed = some bytes ∧ ∀ rest, reader.run (bytes ++ rest) = some (x, rest)

theorem run_slice {bytes : Bytes} {length : Nat} (is : bytes.length = length) (rest : Bytes) :
    (slice length).run (bytes ++ rest) = some (bytes, rest) := by
  subst is
  simp [slice, StateT.run]

theorem reads_pack {packing format : Format} {n : Int} (width : packing.width = format.width)
    (packs : packing.Fits n) (fits : format.Fits n) : Reads (pack packing n) (unpack format) n := by
  refine ⟨_, if_pos packs, fun rest => ?_⟩
  have positive : (0 : Int) < 256 ^ format.width := Int.pow_pos (by decide)
  have same : ((n % 256 ^ format.width).toNat % 256 ^ format.width : Nat) =
      n % 256 ^ format.width := by
    rw [Int.natCast_emod, Int.toNat_of_nonneg (Int.emod_nonneg n (Int.ne_of_gt positive))]
    exact Int.emod_emod _ _
  have back : format.low + (n - format.low) % 256 ^ format.width = n := by
    rw [Int.emod_eq_of_lt (by have := fits.1; omega) (by have := fits.2; omega)]
    omega
  simp only [unpack, StateT.run_bind, width, run_slice (length_littleEndian _ _)]
  simp [value_littleEndian, same, Int.emod_sub_emod, back]

theorem reads_bytes {entry : Bytes} (short : entry.length < 2 ^ 32) :
    Reads (packSambaPascalBytes entry) unpackSambaPascalBytes entry := by
  have fits : I.Fits entry.length := by
    simp only [Format.Fits, I]
    omega
  obtain ⟨bytes, packed, read⟩ := reads_pack rfl fits fits
  refine ⟨bytes ++ entry, by rw [packSambaPascalBytes, packed]; rfl, fun rest => ?_⟩
  rw [unpackSambaPascalBytes, StateT.run_bind, append_assoc, read]
  exact run_slice rfl rest

theorem reads_string {entry : String} (short : entry.utf8ByteSize + 1 < 2 ^ 32) :
    Reads (packSambaPascalString entry) unpackSambaPascalString entry := by
  obtain ⟨bytes, packed, read⟩ :=
    @reads_bytes (entry.toUTF8.data.toList ++ [0]) (by simpa using short)
  have decoded : String.fromUTF8? ⟨entry.toByteArray.data⟩ = some entry :=
    dif_pos entry.isValidUTF8
  refine ⟨bytes, packed, fun rest => ?_⟩
  simp [unpackSambaPascalString, read, decoded]

theorem hex_fromhex : (chars : List Char) → chars.length % 2 = 0 → chars.all digits.contains →
    ∃ bytes, fromhex chars = some bytes ∧ hex bytes = chars
  | [], _, _ => ⟨[], rfl, rfl⟩
  | high :: low :: rest, even, upper => by
    have pairs : digits.all fun high => digits.all fun low =>
        (hexByte high low).map (hex [·]) == some [high, low] := by
      decide +kernel
    simp only [all_eq_true, beq_iff_eq] at pairs
    simp only [all_cons, Bool.and_eq_true, contains_iff_mem] at upper
    obtain ⟨byte, first, back⟩ := Option.map_eq_some_iff.1 (pairs high upper.1 low upper.2.1)
    obtain ⟨bytes, packed, more⟩ := hex_fromhex rest (by simp at even; omega) upper.2.2
    refine ⟨byte :: bytes, by simp [fromhex, first, packed], ?_⟩
    rw [← singleton_append, hex, flatMap_append, ← hex, back, ← hex, more]
    rfl

theorem Reads.andThen {β : Type} {fields : List (Option Bytes)} {more : α → Unpack β} {y : β}
    (field : Reads packed reader x)
    (behind : (joined fields).bind (StateT.run' (more x)) = some y) :
    (joined (packed :: fields)).bind (StateT.run' (reader >>= more)) = some y := by
  obtain ⟨bytes, rfl, read⟩ := field
  cases others : joined fields with
  | none => cases others ▸ behind
  | some rest =>
    rw [others] at behind
    simpa [joined, others, StateT.run'_eq, read] using behind

end Fields

/-- What the fields have room for; the account control is written unsigned and read signed. -/
structure PDBEntry.Encodable (entry : PDBEntry) : Prop where
  times : ∀ n ∈ entry.times.all, i.Fits n
  texts : ∀ text ∈ entry.texts, text.utf8ByteSize + 1 < 2 ^ 32
  rids : I.Fits entry.userRid ∧ I.Fits entry.groupRid
  ntPw : entry.ntPw.length < 2 ^ 33 ∧ entry.ntPw.length % 2 = 0 ∧
    entry.ntPw.toList.all digits.contains
  acctCtrl : I.Fits entry.acctCtrl ∧ i.Fits entry.acctCtrl
  counters : H.Fits entry.badPwCount ∧ H.Fits entry.logonCount

/-- What is packed for an entry unpacks to it; the last integer is not read. -/
theorem unpackPdbBytes_packPdbEntry (entry : PDBEntry) (encodable : entry.Encodable) :
    (packPdbEntry entry).bind unpackPdbBytes = some entry := by
  obtain ⟨times, texts, rids, ⟨short, even, upper⟩, acctCtrl, counters⟩ := encodable
  obtain ⟨bytes, packed, back⟩ := hex_fromhex _ even upper
  have length : 2 * bytes.length = entry.ntPw.length := by
    rw [← String.length_toList, ← back]
    simp [hex, map_const', Nat.mul_comm]
  have int {f : Format} {n : Int} (fits : f.Fits n) := reads_pack rfl fits fits
  have empty := @reads_bytes [0] (by decide)
  rw [packPdbEntry, packed, Option.bind_eq_bind, Option.bind_some]
  -- field by field, in the order of the file
  iterate 7 refine (int (times _ (by simp [PDBTimes.all]))).andThen ?_
  iterate 12 refine (reads_string (texts _ (by simp [PDBEntry.texts]))).andThen ?_
  refine (int rids.1).andThen <| (int rids.2).andThen <| empty.andThen <|
    (reads_bytes (by omega)).andThen <| empty.andThen <|
    (@reads_pack I i _ rfl acctCtrl.1 acctCtrl.2).andThen ?_
  refine (int (by decide)).andThen <| (int (by decide)).andThen <|
    (reads_bytes (by decide)).andThen <| (int counters.1).andThen <| (int counters.2).andThen ?_
  rw [back, String.ofList_toList]
  rfl

theorem unpackPdbBytes_packPdbEntry_smbuser : ∃ entry, entry.username = "smbuser" ∧
    (packPdbEntry entry).bind unpackPdbBytes = some entry := by
  refine ⟨⟨"smbuser", "", "TEST", "", "", "", "", "", "", 20070, 513, "", 16, "B3F34FF0", 0, 0,
    0, 2085923199, 2085923199, 0, -1, 0, 0⟩, rfl, unpackPdbBytes_packPdbEntry _ ?_⟩
  constructor <;> decide +kernel

end TruenasMiddleware.Smb.Passdb
