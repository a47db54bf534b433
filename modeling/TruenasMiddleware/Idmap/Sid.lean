import Mathlib.Algebra.Group.Nat.Defs
import Mathlib.Logic.Basic
import Mathlib.Tactic.SplitIfs

/-! `sid_is_valid`, `random_sid` and `db_id_to_rid` of `utils/sid.py`. -/

namespace TruenasMiddleware.Sid

open Nat List

def DOM_SID_PREFIX : String := "S-1-5-21-"

def DOM_SID_SUBAUTHS : Nat := 3

def MAX_VALUE_SUBAUTH : Nat := 2 ^ 32

def BASE_RID_USER : Nat := 20000

def BASE_RID_GROUP : Nat := 200000

def BASE_SYNTHETIC_DATASTORE_ID : Nat := 100000000

def VALID_API_SIDS : List String :=
  ["S-1-1-0", "S-1-3-4", "S-1-5-32-544", "S-1-5-32-545", "S-1-5-32-546"]

/-- `str.isdigit`, and the digits that `int` reads. They differ outside ASCII: `²` is a digit, and
`int` refuses it. -/
structure Digits where
  isDigit : Char → Bool
  value : Char → Option Nat
  ascii : ∀ char, char.toNat < 128 → isDigit char = char.isDigit ∧
    value char = if char.isDigit then some (char.toNat - '0'.toNat) else none

variable (py : Digits)

/-- `int` of a text for which `isdigit` holds: it refuses more than 4300 digits. -/
def int (text : List Char) : Option Nat :=
  if 4300 < text.length then none
  else text.foldlM (fun number char => (py.value char).map (10 * number + ·)) 0

def checkSubauth (text : List Char) : Option Bool :=
  if text = [] ∨ text.all py.isDigit = false then some false
  else (int py text).map fun number => decide (1 ≤ number ∧ number ≤ MAX_VALUE_SUBAUTH)

def checkSubauths : List (List Char) → Option Bool
  | [] => some true
  | part :: parts =>
    (checkSubauth py part).bind fun valid => if valid then checkSubauths parts else some false

def subauths (sid : String) : List (List Char) :=
  (sid.toList.drop DOM_SID_PREFIX.length).splitOn '-'

def isDomain (sid : String) : Bool :=
  DOM_SID_PREFIX.toList.isPrefixOf sid.toList &&
    decide (DOM_SID_SUBAUTHS ≤ (subauths sid).length ∧ (subauths sid).length ≤ DOM_SID_SUBAUTHS + 1)

def sidIsValid (sid : String) : Option Bool :=
  if sid ∈ VALID_API_SIDS then some true
  else if isDomain sid then checkSubauths py (subauths sid)
  else some false

def randomSid (subauth₁ subauth₂ subauth₃ : Fin (2 ^ 32)) : String :=
  DOM_SID_PREFIX ++ toString subauth₁.val ++ "-" ++ toString subauth₂.val ++ "-" ++
    toString subauth₃.val

inductive IDType
  | user
  | group

def IDType.base : IDType → Nat
  | .user => BASE_RID_USER
  | .group => BASE_RID_GROUP

def dbIdToRid (idType : IDType) (dbId : Nat) : Option Nat :=
  if BASE_SYNTHETIC_DATASTORE_ID ≤ dbId then none else some (dbId + idType.base)

def Number (text : List Char) : Prop :=
  text ≠ [] ∧ text.all Char.isDigit = true ∧ ofDigitChars 10 text 0 < 2 ^ 32

/-- The call returns, and beside the whitelist it accepts what the syntax allows. -/
def Judged (sid : String) : Prop :=
  ∃ verdict, sidIsValid py sid = some verdict ∧ (sid ∉ VALID_API_SIDS →
    (verdict = true ↔ isDomain sid = true ∧ ∀ part ∈ subauths sid, Number part))

section Parts

def AllDigits (text : List Char) : Prop := text ≠ [] ∧ ∀ char ∈ text, py.isDigit char = true

/-- `int` raises for more than 4300 digits, and for a digit without a decimal value. -/
def Unreadable (text : List Char) : Prop :=
  AllDigits py text ∧ (4300 < text.length ∨ ∃ char ∈ text, py.value char = none)

/-- A part that is not made of digits, or is the number zero or one above 2 ^ 32. -/
def Refused (text : List Char) : Prop :=
  ¬ AllDigits py text ∨ ∃ number, int py text = some number ∧ (number = 0 ∨ 2 ^ 32 < number)

def Positive (text : List Char) : Prop :=
  Number text ∧ text.length ≤ 4300 ∧ ofDigitChars 10 text 0 ≠ 0

/-- All parts are positive numbers that fit and can be read; or not all are numbers that fit, and a
part that is refused stands before all that cannot be read. -/
def Plain (parts : List (List Char)) : Prop :=
  (∀ part ∈ parts, Positive part) ∨
    (∃ part ∈ parts, ¬ Number part) ∧ ∃ before refused after,
      parts = before ++ refused :: after ∧ Refused py refused ∧
        ∀ part ∈ before, ¬ Unreadable py part

end Parts

theorem checkSubauths_eq (parts : List (List Char)) : checkSubauths py parts =
    ((parts.find? fun part => checkSubauth py part ≠ some true).map (checkSubauth py)).getD
      (some true) := by
  induction parts with
  | nil => rfl
  | cons part parts ih =>
    rw [checkSubauths, List.find?_cons]
    rcases verdict : checkSubauth py part with _ | _ | _ <;> simp [verdict, ih]

theorem toNat_lt_of_isDigit {char : Char} (digit : char.isDigit = true) : char.toNat < 128 := by
  have bound := (Bool.and_eq_true_iff.mp digit).2
  have small : char.val.toNat ≤ 57 := UInt32.le_iff_toNat_le.mp (of_decide_eq_true bound)
  exact Nat.lt_of_le_of_lt small (by decide)

theorem int_eq {text : List Char} (digits : text.all Char.isDigit = true)
    (short : text.length ≤ 4300) : int py text = some (ofDigitChars 10 text 0) := by
  rw [int, if_neg (Nat.not_lt.mpr short)]
  clear short
  generalize 0 = number
  induction text generalizing number with
  | nil => rfl
  | cons char text ih =>
    obtain ⟨digit, rest⟩ := Bool.and_eq_true_iff.mp digits
    have value := (py.ascii char (toNat_lt_of_isDigit digit)).2
    rw [if_pos digit] at value
    rw [foldlM_cons, value, ofDigitChars_cons]
    exact ih rest _

variable {text : List Char}

theorem foldlM_value_eq_none (number : Nat) :
    text.foldlM (fun number char => (py.value char).map (10 * number + ·)) number = none ↔
      ∃ char ∈ text, py.value char = none := by
  induction text generalizing number with
  | nil => simp
  | cons char text ih => cases value : py.value char <;> simp [foldlM_cons, value, ih]

theorem int_eq_none : int py text = none ↔
    4300 < text.length ∨ ∃ char ∈ text, py.value char = none := by
  rw [int]
  split_ifs with long
  · exact iff_of_true rfl (.inl long)
  · rw [foldlM_value_eq_none, or_iff_right long]

theorem checkSubauth_of_not_digits (other : ¬ AllDigits py text) :
    checkSubauth py text = some false := by
  rw [checkSubauth, if_pos]
  simpa [AllDigits, or_iff_not_imp_left] using other

theorem checkSubauth_of_digits (digits : AllDigits py text) : checkSubauth py text =
    (int py text).map fun number => decide (1 ≤ number ∧ number ≤ 2 ^ 32) := by
  rw [checkSubauth, if_neg, MAX_VALUE_SUBAUTH]
  simpa [AllDigits, not_or] using digits

theorem checkSubauth_eq_none : checkSubauth py text = none ↔ Unreadable py text := by
  by_cases digits : AllDigits py text
  · rw [checkSubauth_of_digits py digits, Option.map_eq_none_iff, int_eq_none, Unreadable,
      and_iff_right digits]
  · rw [checkSubauth_of_not_digits py digits, Unreadable]
    simp [digits]

theorem checkSubauth_eq_false : checkSubauth py text = some false ↔ Refused py text := by
  by_cases digits : AllDigits py text
  · rw [checkSubauth_of_digits py digits, Refused, or_iff_right (not_not.mpr digits),
      Option.map_eq_some_iff]
    refine exists_congr fun number => and_congr_right fun _ => ?_
    rw [decide_eq_false_iff_not]
    omega
  · exact iff_of_true (checkSubauth_of_not_digits py digits) (.inl digits)

theorem allDigits_of_number (number : Number text) : AllDigits py text := by
  refine ⟨number.1, fun char mem => ?_⟩
  have digit := all_eq_true.mp number.2.1 char mem
  rw [(py.ascii char (toNat_lt_of_isDigit digit)).1, digit]

theorem checkSubauth_of_number (number : Number text) : checkSubauth py text = some true ↔
    text.length ≤ 4300 ∧ ofDigitChars 10 text 0 ≠ 0 := by
  rw [checkSubauth_of_digits py (allDigits_of_number py number)]
  by_cases short : text.length ≤ 4300
  · have fits := number.2.2
    rw [int_eq py number.2.1 short, Option.map_some, Option.some.injEq, decide_eq_true_eq]
    omega
  · have raises := (int_eq_none py).mpr (.inl (Nat.not_le.mp short))
    simp [raises, short]

theorem plain_iff (parts : List (List Char)) : Plain py parts ↔
    match parts.find? fun part => checkSubauth py part ≠ some true with
    | none => ∀ part ∈ parts, Number part
    | some stop => checkSubauth py stop = some false ∧ ∃ part ∈ parts, ¬ Number part := by
  have passes : ∀ part, Positive part → checkSubauth py part = some true :=
    fun part positive => (checkSubauth_of_number py positive.1).mpr positive.2
  cases found : parts.find? fun part => checkSubauth py part ≠ some true with
  | none =>
    have all : ∀ part ∈ parts, checkSubauth py part = some true := by
      simpa using find?_eq_none.mp found
    constructor
    · rintro (positive | ⟨-, before, refused, after, rfl, verdict, -⟩)
      · exact fun part mem => (positive part mem).1
      · have wrong := all refused (by simp)
        rw [(checkSubauth_eq_false py).mpr verdict] at wrong
        cases wrong
    · exact fun numbers => .inl fun part mem =>
        ⟨numbers part mem, (checkSubauth_of_number py (numbers part mem)).mp (all part mem)⟩
  | some stop =>
    have stops : checkSubauth py stop ≠ some true := by simpa using List.find?_some found
    have inside := List.mem_of_find?_eq_some found
    constructor
    · rintro (positive | ⟨other, before, refused, after, rfl, verdict, readable⟩)
      · exact absurd (passes stop (positive stop inside)) stops
      · refine ⟨?_, other⟩
        rw [← checkSubauth_eq_false] at verdict
        rw [find?_append] at found
        cases earlier : before.find? fun part => checkSubauth py part ≠ some true with
        | none =>
          rw [earlier] at found
          simp only [Option.none_or, List.find?_cons, verdict] at found
          obtain rfl : refused = stop := by simpa using found
          exact verdict
        | some first =>
          rw [earlier] at found
          obtain rfl : first = stop := by simpa using found
          have returns := mt (checkSubauth_eq_none py).mp
            (readable first (List.mem_of_find?_eq_some earlier))
          rcases here : checkSubauth py first with _ | _ | _
          · exact absurd here returns
          · rfl
          · exact absurd here stops
    · rintro ⟨refused, other⟩
      obtain ⟨-, before, after, eq, earlier⟩ := find?_eq_some_iff_append.mp found
      refine .inr ⟨other, before, stop, after, eq, (checkSubauth_eq_false py).mp refused,
        fun part mem unreadable => ?_⟩
      have passed := earlier part mem
      rw [(checkSubauth_eq_none py).mpr unreadable] at passed
      simp at passed

theorem judged_iff (sid : String) : Judged py sid ↔
    (sid ∉ VALID_API_SIDS → isDomain sid = true → Plain py (subauths sid)) := by
  by_cases listed : sid ∈ VALID_API_SIDS
  · exact iff_of_true ⟨true, if_pos listed, fun unlisted => absurd listed unlisted⟩
      fun unlisted => absurd listed unlisted
  by_cases domain : isDomain sid = true
  · rw [Judged, sidIsValid, if_neg listed, if_pos domain, checkSubauths_eq, plain_iff]
    cases found : (subauths sid).find? fun part => checkSubauth py part ≠ some true with
    | none => simp [listed, domain]
    | some stop =>
      have stops : checkSubauth py stop ≠ some true := by simpa using List.find?_some found
      rcases verdict : checkSubauth py stop with _ | _ | _
      · simp [listed, domain, verdict]
      · simp [listed, domain, verdict]
      · exact absurd verdict stops
  · simp [Judged, sidIsValid, listed, domain]

theorem checkSubauth_toDigits {number : Nat} (fits : number < 2 ^ 32) :
    checkSubauth py (toDigits 10 number) = some (decide (number ≠ 0)) := by
  have digits : (toDigits 10 number).all Char.isDigit = true := all_eq_true.mpr
    fun char => isDigit_of_mem_toDigits (by decide) (by decide)
  have isDigits : (toDigits 10 number).all py.isDigit = true := by
    refine all_eq_true.mpr fun char mem => ?_
    have digit := all_eq_true.mp digits char mem
    rw [(py.ascii char (toNat_lt_of_isDigit digit)).1, digit]
  have short : (toDigits 10 number).length ≤ 10 :=
    (length_toDigits_le_iff (by decide) (by decide)).mpr (by omega)
  rw [checkSubauth, if_neg (by simp [toDigits_ne_nil, isDigits]), int_eq py digits (by omega),
    ofDigitChars_toDigits (by decide) (by decide)]
  refine congrArg some (decide_eq_decide.mpr ?_)
  rw [MAX_VALUE_SUBAUTH]
  omega

variable {numbers : List Nat}

theorem checkSubauths_map (fits : ∀ number ∈ numbers, number < 2 ^ 32) :
    checkSubauths py (numbers.map (toDigits 10)) =
      some (decide (∀ number ∈ numbers, number ≠ 0)) := by
  induction numbers with
  | nil => rfl
  | cons number numbers ih =>
    obtain ⟨first, rest⟩ := forall_mem_cons.mp fits
    rw [map_cons, checkSubauths, checkSubauth_toDigits py first, ih rest]
    by_cases zero : number = 0 <;> simp [zero]

theorem sidIsValid_numbers (numbers : List Nat) {sid : String}
    (chars : sid.toList = DOM_SID_PREFIX.toList ++ ['-'].intercalate (numbers.map (toDigits 10)))
    (many : 3 ≤ numbers.length ∧ numbers.length ≤ 4) (fits : ∀ number ∈ numbers, number < 2 ^ 32) :
    sidIsValid py sid = some (decide (∀ number ∈ numbers, number ≠ 0)) := by
  have parts : subauths sid = numbers.map (toDigits 10) := by
    rw [subauths, chars, ← String.length_toList, drop_left]
    refine splitOn_intercalate '-' (fun part mem inside => ?_) fun none => ?_
    · obtain ⟨number, -, rfl⟩ := mem_map.mp mem
      exact absurd (isDigit_of_mem_toDigits (by decide) (by decide) inside) (by decide)
    · rw [map_eq_nil_iff] at none
      simp [none] at many
  have begins : DOM_SID_PREFIX.toList.isPrefixOf sid.toList = true :=
    isPrefixOf_iff_prefix.mpr ⟨_, chars.symm⟩
  have unlisted : sid ∉ VALID_API_SIDS := fun listed => by
    have others : ∀ other ∈ VALID_API_SIDS,
        DOM_SID_PREFIX.toList.isPrefixOf other.toList = false := by decide
    exact absurd (begins.symm.trans (others sid listed)) (by decide)
  have domain : isDomain sid = true := by
    rw [isDomain, begins, parts, length_map]
    exact decide_eq_true many
  rw [sidIsValid, if_neg unlisted, if_pos domain, parts, checkSubauths_map py fits]

theorem dbIdToRid_eq_some {idType : IDType} {dbId rid : Nat} : dbIdToRid idType dbId = some rid ↔
    dbId < BASE_SYNTHETIC_DATASTORE_ID ∧ dbId + idType.base = rid := by
  rw [dbIdToRid]
  split <;> simp <;> omega

/-- The verdict on every string is right exactly if its parts are plain; a random SID
is accepted, alone or with a RID, exactly if it has no zero; a user and a group get different RIDs
exactly if their ids do not differ by the distance of the two bases. -/
theorem sid_syntax_iff : (∀ sid, Judged py sid ↔
      (sid ∉ VALID_API_SIDS → isDomain sid = true → Plain py (subauths sid))) ∧
    (∀ first second third, let nonzero := first.val ≠ 0 ∧ second.val ≠ 0 ∧ third.val ≠ 0
      sidIsValid py (randomSid first second third) = some (decide nonzero) ∧
        ∀ idType dbId rid, dbIdToRid idType dbId = some rid →
          sidIsValid py (randomSid first second third ++ "-" ++ toString rid) =
            some (decide nonzero)) ∧
    ∀ user group userRid groupRid, dbIdToRid .user user = some userRid →
      dbIdToRid .group group = some groupRid → (userRid ≠ groupRid ↔ user ≠ group + 180000) := by
  refine ⟨judged_iff py, fun first second third => ⟨?_, fun idType dbId rid run => ?_⟩,
    fun user group userRid groupRid left right => ?_⟩
  · have chars : (randomSid first second third).toList = DOM_SID_PREFIX.toList ++
        ['-'].intercalate ([first.val, second.val, third.val].map (toDigits 10)) := by
      simp [randomSid, toString_eq_repr, intercalate]
    simpa using sidIsValid_numbers py _ chars (by simp) (by simp)
  · obtain ⟨small, rfl⟩ := dbIdToRid_eq_some.mp run
    have fits : dbId + idType.base < 2 ^ 32 ∧ dbId + idType.base ≠ 0 := by
      cases idType <;>
        simp only [IDType.base, BASE_RID_USER, BASE_RID_GROUP, BASE_SYNTHETIC_DATASTORE_ID] at * <;>
        omega
    have chars : (randomSid first second third ++ "-" ++ toString (dbId + idType.base)).toList =
        DOM_SID_PREFIX.toList ++ ['-'].intercalate
          ([first.val, second.val, third.val, dbId + idType.base].map (toDigits 10)) := by
      simp [randomSid, toString_eq_repr, intercalate]
    simpa [-Nat.add_eq_zero_iff, fits.2] using
      sidIsValid_numbers py _ chars (by simp) (by simpa using fits.1)
  · obtain ⟨-, rfl⟩ := dbIdToRid_eq_some.mp left
    obtain ⟨-, rfl⟩ := dbIdToRid_eq_some.mp right
    simp only [IDType.base, BASE_RID_USER, BASE_RID_GROUP]
    omega

def superscript : Digits where
  isDigit char := char.isDigit || char = '²'
  value char := if char.isDigit then some (char.toNat - '0'.toNat) else none
  ascii char small := by
    have other : char ≠ '²' := fun same => absurd small (by rw [same]; decide)
    simp [other]

/-- A digit that `int` refuses; a random SID with a zero; a number of 33 bits; a user and a group
with one RID. -/
theorem sid_misjudged : sidIsValid superscript "S-1-5-21-²-1-1" = none ∧
    sidIsValid superscript (randomSid 0 1 1) = some false ∧
    sidIsValid superscript "S-1-5-21-4294967296-1-1" = some true ∧
    dbIdToRid .user 180001 = dbIdToRid .group 1 := by
  decide +kernel

end TruenasMiddleware.Sid
