import Mathlib.Data.Char
import Mathlib.Data.List.Chain
import Mathlib.Data.List.Lex
import Mathlib.Data.Prod.Lex
import Mathlib.Order.PiLex

/-! The order of versions in `can_update` of `plugins/update_/utils.py`. -/

namespace TruenasMiddleware.Update

open List

def SEP (char : Char) : Bool := ['-', '.', '+'].contains char

/-- A version in ASCII, without the components of more than 4300 digits that `int` refuses. -/
structure Version where
  text : List Char
  ascii : ∀ char ∈ text, char.val < 128
  short : ∀ x ∈ text.splitOnP SEP, x.length ≤ 4300

def isdigit (x : List Char) : Bool := x ≠ [] && x.all Char.isDigit

def int (x : List Char) : Nat := x.foldl (fun value char => 10 * value + (char.toNat - 48)) 0

/-- The components as the loop reads them: `U1` is `1`. -/
def Version.components (version : Version) : List (List Char) :=
  (version.text.splitOnP SEP).map fun x =>
    if x.head? = some 'U' ∧ isdigit x.tail then x.tail else x

def zipLongest : List (List Char) → List (List Char) → List (List Char × List Char)
  | [], new => new.map ([], ·)
  | x :: old, [] => (x, []) :: zipLongest old []
  | x :: old, y :: new => (x, y) :: zipLongest old new

def CUSTOM : List Char := "CUSTOM".toList
def MASTER : List Char := "MASTER".toList
def INTERNAL : List Char := "INTERNAL".toList

def special (word x y : List Char) : Option Bool :=
  if x = word ∧ y ≠ word then some false else if x ≠ word ∧ y = word then some true else none

def numeric (x y : List Char) : Option Bool :=
  if ¬ isdigit x ∧ (isdigit y ∨ y = []) then some true
  else if (isdigit x ∨ x = []) ∧ ¬ isdigit y then some false
  else none

def less {α : Type*} [LinearOrder α] (x y : α) : Option Bool :=
  if x < y then some true else if y < x then some false else none

def compare (after26 : Bool) (x y : List Char) : Option Bool :=
  if after26 ∧ x = ['0', '4'] ∧ y = ['0'] then some true
  else if after26 ∧ x = ['0'] ∧ y = ['0', '4'] then some false
  else if isdigit x ∧ isdigit y then less (int x) (int y)
  else less x y

/-- One turn of the loop: the previous components were both 26, or not. -/
def turn (after26 : Bool) (x y : List Char) : Option Bool :=
  (special CUSTOM x y).or <| (numeric x y).or <| (special MASTER x y).or <|
    if ¬ (x = INTERNAL ↔ y = INTERNAL) then some true else compare after26 x y

def both26 (x y : List Char) : Bool := isdigit x && int x == 26 && (isdigit y && int y == 26)

def loop : Bool → List (List Char × List Char) → Bool
  | _, [] => false
  | after26, (x, y) :: rest => (turn after26 x y).getD (loop (both26 x y) rest)

def canUpdate (oldVersion newVersion : Version) : Bool :=
  loop false (zipLongest oldVersion.components newVersion.components)

/-- Neither a number nor one of the words that are looked at before `INTERNAL`. -/
def Word (x : List Char) : Prop := isdigit x = false ∧ x ≠ [] ∧ x ≠ CUSTOM ∧ x ≠ MASTER

/-- Both are empty, or one of two words is `INTERNAL`. -/
def Ambiguous (x y : List Char) : Prop :=
  x = [] ∧ y = [] ∨ Word x ∧ Word y ∧ ¬ (x = INTERNAL ↔ y = INTERNAL)

/-- The first components that are not passed over are ambiguous. -/
def Undecided : Bool → List (List Char × List Char) → Prop
  | _, [] => False
  | after26, (x, y) :: rest =>
    Ambiguous x y ∨ turn after26 x y = none ∧ Undecided (both26 x y) rest

variable {after26 : Bool} {x y : List Char}

theorem special_swap (word x y : List Char) : special word y x = (special word x y).map (!·) := by
  unfold special
  grind

theorem numeric_swap (filled : ¬ (x = [] ∧ y = [])) : numeric y x = (numeric x y).map (!·) := by
  have empty : isdigit [] = false := rfl
  unfold numeric
  grind

theorem less_swap {α : Type*} [LinearOrder α] (x y : α) : less y x = (less x y).map (!·) := by
  unfold less
  grind

theorem compare_swap (after26 : Bool) (x y : List Char) :
    compare after26 y x = (compare after26 x y).map (!·) := by
  have numbers := less_swap (int x) (int y)
  have texts := less_swap x y
  unfold compare
  grind

theorem turn_of_ambiguous (ambiguous : Ambiguous x y) : turn after26 x y = some true := by
  obtain ⟨rfl, rfl⟩ | ⟨⟨text, one, custom, master⟩, ⟨text', other, custom', master'⟩, internal⟩ :=
    ambiguous
  · rfl
  · simp [turn, special, numeric, text, one, custom, master, text', other, custom', master',
      internal]

/-- Where only one component is `INTERNAL`, the other is a word or has been decided about. -/
theorem turn_swap (clear : ¬ Ambiguous x y) :
    turn after26 y x = (turn after26 x y).map (!·) := by
  have filled : ¬ (x = [] ∧ y = []) := fun empty => clear (.inl empty)
  unfold turn
  rw [special_swap _ x, special_swap _ x, numeric_swap filled, compare_swap _ x]
  by_cases internal : x = INTERNAL ↔ y = INTERNAL
  · simp [internal, Option.map_or]
  · have word : Word INTERNAL := ⟨rfl, by decide, by decide, by decide⟩
    have digits : isdigit [] = false ∧ isdigit CUSTOM = false ∧ isdigit MASTER = false := by decide
    cases custom : special CUSTOM x y with
    | some answer => simp
    | none =>
      cases number : numeric x y with
      | some answer => simp
      | none =>
        cases master : special MASTER x y with
        | some answer => simp
        | none =>
          have customs : x = CUSTOM ↔ y = CUSTOM := by grind [special]
          have masters : x = MASTER ↔ y = MASTER := by grind [special]
          unfold Ambiguous Word at *
          grind [numeric]

theorem both26_comm (x y : List Char) : both26 y x = both26 x y := Bool.and_comm ..

theorem zipLongest_swap (old new : List (List Char)) :
    zipLongest new old = (zipLongest old new).map Prod.swap := by
  induction old generalizing new with
  | nil =>
    induction new with
    | nil => rfl
    | cons y new ih => simp_all [zipLongest]
  | cons x old ih =>
    cases new with
    | nil => simp [zipLongest, ← ih]
    | cons y new => rw [zipLongest, zipLongest, ih, map_cons, Prod.swap_prod_mk]

theorem loop_both_iff (pairs : List (List Char × List Char)) :
    loop after26 pairs = true ∧ loop after26 (pairs.map Prod.swap) = true ↔
      Undecided after26 pairs := by
  induction pairs generalizing after26 with
  | nil => simp [loop, Undecided]
  | cons pair rest ih =>
    obtain ⟨x, y⟩ := pair
    simp only [map_cons, Prod.swap_prod_mk, loop, Undecided, both26_comm x y]
    by_cases ambiguous : Ambiguous x y
    · have swapped : Ambiguous y x := by
        unfold Ambiguous at *
        grind
      simp [turn_of_ambiguous, ambiguous, swapped]
    · rw [turn_swap ambiguous]
      cases turn after26 x y with
      | none => simpa [ambiguous] using ih
      | some answer => cases answer <;> simp [ambiguous]

/-- An update is allowed in both directions exactly if the first components that are not passed over
are both empty, or two words of which one is `INTERNAL`. -/
theorem can_update_both_iff (one other : Version) :
    canUpdate one other = true ∧ canUpdate other one = true ↔
      Undecided false (zipLongest one.components other.components) := by
  rw [canUpdate, canUpdate, zipLongest_swap one.components, loop_both_iff]

section Order

structure Plain (components : List (List Char)) : Prop where
  filled : [] ∉ components
  unmarked : ∀ x ∈ components, x ∉ [CUSTOM, MASTER, INTERNAL]

structure PlainVersion extends Version where
  plain : Plain toVersion.components

/-- `04` does not stand right behind 26. -/
def Settled : List (List Char) → Prop :=
  IsChain fun x y => both26 x x = true → y ≠ ['0', '4']

structure Ordinary (after26 : Bool) (components : List (List Char)) : Prop
    extends Plain components where
  settled : Settled components
  early : after26 = true → components.head? ≠ some ['0', '4']

/-- Words come before a missing component, and numbers behind it. -/
def rank (x : List Char) : ℕ ×ₗ List Char ×ₗ ℕ :=
  if isdigit x then toLex (2, toLex ([], int x))
  else if x = [] then toLex (1, toLex ([], 0))
  else toLex (0, toLex (x, 0))

def ranks (components : List (List Char)) : Lex (ℕ → ℕ ×ₗ List Char ×ₗ ℕ) :=
  toLex fun i => rank (components.getD i [])

theorem turn_eq_less (unmarked : x ∉ [CUSTOM, MASTER, INTERNAL])
    (unmarked' : y ∉ [CUSTOM, MASTER, INTERNAL]) (filled : ¬ (x = [] ∧ y = []))
    (early : after26 = true → x ≠ ['0', '4'] ∧ y ≠ ['0', '4']) :
    turn after26 x y = less (rank x) (rank y) := by
  have empty : isdigit [] = false := rfl
  have compared : compare after26 x y =
      if isdigit x ∧ isdigit y then less (int x) (int y) else less x y := by
    unfold compare
    grind
  have turned : turn after26 x y = (numeric x y).or (compare after26 x y) := by
    grind [turn, special]
  rw [turned, compared]
  unfold numeric rank less
  by_cases number : isdigit x <;> by_cases number' : isdigit y <;> by_cases gap : x = [] <;>
    by_cases gap' : y = [] <;> simp_all [Prod.Lex.toLex_lt_toLex]
  congr

variable {old new : List (List Char)}

theorem ranks_lt_iff : ranks old < ranks new ↔ rank (old.headD []) < rank (new.headD []) ∨
    rank (old.headD []) = rank (new.headD []) ∧ ranks old.tail < ranks new.tail := by
  have head (l) : ranks l 0 = rank (l.headD []) := by cases l <;> rfl
  have tail (l) (i : ℕ) : ranks l (i + 1) = ranks l.tail i := by cases l <;> rfl
  rw [← head, ← head]
  constructor
  · rintro ⟨i, same, smaller⟩
    cases i with
    | zero => exact .inl smaller
    | succ i =>
      refine .inr ⟨same 0 i.succ_pos, i, fun j before => ?_, ?_⟩
      · simpa [tail] using same (j + 1) (by simpa)
      · simpa [tail] using smaller
  · rintro (smaller | ⟨first, i, same, smaller⟩)
    · exact ⟨0, fun j before => absurd before (by simp), smaller⟩
    · refine ⟨i + 1, fun j before => ?_, by simpa [tail] using smaller⟩
      cases j with
      | zero => exact first
      | succ j => simpa [tail] using same j (by simpa using before)

theorem Ordinary.tail (ordinary : Ordinary after26 old) (y : List Char) :
    Ordinary (both26 (old.headD []) y) old.tail where
  filled mem := ordinary.filled (mem_of_mem_tail mem)
  unmarked x mem := ordinary.unmarked x (mem_of_mem_tail mem)
  settled := ordinary.settled.tail
  early after := by
    have settled := ordinary.settled
    unfold Settled at settled
    cases old with
    | nil => simp
    | cons x old => cases old <;> grind [both26]

/-- The loop compares the sequences of ranks from the left. -/
theorem loop_iff {after26 : Bool} {old new : List (List Char)} (ordinary : Ordinary after26 old)
    (ordinary' : Ordinary after26 new) :
    loop after26 (zipLongest old new) = true ↔ ranks old < ranks new := by
  have head {l} (ordinary : Ordinary after26 l) : l.headD [] ∉ [CUSTOM, MASTER, INTERNAL] ∧
      (l.headD [] = [] → l = []) ∧ (after26 = true → l.headD [] ≠ ['0', '4']) := by
    have empty : [] ∉ [CUSTOM, MASTER, INTERNAL] := by decide
    obtain ⟨⟨filled, unmarked⟩, -, early⟩ := ordinary
    cases l <;> simp_all
  by_cases empty : old = [] ∧ new = []
  · obtain ⟨rfl, rfl⟩ := empty
    exact iff_of_false (by simp [zipLongest, loop]) (lt_irrefl _)
  · have pairs : zipLongest old new =
        (old.headD [], new.headD []) :: zipLongest old.tail new.tail := by
      cases old <;> cases new <;> simp_all [zipLongest]
    have shorter : old.tail.length + new.tail.length < old.length + new.length := by
      cases old <;> cases new <;> grind
    have turned : turn after26 (old.headD []) (new.headD []) = _ :=
      turn_eq_less (head ordinary).1 (head ordinary').1 (by grind) (by grind)
    have rest := loop_iff (ordinary.tail _) (both26_comm (old.headD []) _ ▸ ordinary'.tail _)
    rw [pairs, ranks_lt_iff, ← rest]
    grind [loop, less]
termination_by old.length + new.length
decreasing_by exact shorter

theorem mem_zipLongest {pair : List Char × List Char} (mem : pair ∈ zipLongest old new) :
    (pair.1 = [] ∨ pair.1 ∈ old) ∧ (pair.2 = [] ∨ pair.2 ∈ new) ∧
      (pair.1 ∈ old ∨ pair.2 ∈ new) := by
  fun_induction zipLongest old new <;> grind

theorem not_undecided {pairs : List (List Char × List Char)}
    (clear : ∀ pair ∈ pairs, ¬ Ambiguous pair.1 pair.2) : ¬ Undecided after26 pairs := by
  induction pairs generalizing after26 with
  | nil => exact id
  | cons pair rest ih =>
    rintro (here | ⟨-, later⟩)
    · exact clear pair mem_cons_self here
    · exact ih (fun pair mem => clear pair (mem_cons_of_mem _ mem)) later

theorem PlainVersion.asymm (one other : PlainVersion) :
    ¬ (canUpdate one.toVersion other.toVersion = true ∧
      canUpdate other.toVersion one.toVersion = true) := by
  rw [canUpdate, canUpdate, zipLongest_swap one.components, loop_both_iff]
  refine not_undecided fun pair mem => ?_
  have place := mem_zipLongest mem
  obtain ⟨filled, unmarked⟩ := one.plain
  obtain ⟨filled', unmarked'⟩ := other.plain
  unfold Ambiguous Word
  grind

/-- Without empty components and markers an update is never allowed in both directions, and where
no `04` stands right behind 26 the allowed updates compose. -/
theorem can_update_strict_order :
    (∀ version : PlainVersion, canUpdate version.toVersion version.toVersion = false) ∧
    (∀ one other : PlainVersion, ¬ (canUpdate one.toVersion other.toVersion = true ∧
      canUpdate other.toVersion one.toVersion = true)) ∧
    ∀ a b c : PlainVersion, Settled a.components → Settled b.components → Settled c.components →
      canUpdate a.toVersion b.toVersion = true → canUpdate b.toVersion c.toVersion = true →
        canUpdate a.toVersion c.toVersion = true := by
  refine ⟨fun version => ?_, PlainVersion.asymm, fun a b c ofA ofB ofC => ?_⟩
  · simpa using version.asymm version
  · have ordinary {version : PlainVersion} (settled : Settled version.components) :
        Ordinary false version.components := ⟨version.plain, settled, nofun⟩
    unfold canUpdate
    rw [loop_iff (ordinary ofA) (ordinary ofB), loop_iff (ordinary ofB) (ordinary ofC),
      loop_iff (ordinary ofA) (ordinary ofC)]
    exact lt_trans

/-- 26.04 to 26.0 and 26.0 to 26.1, but not 26.04 to 26.1. -/
theorem can_update_not_transitive : ∃ a b c : PlainVersion,
    canUpdate a.toVersion b.toVersion = true ∧ canUpdate b.toVersion c.toVersion = true ∧
      canUpdate a.toVersion c.toVersion = false :=
  ⟨⟨⟨"26.04".toList, by simp, by decide⟩, by decide, by decide⟩,
    ⟨⟨"26.0".toList, by simp, by decide⟩, by decide, by decide⟩,
    ⟨⟨"26.1".toList, by simp, by decide⟩, by decide, by decide⟩, by decide⟩

end Order

end TruenasMiddleware.Update
