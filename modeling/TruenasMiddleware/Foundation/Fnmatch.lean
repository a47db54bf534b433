import Mathlib.Data.List.Infix

/-! Shell-style patterns as `fnmatch.translate` reads them: `*` stands for any text,
`?` for any character, `[seq]` and `[!seq]` for a character in or outside of a
sequence of characters and ranges. A `[` that is not closed stands for itself. -/

namespace Fnmatch

inductive Item
  | star
  | any
  | char (c : Char)
  | set (negated : Bool) (ranges : List (Char × Char))

def ranges : List Char → List (Char × Char)
  | x :: '-' :: y :: rest => if x ≤ y then (x, y) :: ranges rest else ranges rest
  | x :: rest => (x, x) :: ranges rest
  | [] => []

/-- The sequence up to the closing bracket, and the text behind it. A bracket in
the first place belongs to the sequence. -/
def sequence : List Char → Option (List Char × List Char)
  | ']' :: text =>
    match text.span (· ≠ ']') with
    | (inside, _ :: rest) => some (']' :: inside, rest)
    | (_, []) => none
  | text =>
    match text.span (· ≠ ']') with
    | (inside, _ :: rest) => some (inside, rest)
    | (_, []) => none

def bracket : List Char → Option (Item × List Char)
  | '!' :: text => (sequence text).map fun (inside, rest) => (.set true (ranges inside), rest)
  | text => (sequence text).map fun (inside, rest) => (.set false (ranges inside), rest)

/-- Read a pattern; every item uses up at least one character, so that the length
of the pattern bounds the number of items. -/
def items : Nat → List Char → List Item
  | 0, _ => []
  | _ + 1, [] => []
  | n + 1, '*' :: rest => .star :: items n rest
  | n + 1, '?' :: rest => .any :: items n rest
  | n + 1, '[' :: rest =>
    match bracket rest with
    | some (item, rest) => item :: items n rest
    | none => .char '[' :: items n rest
  | n + 1, c :: rest => .char c :: items n rest

def accepts : List Item → List Char → Bool
  | [], text => text.isEmpty
  | .star :: rest, text => text.tails.any (accepts rest)
  | .any :: rest, _ :: text => accepts rest text
  | .char d :: rest, c :: text => c == d && accepts rest text
  | .set negated ranges :: rest, c :: text =>
    (ranges.any fun (low, high) => low ≤ c && c ≤ high) != negated && accepts rest text
  | _ :: _, [] => false

/-- `re.compile(fnmatch.translate(pattern)).match(text)`. -/
def fnmatch (pattern text : String) : Bool :=
  accepts (items pattern.toList.length pattern.toList) text.toList

theorem accepts_star (text : List Char) : accepts [.star] text = true := by
  have last : [] ∈ text.tails := (List.mem_tails _ _).mpr (List.nil_suffix)
  exact List.any_eq_true.mpr ⟨[], last, rfl⟩

theorem fnmatch_star (text : String) : fnmatch "*" text = true :=
  accepts_star text.toList

example : fnmatch "pool.*" "pool.create" = true := by decide

example : fnmatch "a[!b-d]?" "aex" = true := by decide

end Fnmatch
