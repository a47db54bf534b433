import TruenasMiddleware.Filters.Tree

/-! JSONPath conversion of filters, `utils/jsonpath.py`. What is taken for a JSONPath is a name that
starts with a dot, not with a dollar sign. -/

namespace TruenasMiddleware.Filters

open List

variable {α : Type}

def Unconverted (text : String) : Prop := '.' ∉ text.toList ∨ text.toList.head? = some '.'

instance (text : String) : Decidable (Unconverted text) :=
  inferInstanceAs (Decidable (_ ∨ _))

def dotNotationToJsonPath (text : String) : String :=
  if Unconverted text then text else "$." ++ text

def convertOperand : Operand α → Operand α
  | .str text => .str (dotNotationToJsonPath text)
  | .other value => .other value

def reversed (op : String) : Bool := decide (op.toList.head? = some 'r' ∧ op ≠ "rin")

mutual

/-- `query_filters_json_path_parse` on one filter; `none` where it raises. Two items are taken for
an `OR` node, and a tuple cannot be copied. -/
def Tree.jsonPath : Tree α → Option (Tree α)
  | .condition true _ _ _ => none
  | .condition false name op value =>
    some (if reversed op then .condition false name op (convertOperand value)
      else .condition false (dotNotationToJsonPath name) op value)
  | .group .any _ members => (jsonPaths members).map (.group .any false)
  | .group .all _ [_, .group .all _ members] => (jsonPaths members).map (.group .any false)
  | .group .all _ _ => none

def jsonPaths : List (Tree α) → Option (List (Tree α))
  | [] => some []
  | tree :: trees =>
    match tree.jsonPath, jsonPaths trees with
    | some tree, some trees => some (tree :: trees)
    | _, _ => none

end

mutual

def Tree.Stable : Tree α → Prop
  | .condition true _ _ _ => False
  | .condition false name op value =>
    if reversed op then ∀ text, value = .str text → Unconverted text else Unconverted name
  | .group .any _ members => StableAll members
  | .group .all _ [_, .group .all _ members] => StableAll members
  | .group .all _ _ => False

def StableAll : List (Tree α) → Prop
  | [] => True
  | tree :: trees => tree.Stable ∧ StableAll trees

end

def jsonPathParse : List Char → Option (List Char × List Char)
  | '$' :: '.' :: remainder =>
    let atBracket := fun bracket => (remainder.take bracket, '$' :: remainder.drop bracket)
    let atDot := fun dot => (remainder.take dot, '$' :: '.' :: remainder.drop (dot + 1))
    match remainder.idxOf? '.', remainder.idxOf? '[' with
    | none, none => some (remainder, ['$'])
    | none, some bracket => some (atBracket bracket)
    | some dot, none => some (atDot dot)
    | some dot, some bracket => some (if dot < bracket then atDot dot else atBracket bracket)
  | _ => none

theorem convert_idem_iff (text : String) :
    dotNotationToJsonPath (dotNotationToJsonPath text) = dotNotationToJsonPath text ↔
      Unconverted text := by
  by_cases fixed : Unconverted text
  · simp [dotNotationToJsonPath, fixed]
  · have again : ¬ Unconverted ("$." ++ text) := by simp [Unconverted]
    simp [dotNotationToJsonPath, fixed, again]

mutual

theorem Tree.stable_iff : (tree : Tree α) →
    ((∃ once, tree.jsonPath = some once ∧ once.jsonPath = some once) ↔ tree.Stable)
  | .condition true _ _ _ => by simp [Tree.jsonPath, Tree.Stable]
  | .condition false name op value => by
    simp only [Tree.jsonPath, Tree.Stable]
    by_cases right : reversed op = true
    · cases value with
      | str text => simp [right, Tree.jsonPath, convertOperand, convert_idem_iff]
      | other value => simp [right, Tree.jsonPath, convertOperand]
    · simp [right, Tree.jsonPath, convert_idem_iff]
  | .group .any _ members => by
    simpa [Tree.jsonPath, Tree.Stable] using stableAll_iff members
  | .group .all _ [_, .group .all _ members] => by
    simpa [Tree.jsonPath, Tree.Stable] using stableAll_iff members
  | .group .all _ [] => by simp [Tree.jsonPath, Tree.Stable]
  | .group .all _ [_] => by simp [Tree.jsonPath, Tree.Stable]
  | .group .all _ [_, .condition _ _ _ _] => by simp [Tree.jsonPath, Tree.Stable]
  | .group .all _ [_, .group .any _ _] => by simp [Tree.jsonPath, Tree.Stable]
  | .group .all _ (_ :: _ :: _ :: _) => by
    rw [Tree.Stable, Tree.jsonPath] <;> simp

theorem stableAll_iff : (trees : List (Tree α)) →
    ((∃ once, jsonPaths trees = some once ∧ jsonPaths once = some once) ↔ StableAll trees)
  | [] => by simp [jsonPaths, StableAll]
  | tree :: trees => by
    have here := tree.stable_iff
    have others := stableAll_iff trees
    rw [StableAll, ← here, ← others, jsonPaths]
    constructor
    · rintro ⟨once, run, again⟩
      split at run <;> cases run
      rw [jsonPaths] at again
      split at again <;> cases again
      exact ⟨⟨_, ‹_›, ‹_›⟩, _, ‹_›, ‹_›⟩
    · rintro ⟨⟨first, run, again⟩, rest, runs, agains⟩
      exact ⟨first :: rest, by simp [run, runs], by simp [jsonPaths, again, agains]⟩

end

def inColumn (char : Char) : Bool := decide (char ≠ '.' ∧ char ≠ '[')

theorem jsonPathParse_eq (name : List Char) : jsonPathParse ('$' :: '.' :: name) =
    some (name.takeWhile inColumn, '$' :: name.dropWhile inColumn) := by
  induction name with
  | nil => rfl
  | cons head tail ih =>
    by_cases dot : head = '.'
    · subst dot
      cases bracket : tail.idxOf? '[' <;> simp [jsonPathParse, idxOf?_cons, inColumn, bracket]
    by_cases bracket : head = '['
    · subst bracket
      cases dot : tail.idxOf? '.' <;> simp [jsonPathParse, idxOf?_cons, inColumn, dot]
    -- both places are one further than in the tail
    have inside : inColumn head = true := by simp [inColumn, dot, bracket]
    simp only [jsonPathParse, idxOf?_cons, beq_iff_eq, dot, bracket, if_false,
      takeWhile_cons_of_pos inside, dropWhile_cons_of_pos inside] at ih ⊢
    generalize tail.idxOf? '.' = dotAt at ih ⊢
    generalize tail.idxOf? '[' = bracketAt at ih ⊢
    cases dotAt <;> cases bracketAt
    case some.some =>
      simp only [Option.map_some, Nat.add_lt_add_iff_right] at ih ⊢
      split_ifs at ih ⊢ <;> simpa using ih
    all_goals simpa using ih

/-- Converting twice gives what converting once gives exactly if no field is converted; and the
conversion of a dotted name is parsed into a column, without a separator, and the rest of the name.
A closing bracket is in the column if it stands before the first separator. -/
theorem json_path_idem_iff : (∀ filters : List (Tree α),
      (∃ once, jsonPaths filters = some once ∧ jsonPaths once = some once) ↔ StableAll filters) ∧
    ∀ name : String, ¬ Unconverted name → ∃ column relative,
        jsonPathParse (dotNotationToJsonPath name).toList = some (column, relative) ∧
        '.' ∉ column ∧ '[' ∉ column ∧ column ++ relative.tail = name.toList ∧
        (']' ∈ column ↔ ']' ∈ name.toList.takeWhile inColumn) := by
  refine ⟨stableAll_iff, fun name dotted => ?_⟩
  rw [dotNotationToJsonPath, if_neg dotted, String.toList_append]
  have outside : ∀ char ∈ name.toList.takeWhile inColumn, char ≠ '.' ∧ char ≠ '[' :=
    fun char member => of_decide_eq_true (all_eq_true.mp all_takeWhile char member)
  exact ⟨_, _, jsonPathParse_eq name.toList, fun member => (outside _ member).1 rfl,
    fun member => (outside _ member).2 rfl, takeWhile_append_dropWhile, Iff.rfl⟩

theorem json_path_converted_twice :
    ¬ ∃ once, jsonPaths [Tree.condition false "foo.bar" "=" (.other 1)] = some once ∧
      jsonPaths once = some once := by
  rw [stableAll_iff]
  simp [StableAll, Tree.Stable, reversed, Unconverted]

end TruenasMiddleware.Filters
