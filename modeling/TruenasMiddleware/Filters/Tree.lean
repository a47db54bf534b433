import Mathlib.Data.List.Basic

/-! Filter trees, and `filter_getattrs` of `utils/filter_list.py`. A filter is a list or a tuple:
three items are a condition or a group of three, two items an `OR` node or a group of two. -/

namespace TruenasMiddleware.Filters

inductive Operand (α : Type)
  | str (text : String)
  | other (value : α)

/-- `any` is `['OR', members]`, `all` the list of its members. -/
inductive Kind
  | any
  | all

inductive Tree (α : Type)
  | condition (tuple : Bool) (name op : String) (value : Operand α)
  | group (kind : Kind) (tuple : Bool) (members : List (Tree α))

variable {α : Type}

/-- What `attrs.add` is given: a name, or the first of three members. -/
inductive Attr (α : Type)
  | name (name : String)
  | filter (tree : Tree α)

inductive GetattrsError
  | valueError
  | typeError

section Getattrs

-- whether a filter can be an element of a set: a list cannot
variable (hashable : Tree α → Bool)

mutual

/-- What a filter and what it pushes come to: the item that was pushed is popped next. -/
def Tree.attr : Tree α → Except GetattrsError (Attr α)
  | .condition _ name _ _ => .ok (.name name)
  | .group _ _ members => attrOfMembers members

/-- Two members: for `OR` the list of them is what was pushed. -/
def attrOfMembers : List (Tree α) → Except GetattrsError (Attr α)
  | [_, second] => second.attr
  | [first, _, _] => if hashable first then .ok (.filter first) else .error .typeError
  | _ => .error .valueError

end

def filterGetattrs : List (Tree α) → Except GetattrsError (List (Attr α))
  | [] => .ok []
  | filter :: filters =>
    match filterGetattrs filters, filter.attr hashable with
    | .ok attrs, .ok attr => .ok (attr :: attrs)
    | .ok _, .error error => .error error
    | .error error, _ => .error error

end Getattrs

mutual

def Tree.names : Tree α → List String
  | .condition _ name _ _ => [name]
  | .group _ _ members => namesOf members

def namesOf : List (Tree α) → List String
  | [] => []
  | tree :: trees => tree.names ++ namesOf trees

end

theorem mem_namesOf {name : String} {trees : List (Tree α)} :
    name ∈ namesOf trees ↔ ∃ tree ∈ trees, name ∈ tree.names := by
  induction trees with
  | nil => simp [namesOf]
  | cons tree trees ih => simp [namesOf, ih]

/-- The last condition of a filter all of whose groups have two members. -/
inductive Tree.Ends (name : String) : Tree α → Prop
  | condition (tuple : Bool) (op : String) (value : Operand α) :
      Ends name (.condition tuple name op value)
  | group (kind : Kind) (tuple : Bool) (first : Tree α) {second} (ends : Ends name second) :
      Ends name (.group kind tuple [first, second])

section Getattrs

variable (hashable : Tree α → Bool) {name : String} {tree : Tree α} {filters : List (Tree α)}

theorem Tree.Ends.attr (ends : tree.Ends name) : tree.attr hashable = .ok (.name name) := by
  induction ends with
  | condition tuple op value => rw [Tree.attr]
  | group kind tuple first ends ih => rw [Tree.attr, attrOfMembers, ih]

theorem Tree.Ends.mem_names (ends : tree.Ends name) : name ∈ tree.names := by
  induction ends with
  | condition tuple op value => simp [Tree.names]
  | group kind tuple first ends ih => simp [Tree.names, namesOf, ih]

theorem Tree.ends_of_attr : (tree : Tree α) → tree.attr hashable = .ok (.name name) → tree.Ends name
  | .condition tuple _ op value, found => by
    rw [Tree.attr] at found
    cases found
    exact .condition tuple op value
  | .group kind tuple [first, second], found => by
    rw [Tree.attr, attrOfMembers] at found
    exact .group kind tuple first (ends_of_attr second found)
  | .group kind tuple [first, _, _], found => by
    rw [Tree.attr, attrOfMembers] at found
    split at found <;> cases found
  | .group _ _ [], found => by simp [Tree.attr, attrOfMembers] at found
  | .group _ _ [_], found => by simp [Tree.attr, attrOfMembers] at found
  | .group _ _ (_ :: _ :: _ :: _ :: _), found => by simp [Tree.attr, attrOfMembers] at found

theorem filterGetattrs_ok {attrs : List (Attr α)}
    (returned : filterGetattrs hashable filters = .ok attrs) :
    (∀ filter ∈ filters, ∃ attr ∈ attrs, filter.attr hashable = .ok attr) ∧
      ∀ attr ∈ attrs, ∃ filter ∈ filters, filter.attr hashable = .ok attr := by
  induction filters generalizing attrs with
  | nil =>
    cases returned
    simp
  | cons filter filters ih =>
    rw [filterGetattrs] at returned
    split at returned
    · rename_i others attr rest here
      cases returned
      obtain ⟨left, right⟩ := ih rest
      constructor
      · refine List.forall_mem_cons.mpr ⟨⟨attr, List.mem_cons_self, here⟩, fun other mem => ?_⟩
        obtain ⟨found, inside, ok⟩ := left other mem
        exact ⟨found, List.mem_cons_of_mem _ inside, ok⟩
      · refine List.forall_mem_cons.mpr ⟨⟨filter, List.mem_cons_self, here⟩, fun other mem => ?_⟩
        obtain ⟨found, inside, ok⟩ := right other mem
        exact ⟨found, List.mem_cons_of_mem _ inside, ok⟩
    · cases returned
    · cases returned

theorem filterGetattrs_returns (all : ∀ filter ∈ filters, ∃ name, filter.Ends name) :
    ∃ attrs, filterGetattrs hashable filters = .ok attrs := by
  induction filters with
  | nil => exact ⟨[], rfl⟩
  | cons filter filters ih =>
    obtain ⟨⟨name, ends⟩, others⟩ := List.forall_mem_cons.mp all
    obtain ⟨attrs, rest⟩ := ih others
    exact ⟨.name name :: attrs, by rw [filterGetattrs, rest, ends.attr hashable]⟩

def ExactNames (filters : List (Tree α)) : Prop :=
  ∃ attrs, filterGetattrs hashable filters = .ok attrs ∧
    ∀ attr, attr ∈ attrs ↔ ∃ name ∈ namesOf filters, attr = .name name

/-- The names are returned exactly if every filter ends in a condition, and no name of the tree
stands elsewhere only. -/
theorem filter_getattrs_iff (filters : List (Tree α)) : ExactNames hashable filters ↔
      (∀ filter ∈ filters, ∃ name, filter.Ends name) ∧
        ∀ name ∈ namesOf filters, ∃ filter ∈ filters, filter.Ends name := by
  constructor
  · rintro ⟨attrs, returned, exactly⟩
    obtain ⟨left, right⟩ := filterGetattrs_ok hashable returned
    constructor
    · intro filter member
      obtain ⟨attr, inside, found⟩ := left filter member
      obtain ⟨name, -, rfl⟩ := (exactly attr).mp inside
      exact ⟨name, filter.ends_of_attr hashable found⟩
    · intro name member
      obtain ⟨filter, inside, found⟩ := right _ ((exactly (.name name)).mpr ⟨name, member, rfl⟩)
      exact ⟨filter, inside, filter.ends_of_attr hashable found⟩
  · rintro ⟨all, covered⟩
    obtain ⟨attrs, returned⟩ := filterGetattrs_returns hashable all
    obtain ⟨left, right⟩ := filterGetattrs_ok hashable returned
    refine ⟨attrs, returned, fun attr => ⟨fun inside => ?_, ?_⟩⟩
    · obtain ⟨filter, member, found⟩ := right attr inside
      obtain ⟨name, ends⟩ := all filter member
      rw [ends.attr hashable] at found
      cases found
      exact ⟨name, mem_namesOf.mpr ⟨filter, member, ends.mem_names⟩, rfl⟩
    · rintro ⟨name, member, rfl⟩
      obtain ⟨filter, inside, ends⟩ := covered name member
      obtain ⟨attr, there, found⟩ := left filter inside
      rw [ends.attr hashable] at found
      cases found
      exact there

end Getattrs

/-- `["OR", [["a", "=", 1], ["b", "=", 2]]]` gives `b` alone. -/
theorem first_branch_lost : ¬ ExactNames (fun _ : Tree Nat => false) [.group .any false
      [.condition false "a" "=" (.other 1), .condition false "b" "=" (.other 2)]] := by
  rintro ⟨attrs, returned, exactly⟩
  have only : filterGetattrs (fun _ : Tree Nat => false) [.group .any false
      [.condition false "a" "=" (.other 1), .condition false "b" "=" (.other 2)]] =
        .ok [.name "b"] := by
    simp [filterGetattrs, Tree.attr, attrOfMembers]
  obtain rfl := Except.ok.inj (returned.symm.trans only)
  have missing := (exactly (.name "a")).mpr ⟨"a", by simp [namesOf, Tree.names], rfl⟩
  simp at missing

end TruenasMiddleware.Filters
