import Mathlib.Data.List.Nodup

/-! Dictionaries as association lists in insertion order. Reading is `List.lookup`;
`set` writes a key in its place, or at the end when it is new. -/

namespace Dict

open List

variable {κ α β : Type*} [DecidableEq κ]

def keys (dict : List (κ × α)) : List κ := dict.map Prod.fst

def set (key : κ) (value : α) : List (κ × α) → List (κ × α)
  | [] => [(key, value)]
  | entry :: rest => if entry.1 = key then (key, value) :: rest else entry :: set key value rest

def write : Option (κ × α) → List (κ × α) → List (κ × α)
  | some entry, dict => set entry.1 entry.2 dict
  | none, dict => dict

def pop (key : κ) (dict : List (κ × α)) : List (κ × α) := dict.filter (·.1 ≠ key)

theorem nodup_map_append {f : α → β} {left right : List α} :
    (map f (left ++ right)).Nodup ↔ (map f left).Nodup ∧ (map f right).Nodup ∧
      ∀ a ∈ left, ∀ b ∈ right, f a ≠ f b := by
  simp only [map_append, nodup_append, forall_mem_map]

theorem lookup_cons [BEq κ] [LawfulBEq κ] (entry : κ × α) (rest : List (κ × α)) (key : κ) :
    (entry :: rest).lookup key = if key = entry.1 then some entry.2 else rest.lookup key := by
  obtain ⟨first, value⟩ := entry
  by_cases here : key = first
  · rw [if_pos here, here, lookup_cons_self]
  · have other : (key == first) = false := by simpa using here
    rw [if_neg here, List.lookup_cons, other]

variable {dict : List (κ × α)} {key other : κ} {value : α}

theorem lookup_isSome [BEq κ] [LawfulBEq κ] :
    (dict.lookup key).isSome = true ↔ key ∈ keys dict := by
  induction dict with
  | nil => simp [keys]
  | cons entry rest ih =>
    rw [lookup_cons, keys, map_cons, mem_cons, ← keys]
    by_cases here : key = entry.1
    · simp [here]
    · rw [if_neg here, ih, or_iff_right here]

theorem exists_lookup [BEq κ] [LawfulBEq κ] :
    (∃ value, dict.lookup key = some value) ↔ key ∈ keys dict := by
  rw [← lookup_isSome, Option.isSome_iff_exists]

theorem lookup_eq_none [BEq κ] [LawfulBEq κ] : dict.lookup key = none ↔ key ∉ keys dict := by
  rw [← lookup_isSome, Bool.not_eq_true, Option.isSome_eq_false_iff, Option.isNone_iff_eq_none]

theorem mem_of_lookup [BEq κ] [LawfulBEq κ] (found : dict.lookup key = some value) :
    (key, value) ∈ dict := by
  induction dict with
  | nil => cases found
  | cons entry rest ih =>
    rw [lookup_cons] at found
    by_cases here : key = entry.1
    · rw [if_pos here] at found
      cases found
      rw [here]
      exact mem_cons_self
    · rw [if_neg here] at found
      exact mem_cons_of_mem entry (ih found)

theorem lookup_of_mem [BEq κ] [LawfulBEq κ] (nodup : (keys dict).Nodup)
    (mem : (key, value) ∈ dict) : dict.lookup key = some value := by
  induction dict with
  | nil => cases mem
  | cons entry rest ih =>
    rw [keys, map_cons, nodup_cons] at nodup
    rw [lookup_cons]
    rcases mem_cons.mp mem with rfl | mem
    · exact if_pos rfl
    · have other : key ≠ entry.1 := by
        rintro rfl
        exact nodup.1 (mem_map.mpr ⟨_, mem, rfl⟩)
      rw [if_neg other]
      exact ih nodup.2 mem

theorem lookup_set [BEq κ] [LawfulBEq κ] (dict : List (κ × α)) (key other : κ) (value : α) :
    (set key value dict).lookup other = if other = key then some value else dict.lookup other := by
  induction dict with
  | nil => rw [set, lookup_cons]
  | cons entry rest ih =>
    by_cases here : entry.1 = key
    · rw [set, if_pos here, lookup_cons, lookup_cons, here]
      by_cases eq : other = key
      · rw [if_pos eq, if_pos eq]
      · rw [if_neg eq, if_neg eq, if_neg eq]
    · rw [set, if_neg here, lookup_cons, lookup_cons, ih]
      by_cases first : other = entry.1
      · rw [if_pos first, if_pos first, if_neg (first ▸ here)]
      · rw [if_neg first, if_neg first]

theorem mem_set {entry : κ × α} (mem : entry ∈ set key value dict) :
    entry = (key, value) ∨ entry ∈ dict := by
  induction dict with
  | nil => exact .inl (mem_singleton.mp mem)
  | cons first rest ih =>
    by_cases here : first.1 = key
    · rw [set, if_pos here] at mem
      exact (mem_cons.mp mem).imp_right (mem_cons_of_mem first)
    · rw [set, if_neg here] at mem
      rcases mem_cons.mp mem with rfl | later
      · exact .inr mem_cons_self
      · exact (ih later).imp_right (mem_cons_of_mem first)

theorem flatMap_set_append (dict : List (κ × List β)) (key : κ) (element : β) :
    ((set key ((dict.lookup key).getD [] ++ [element]) dict).flatMap Prod.snd).Perm
      (dict.flatMap Prod.snd ++ [element]) := by
  induction dict with
  | nil => simp [set]
  | cons entry rest ih =>
    by_cases here : entry.1 = key
    · rw [lookup_cons, if_pos here.symm, set, if_pos here, flatMap_cons, flatMap_cons]
      simp only [Option.getD_some, append_assoc]
      exact perm_append_comm.append_left _
    · rw [lookup_cons, if_neg (Ne.symm here), set, if_neg here, flatMap_cons,
        flatMap_cons, append_assoc]
      exact ih.append_left _

theorem lookup_pop [BEq κ] [LawfulBEq κ] (dict : List (κ × α)) (key other : κ) :
    (pop key dict).lookup other = if other = key then none else dict.lookup other := by
  induction dict with
  | nil => simp [pop]
  | cons entry rest ih =>
    rw [lookup_cons]
    by_cases here : entry.1 = key
    · rw [pop, filter_cons_of_neg (by simpa using here), ← pop, ih]
      by_cases eq : other = key
      · rw [if_pos eq, if_pos eq]
      · rw [if_neg eq, if_neg eq, if_neg (here ▸ eq)]
    · rw [pop, filter_cons_of_pos (by simpa using here), ← pop, lookup_cons, ih]
      by_cases first : other = entry.1
      · rw [if_pos first, if_pos first, if_neg (first ▸ here)]
      · rw [if_neg first, if_neg first]

theorem pop_of_not_mem (outside : key ∉ keys dict) : pop key dict = dict := by
  refine filter_eq_self.mpr fun entry mem => ?_
  rw [decide_eq_true_eq]
  rintro rfl
  exact outside (mem_map_of_mem mem)

theorem pop_set_of_not_mem (outside : key ∉ keys dict) : pop key (set key value dict) = dict := by
  induction dict with
  | nil => simp [set, pop]
  | cons entry rest ih =>
    rw [keys, map_cons, mem_cons, not_or] at outside
    rw [set, if_neg (Ne.symm outside.1), pop, filter_cons_of_pos
      (by simpa using Ne.symm outside.1), ← pop, ih outside.2]

section Rename

variable {ι : Type*} [DecidableEq ι] {f : κ → ι}

def rename (f : κ → ι) (dict : List (κ × α)) : List (ι × α) :=
  dict.map fun entry => (f entry.1, entry.2)

variable (injective : Function.Injective f)
include injective

theorem lookup_rename [BEq κ] [LawfulBEq κ] [BEq ι] [LawfulBEq ι] (dict : List (κ × α)) (key : κ) :
    (rename f dict).lookup (f key) = dict.lookup key := by
  induction dict with
  | nil => rfl
  | cons entry rest ih =>
    rw [rename, map_cons, ← rename, lookup_cons, lookup_cons, ih]
    simp only [injective.eq_iff]

theorem rename_set (dict : List (κ × α)) (key : κ) (value : α) :
    rename f (set key value dict) = set (f key) value (rename f dict) := by
  induction dict with
  | nil => rfl
  | cons entry rest ih =>
    by_cases here : entry.1 = key
    · simp [rename, set, here]
    · simpa [rename, set, here, injective.eq_iff] using ih

theorem rename_pop (dict : List (κ × α)) (key : κ) :
    rename f (pop key dict) = pop (f key) (rename f dict) := by
  rw [pop, pop, rename, rename, filter_map]
  congr 2
  funext entry
  simp [injective.eq_iff]

end Rename

theorem nodup_pop (nodup : (keys dict).Nodup) (key : κ) : (keys (pop key dict)).Nodup :=
  nodup.sublist (filter_sublist.map Prod.fst)

theorem keys_set_of_mem (value : α) (mem : key ∈ keys dict) :
    keys (set key value dict) = keys dict := by
  induction dict with
  | nil => cases mem
  | cons entry rest ih =>
    by_cases here : entry.1 = key
    · simp [set, here, keys]
    · have later : key ∈ keys rest := by
        rcases mem_cons.mp mem with eq | later
        · exact absurd eq.symm here
        · exact later
      simp only [set, if_neg here, keys, map_cons] at ih ⊢
      rw [ih later]

theorem length_set_of_mem (value : α) (mem : key ∈ keys dict) :
    (set key value dict).length = dict.length := by
  have eq := congrArg length (keys_set_of_mem value mem)
  simpa only [keys, length_map] using eq

theorem length_set_of_not_mem (value : α) (outside : key ∉ keys dict) :
    (set key value dict).length = dict.length + 1 := by
  induction dict with
  | nil => rfl
  | cons entry rest ih =>
    simp only [keys, map_cons, mem_cons, not_or] at outside
    rw [set, if_neg (Ne.symm outside.1), length_cons, ih outside.2, length_cons]

theorem mem_keys_set (value : α) :
    other ∈ keys (set key value dict) ↔ other = key ∨ other ∈ keys dict := by
  rw [← lookup_isSome, lookup_set, ← lookup_isSome]
  by_cases eq : other = key <;> simp [eq]

theorem nodup_set (nodup : (keys dict).Nodup) (key : κ) (value : α) :
    (keys (set key value dict)).Nodup := by
  induction dict with
  | nil => simp [set, keys]
  | cons entry rest ih =>
    rw [keys, map_cons, nodup_cons] at nodup
    by_cases here : entry.1 = key
    · rw [set, if_pos here, keys, map_cons, nodup_cons, ← here]
      exact nodup
    · rw [set, if_neg here, keys, map_cons, nodup_cons]
      refine ⟨fun mem => ?_, ih nodup.2⟩
      rcases (mem_keys_set value).mp mem with eq | old
      · exact here eq
      · exact nodup.1 old

section Writes

variable {β : Type*} {entry : β → Option (κ × α)} {sources : List β} {key : κ}

theorem lookup_writes_of_none [BEq κ] [LawfulBEq κ]
    (other : ∀ source ∈ sources, ∀ value, entry source ≠ some (key, value))
    (dict : List (κ × α)) :
    (sources.foldl (fun dict source => write (entry source) dict) dict).lookup key =
      dict.lookup key := by
  induction sources generalizing dict with
  | nil => rfl
  | cons source rest ih =>
    rw [foldl_cons, ih fun next mem => other next (mem_cons_of_mem source mem)]
    cases written : entry source with
    | none => rfl
    | some pair =>
      have differs : key ≠ pair.1 := by
        rintro rfl
        exact other source mem_cons_self pair.2 written
      rw [write, lookup_set, if_neg differs]

theorem lookup_writes_of_some [BEq κ] [LawfulBEq κ]
    (inside : ∃ source ∈ sources, entry source = some (key, value))
    (eq : ∀ source ∈ sources, ∀ other, entry source = some (key, other) → other = value)
    (dict : List (κ × α)) :
    (sources.foldl (fun dict source => write (entry source) dict) dict).lookup key =
      some value := by
  induction sources generalizing dict with
  | nil =>
    obtain ⟨source, inside, -⟩ := inside
    cases inside
  | cons source rest ih =>
    rw [foldl_cons]
    by_cases later : ∃ source ∈ rest, ∃ other, entry source = some (key, other)
    · obtain ⟨next, mem, other, written⟩ := later
      obtain rfl := eq next (mem_cons_of_mem source mem) other written
      exact ih ⟨next, mem, written⟩ (fun next inside => eq next (mem_cons_of_mem source inside)) _
    · obtain ⟨first, inside, written⟩ := inside
      rcases mem_cons.mp inside with rfl | inside
      · rw [lookup_writes_of_none fun next inside other equal => later ⟨next, inside, other, equal⟩,
          written, write, lookup_set, if_pos rfl]
      · exact absurd ⟨first, inside, value, written⟩ later

theorem lookup_writes_keyed [BEq κ] [LawfulBEq κ] {keyOf : β → κ} {value : β → Option α}
    {source : β} (mem : source ∈ sources)
    (same : ∀ other ∈ sources, keyOf other = keyOf source → other = source)
    (dict : List (κ × α)) :
    (sources.foldl (fun dict source => write ((value source).map (keyOf source, ·)) dict)
      dict).lookup (keyOf source) = (value source).or (dict.lookup (keyOf source)) := by
  have only (other : β) (inside : other ∈ sources) (found : α)
      (written : (value other).map (keyOf other, ·) = some (keyOf source, found)) :
      value source = some found := by
    obtain ⟨found, given, eq⟩ := Option.map_eq_some_iff.mp written
    cases same other inside (congrArg Prod.fst eq)
    cases eq
    exact given
  cases given : value source with
  | none =>
    refine lookup_writes_of_none (fun other inside found written => ?_) dict
    cases given.symm.trans (only other inside found written)
  | some found =>
    refine lookup_writes_of_some ⟨source, mem, by rw [given]; rfl⟩ ?_ dict
    intro other inside next written
    exact Option.some.inj ((only other inside next written).symm.trans given)

variable {dict : List (κ × α)}

theorem mem_keys_write (pair : Option (κ × α)) :
    key ∈ keys (write pair dict) ↔ key ∈ keys dict ∨ ∃ value, pair = some (key, value) := by
  cases pair with
  | none => simp [write]
  | some pair =>
    rw [write, mem_keys_set, or_comm]
    simp [Prod.ext_iff, eq_comm]

theorem mem_keys_writes :
    key ∈ keys (sources.foldl (fun dict source => write (entry source) dict) dict) ↔
      key ∈ keys dict ∨ ∃ source ∈ sources, ∃ value, entry source = some (key, value) := by
  induction sources generalizing dict with
  | nil => simp
  | cons source rest ih => rw [foldl_cons, ih, mem_keys_write, or_assoc, exists_mem_cons_iff]

theorem mem_writes {pair : κ × α}
    (inside : pair ∈ sources.foldl (fun dict source => write (entry source) dict) dict) :
    pair ∈ dict ∨ ∃ source ∈ sources, entry source = some pair := by
  induction sources generalizing dict with
  | nil => exact .inl inside
  | cons source rest ih =>
    rw [foldl_cons] at inside
    rcases ih inside with there | ⟨later, mem, written⟩
    · cases own : entry source with rw [own] at there
      | none =>
        exact .inl there
      | some first =>
        rcases mem_set there with rfl | old
        · exact .inr ⟨source, mem_cons_self, own⟩
        · exact .inl old
    · exact .inr ⟨later, mem_cons_of_mem source mem, written⟩

theorem lookup_writes [BEq κ] [LawfulBEq κ] (agree : ∀ source ∈ sources, ∀ other ∈ sources,
      ∀ one another, entry source = some (key, one) → entry other = some (key, another) →
        one = another) :
    (sources.foldl (fun dict source => write (entry source) dict) []).lookup key = some value ↔
      ∃ source ∈ sources, entry source = some (key, value) := by
  constructor
  · intro found
    exact (mem_writes (mem_of_lookup found)).resolve_left not_mem_nil
  · rintro ⟨source, mem, written⟩
    refine lookup_writes_of_some ⟨source, mem, written⟩ (fun other inside one eq => ?_) []
    exact agree other inside source mem one value eq written

theorem nodup_writes (nodup : (keys dict).Nodup) :
    (keys (sources.foldl (fun dict source => write (entry source) dict) dict)).Nodup := by
  induction sources generalizing dict with
  | nil => exact nodup
  | cons source rest ih =>
    rw [foldl_cons]
    apply ih
    cases entry source with
    | none => exact nodup
    | some pair => exact nodup_set nodup pair.1 pair.2

end Writes

theorem lookup_filter (nodup : (keys dict).Nodup) (keep : κ × α → Bool) (key : κ) :
    (dict.filter keep).lookup key = (dict.lookup key).filter fun value => keep (key, value) := by
  have distinct : (keys (dict.filter keep)).Nodup := nodup.sublist (filter_sublist.map _)
  cases found : dict.lookup key with
  | none =>
    have missing : key ∉ keys (dict.filter keep) := fun inside =>
      lookup_eq_none.mp found ((filter_sublist.map _).subset inside)
    rw [lookup_eq_none.mpr missing]
    rfl
  | some value =>
    have inside := mem_of_lookup found
    by_cases kept : keep (key, value) = true
    · rw [lookup_of_mem distinct (mem_filter.mpr ⟨inside, kept⟩), Option.filter_some, if_pos kept]
    · have missing : key ∉ keys (dict.filter keep) := by
        intro still
        obtain ⟨⟨other, left⟩, mem, rfl⟩ := mem_map.mp still
        obtain ⟨mem, keeps⟩ := mem_filter.mp mem
        have eq := (lookup_of_mem nodup mem).symm.trans found
        cases eq
        exact kept keeps
      rw [lookup_eq_none.mpr missing, Option.filter_some, if_neg kept]

section Nested

variable {ι : Type*} [DecidableEq ι]

def find (dict : List (κ × List (ι × α))) (outer : κ) (inner : ι) : Option α :=
  (dict.lookup outer).bind (lookup inner)

def put (outer : κ) (inner : ι) (value : α) (dict : List (κ × List (ι × α))) :
    List (κ × List (ι × α)) :=
  set outer (set inner value ((dict.lookup outer).getD [])) dict

theorem find_put (dict : List (κ × List (ι × α))) (outer other : κ) (inner another : ι)
    (value : α) :
    find (put outer inner value dict) other another =
      if other = outer ∧ another = inner then some value else find dict other another := by
  rw [find, put, lookup_set, find]
  by_cases eq : other = outer
  · rw [if_pos eq, Option.bind_some, lookup_set, eq]
    by_cases here : another = inner
    · rw [if_pos here, if_pos ⟨rfl, here⟩]
    · rw [if_neg here, if_neg fun both => here both.2]
      cases dict.lookup outer <;> rfl
  · rw [if_neg eq, if_neg fun both => eq both.1]

theorem find_set_nil (dict : List (κ × List (ι × α))) (key outer : κ) (inner : ι) :
    find (set key [] dict) outer inner = if outer = key then none else find dict outer inner := by
  rw [find, lookup_set]
  by_cases eq : outer = key
  · rw [if_pos eq, if_pos eq]
    rfl
  · rw [if_neg eq, if_neg eq, find]

structure Proper (dict : List (κ × List (ι × α))) : Prop where
  outer : (keys dict).Nodup
  inner : ∀ entry ∈ dict, (keys entry.2).Nodup

variable {dict : List (κ × List (ι × α))}

omit [DecidableEq ι] in
theorem Proper.set (proper : Proper dict) (key : κ) {value : List (ι × α)}
    (nodup : (keys value).Nodup) : Proper (Dict.set key value dict) := by
  refine ⟨nodup_set proper.outer key value, fun entry mem => ?_⟩
  rcases mem_set mem with rfl | old
  · exact nodup
  · exact proper.inner entry old

theorem Proper.put (proper : Proper dict) (outer : κ) (inner : ι) (value : α) :
    Proper (Dict.put outer inner value dict) := by
  refine proper.set outer (nodup_set ?_ inner value)
  cases found : dict.lookup outer with
  | none => exact nodup_nil
  | some entry => exact proper.inner _ (mem_of_lookup found)

theorem Proper.mem_items (proper : Proper dict) {inner : ι} :
    (inner, value) ∈ dict.flatMap Prod.snd ↔ ∃ outer, find dict outer inner = some value := by
  rw [mem_flatMap]
  constructor
  · rintro ⟨⟨outer, entry⟩, inside, mem⟩
    refine ⟨outer, ?_⟩
    rw [find, lookup_of_mem proper.outer inside, Option.bind_some,
      lookup_of_mem (proper.inner _ inside) mem]
  · rintro ⟨outer, found⟩
    obtain ⟨entry, there, inside⟩ := Option.bind_eq_some_iff.mp found
    exact ⟨(outer, entry), mem_of_lookup there, mem_of_lookup inside⟩

end Nested

end Dict
