import TruenasMiddleware.Foundation.Transition
import TruenasMiddleware.Datasets.Keys

/-! Encryption of a hierarchy of datasets under `pool.dataset.create`, `change_key` and
`inherit_parent_encryption_properties` (`plugins/pool_/dataset.py` and
`dataset_encryption_operations.py`). Each of the three checks its part of the hierarchy with
queries, which do not see internal datasets. -/

namespace TruenasMiddleware.Datasets

open Transition List Dict

/-- The parts of the name of a dataset, the last one first. -/
abbrev Path := List String

def pathName : Path → String
  | [] => ""
  | [pool] => pool
  | part :: parent => childName (pathName parent) part

def parents : Path → List Path
  | [] => []
  | [_] => []
  | _ :: parent => parent :: parents parent

/-- A dataset is not encrypted, or an encryption root, or encrypted as its parent is. -/
inductive Crypt
  | off
  | own (format : ZFSKeyFormat)
  | inherits
deriving DecidableEq

abbrev Hierarchy := List (Path × Crypt)

def keyFormat (datasets : Hierarchy) : Path → Option ZFSKeyFormat
  | [] => none
  | part :: parent =>
    match datasets.lookup (part :: parent) with
    | some (.own format) => some format
    | some .inherits => keyFormat datasets parent
    | _ => none

def encryptionRoot (datasets : Hierarchy) : Path → Option Path
  | [] => none
  | part :: parent =>
    match datasets.lookup (part :: parent) with
    | some (.own _) => some (part :: parent)
    | some .inherits => encryptionRoot datasets parent
    | _ => none

def visible (path : Path) : Bool := !isInternalDataset (pathName path)

variable (datasets : Hierarchy)

def found (path : Path) : Bool :=
  visible path && (datasets.lookup path).isSome

def keyRootsBelow (id : Path) : Bool :=
  (Dict.keys datasets).any fun path =>
    visible path && decide (id ∈ parents path) &&
      decide (encryptionRoot datasets path = some path) &&
      (keyFormat datasets path).any fun format => decide (format ≠ .passphrase)

def changeKey (systemPool : String) (datasets : Hierarchy) (id : Path) (passphrase : Bool) :
    Option Hierarchy :=
  if !found datasets id || (keyFormat datasets id).isNone then none
  else if passphrase then
    if keyRootsBelow datasets id || decide (id = [systemPool]) then none
    else some (Dict.set id (.own .passphrase) datasets)
  else if (parents id).any fun parent =>
      found datasets parent && decide (keyFormat datasets parent = some .passphrase) then none
  else some (Dict.set id (.own .hex) datasets)

def inheritParent (id : Path) : Option Hierarchy :=
  if !found datasets id || decide (encryptionRoot datasets id ≠ some id) then none
  else
    match parents id with
    | [] => none
    | parent :: _ =>
      if (keyFormat datasets parent).isNone then none
      else if decide (keyFormat datasets parent = some .passphrase) &&
          keyRootsBelow datasets id then
        none
      else some (Dict.set id .inherits datasets)

structure Creation where
  path : Path
  encryption : Bool := false
  passphrase : Bool := false
  inheritEncryption : Bool := true
  createAncestors : Bool := false

/-- `is_internal_dataset` of the service, which differs from the one of the queries. -/
def isInternalName (path : Path) : Bool :=
  decide (path.getLast?.any fun pool => decide (pool ∈ BOOT_POOL_NAME_VALID)) ||
    ["/.system", "/ix-applications/", "/ix-apps"].any fun text =>
      decide (text.toList <:+: (pathName path).toList)

def nearest (datasets : Hierarchy) : Path → Option Path
  | [] => none
  | part :: parent =>
    if found datasets (part :: parent) then some (part :: parent) else nearest datasets parent

/-- The loop over the parents, from the nearest one up: an encrypted one above an unencrypted one
is an error, and any encrypted one when the new dataset is not to be encrypted. -/
def parentError (datasets : Hierarchy) (plain : Bool) : Bool → List Path → Bool
  | _, [] => false
  | unencryptedParent, parent :: rest =>
    if !found datasets parent then parentError datasets plain unencryptedParent rest
    else if (keyFormat datasets parent).isSome then
      unencryptedParent || plain || parentError datasets plain unencryptedParent rest
    else parentError datasets plain true rest

def keyless (parent : Path) : Crypt :=
  if (keyFormat datasets parent).isSome then .inherits else .off

/-- The datasets of a path that do not exist are created from the top; a pool is not. -/
def createAll (datasets : Hierarchy) : Path → Hierarchy
  | [] => datasets
  | part :: parent =>
    let above := createAll datasets parent
    if parent = [] ∨ (above.lookup (part :: parent)).isSome then above
    else Dict.set (part :: parent) (keyless above parent) above

/-- The checks of `create`, where `parent` is the nearest dataset that exists. -/
def createError (creation : Creation) (parent : Path) : Bool :=
  isInternalName creation.path || (datasets.lookup creation.path).isSome ||
    parentError datasets (!creation.encryption && !creation.inheritEncryption) false
      (parents creation.path) ||
    creation.encryption && (creation.inheritEncryption ||
      !creation.passphrase && decide (keyFormat datasets parent = some .passphrase))

def Creation.crypt (creation : Creation) (datasets : Hierarchy) (direct : Path) : Crypt :=
  if creation.encryption then .own (if creation.passphrase then .passphrase else .hex)
  else keyless datasets direct

def create (creation : Creation) : Option Hierarchy :=
  match parents creation.path with
  | [] => none
  | direct :: _ =>
    match if creation.createAncestors then nearest datasets direct
      else if found datasets direct then some direct else none with
    | none => none
    | some parent =>
      if createError datasets creation parent || !visible creation.path then none
      else
        let base := if creation.createAncestors then createAll datasets direct else datasets
        some (Dict.set creation.path (creation.crypt base direct) base)

inductive Request
  | create (creation : Creation)
  | changeKey (id : Path) (passphrase : Bool)
  | inheritParent (id : Path)

def step (systemPool : String) (datasets : Hierarchy) : Request → Option Hierarchy
  | .create creation => create datasets creation
  | .changeKey id passphrase => changeKey systemPool datasets id passphrase
  | .inheritParent id => inheritParent datasets id

def Closed : Prop :=
  ∀ path, (datasets.lookup path).isSome → ∀ parent ∈ parents path, (datasets.lookup parent).isSome

def KeyRoot (path : Path) : Prop :=
  ∃ format, datasets.lookup path = some (.own format) ∧ format ≠ .passphrase

def Separated : Prop :=
  ∀ path, KeyRoot datasets path → ∀ parent ∈ parents path,
    keyFormat datasets parent ≠ some .passphrase

/-- No internal dataset below is an encryption root with a key. -/
def Unhidden (id : Path) : Prop :=
  ∀ path ∈ Dict.keys datasets, id ∈ parents path → visible path = false → ¬ KeyRoot datasets path

section Paths

theorem parents_cons_cons (part next : String) (rest : Path) :
    parents (part :: next :: rest) = (next :: rest) :: parents (next :: rest) := rfl

variable {part : String} {path parent above : Path}

theorem mem_parents_cons :
    above ∈ parents (part :: parent) ↔ parent ≠ [] ∧ (above = parent ∨ above ∈ parents parent) := by
  cases parent with
  | nil => simp [parents]
  | cons next rest => rw [parents_cons_cons, mem_cons, and_iff_right (cons_ne_nil _ _)]

variable (inside : parent ∈ parents path)
include inside

theorem parents_ne_nil : parent ≠ [] := by
  induction path with
  | nil => cases inside
  | cons part rest ih =>
    obtain ⟨ne, rfl | inside⟩ := mem_parents_cons.mp inside
    · exact ne
    · exact ih inside

theorem parents_trans (higher : above ∈ parents parent) : above ∈ parents path := by
  induction path with
  | nil => cases inside
  | cons part rest ih =>
    obtain ⟨ne, rfl | inside⟩ := mem_parents_cons.mp inside
    · exact mem_parents_cons.mpr ⟨ne, .inr higher⟩
    · exact mem_parents_cons.mpr ⟨ne, .inr (ih inside)⟩

theorem length_lt_of_mem_parents : parent.length < path.length := by
  induction path with
  | nil => cases inside
  | cons part rest ih =>
    obtain ⟨-, rfl | inside⟩ := mem_parents_cons.mp inside
    · exact Nat.lt_succ_self _
    · exact Nat.lt_succ_of_lt (ih inside)

omit inside

theorem visible_of_mem_parents (seen : visible path = true) (inside : parent ∈ parents path) :
    visible parent = true := by
  induction path with
  | nil => cases inside
  | cons part rest ih =>
    obtain ⟨ne, place⟩ := mem_parents_cons.mp inside
    have direct : visible rest = true := by
      by_contra hidden
      rw [visible, Bool.not_eq_true, Bool.not_eq_false'] at hidden
      have below := isInternalDataset_childName part hidden
      rw [visible, pathName, below] at seen
      · cases seen
      · exact ne
    rcases place with rfl | inside
    · exact direct
    · exact ih direct inside

end Paths

section Format

variable {datasets : Hierarchy}

theorem keyFormat_cons (datasets : Hierarchy) (part : String) (parent : Path) :
    keyFormat datasets (part :: parent) = match datasets.lookup (part :: parent) with
      | some (.own format) => some format
      | some .inherits => keyFormat datasets parent
      | _ => none := rfl

variable {format : ZFSKeyFormat} {path id : Path}

theorem encryptionRoot_own (ne : path ≠ []) (own : datasets.lookup path = some (.own format)) :
    encryptionRoot datasets path = some path ∧ keyFormat datasets path = some format := by
  cases path with
  | nil => exact absurd rfl ne
  | cons part parent =>
    rw [encryptionRoot, keyFormat, own]
    exact ⟨rfl, rfl⟩

theorem keyFormat_set_of_not_mem {crypt : Crypt} (apart : path ≠ id) (outside : id ∉ parents path) :
    keyFormat (Dict.set id crypt datasets) path = keyFormat datasets path := by
  induction path with
  | nil => rfl
  | cons part parent ih =>
    rw [keyFormat_cons, keyFormat_cons, lookup_set, if_neg apart]
    cases parent with
    | nil => rfl
    | cons next rest =>
      rw [parents_cons_cons, mem_cons, not_or] at outside
      rw [ih (Ne.symm outside.1) outside.2]

theorem keyFormat_set {crypt : Crypt}
    (changed : keyFormat (Dict.set id crypt datasets) path = some format) :
    keyFormat datasets path = some format ∨ (path = id ∨ id ∈ parents path) ∧
      (crypt = .own format ∨ crypt = .inherits ∧ keyFormat datasets id.tail = some format) := by
  induction path with
  | nil => cases changed
  | cons part parent ih =>
    rw [keyFormat_cons, lookup_set] at changed
    by_cases here : part :: parent = id
    · subst here
      rw [if_pos rfl] at changed
      refine .inr ⟨.inl rfl, ?_⟩
      cases crypt with
      | off => cases changed
      | own own => exact .inl (congrArg Crypt.own (Option.some.inj changed))
      | inherits =>
        refine .inr ⟨rfl, ?_⟩
        dsimp only at changed
        rwa [keyFormat_set_of_not_mem (fun eq => by simpa using congrArg length eq)
          fun inside => absurd (length_lt_of_mem_parents inside) (by simp)] at changed
    · rw [if_neg here] at changed
      rw [keyFormat_cons]
      cases read : datasets.lookup (part :: parent) with rw [read] at changed
      | none => cases changed
      | some crypt' =>
        cases crypt' with
        | off => cases changed
        | own own => exact .inl changed
        | inherits =>
          rcases ih changed with old | ⟨place, how⟩
          · exact .inl old
          · refine .inr ⟨.inr ?_, how⟩
            cases parent with
            | nil => cases changed
            | cons next rest =>
              rw [parents_cons_cons, mem_cons]
              exact place.imp_left Eq.symm

theorem Separated.above (separated : Separated datasets)
    (keyed : keyFormat datasets path = some format) (ne : format ≠ .passphrase) :
    ∀ parent, parent = path ∨ parent ∈ parents path →
      keyFormat datasets parent ≠ some .passphrase := by
  induction path with
  | nil => cases keyed
  | cons part rest ih =>
    rintro parent (rfl | inside)
    · rw [keyed]
      exact fun eq => ne (Option.some.inj eq)
    · rw [keyFormat_cons] at keyed
      split at keyed
      · rename_i own read
        cases keyed
        exact separated _ ⟨_, read, ne⟩ parent inside
      · exact ih keyed parent (mem_parents_cons.mp inside).2
      · cases keyed

end Format

section Check

variable {datasets : Hierarchy} {id path parent : Path}

theorem not_keyRoot_of_query (none : keyRootsBelow datasets id = false)
    (unhidden : Unhidden datasets id) (below : id ∈ parents path) : ¬ KeyRoot datasets path := by
  rintro ⟨format, own, ne⟩
  have inside : path ∈ Dict.keys datasets := exists_lookup.mp ⟨_, own⟩
  cases seen : visible path with
  | false => exact unhidden path inside below seen ⟨format, own, ne⟩
  | true =>
    have root := encryptionRoot_own (fun nil => by rw [nil] at below; cases below) own
    have missed := any_eq_false.mp none path inside
    simp [seen, below, root.1, root.2, ne] at missed

theorem found_of_mem_parents (seen : visible path = true) (closed : Closed datasets)
    (exist : (datasets.lookup path).isSome) (inside : parent ∈ parents path) :
    found datasets parent = true := by
  rw [found, visible_of_mem_parents seen inside, closed path exist parent inside]
  rfl

end Check

section Change

variable {datasets next : Hierarchy} {id path : Path}

theorem KeyRoot.of_set {crypt : Crypt} (root : KeyRoot (Dict.set id crypt datasets) path) :
    (path = id ∧ ∃ format, crypt = .own format ∧ format ≠ .passphrase) ∨
      path ≠ id ∧ KeyRoot datasets path := by
  obtain ⟨format, own, ne⟩ := root
  rw [lookup_set] at own
  by_cases here : path = id
  · rw [if_pos here] at own
    exact .inl ⟨here, format, Option.some.inj own, ne⟩
  · rw [if_neg here] at own
    exact .inr ⟨here, format, own, ne⟩

theorem Separated.passphrase {crypt : Crypt} (separated : Separated datasets)
    (plain : ∀ format, crypt = .own format → format = .passphrase)
    (clear : ∀ path, id ∈ parents path → ¬ KeyRoot datasets path) :
    Separated (Dict.set id crypt datasets) := by
  intro path root parent above passphrase
  rcases root.of_set with ⟨-, format, own, ne⟩ | ⟨-, old⟩
  · exact ne (plain format own)
  · rcases keyFormat_set passphrase with eq | ⟨place, -⟩
    · exact separated path old parent above eq
    · refine clear path ?_ old
      rcases place with rfl | higher
      · exact above
      · exact parents_trans above higher

theorem Separated.key {crypt : Crypt} (separated : Separated datasets)
    (keyed : crypt ≠ .own .passphrase)
    (inherited : crypt = .inherits → keyFormat datasets id.tail ≠ some .passphrase)
    (clear : ∀ format, crypt = .own format → ∀ parent ∈ parents id,
      keyFormat datasets parent ≠ some .passphrase) :
    Separated (Dict.set id crypt datasets) := by
  have old : ∀ path, keyFormat (Dict.set id crypt datasets) path = some .passphrase →
      keyFormat datasets path = some .passphrase := by
    intro path passphrase
    rcases keyFormat_set passphrase with eq | ⟨-, own | ⟨inherits, above⟩⟩
    · exact eq
    · exact absurd own keyed
    · exact absurd above (inherited inherits)
  intro path root parent above passphrase
  rcases root.of_set with ⟨rfl, format, own, -⟩ | ⟨-, root⟩
  · exact clear format own parent above (old parent passphrase)
  · exact separated path root parent above (old parent passphrase)

variable {passphrase : Bool} {systemPool : String}

theorem changeKey_cases (changed : changeKey systemPool datasets id passphrase = some next) :
    found datasets id = true ∧ (passphrase = true ∧ keyRootsBelow datasets id = false ∧
          next = Dict.set id (.own .passphrase) datasets ∨
        passphrase = false ∧ (∀ parent ∈ parents id, found datasets parent = true →
            keyFormat datasets parent ≠ some .passphrase) ∧
          next = Dict.set id (.own .hex) datasets) := by
  rw [changeKey] at changed
  split_ifs at changed with missing given refused refused
  · rw [Bool.or_eq_true, not_or, Bool.not_eq_true, Bool.not_eq_false'] at missing
    rw [Bool.or_eq_true, not_or, Bool.not_eq_true] at refused
    exact ⟨missing.1, .inl ⟨given, refused.1, (Option.some.inj changed).symm⟩⟩
  · rw [Bool.or_eq_true, not_or, Bool.not_eq_true, Bool.not_eq_false'] at missing
    rw [Bool.not_eq_true] at given
    refine ⟨missing.1, .inr ⟨given, fun parent above seen passphrase => ?_,
      (Option.some.inj changed).symm⟩⟩
    rw [Bool.not_eq_true] at refused
    have missed := any_eq_false.mp refused parent above
    simp [seen, passphrase] at missed

theorem inheritParent_cases (changed : inheritParent datasets id = some next) :
    found datasets id = true ∧ id.tail ∈ parents id ∧ next = Dict.set id .inherits datasets := by
  rw [inheritParent] at changed
  split_ifs at changed with missing
  rw [Bool.or_eq_true, not_or, Bool.not_eq_true, Bool.not_eq_false'] at missing
  split at changed
  · cases changed
  · rename_i parent above given
    have direct : id.tail = parent := by
      cases id with
      | nil => cases given
      | cons part rest =>
        cases rest with
        | nil => cases given
        | cons following rest => exact (List.cons.inj given).1
    split_ifs at changed
    rw [given, direct]
    exact ⟨missing.1, mem_cons_self, (Option.some.inj changed).symm⟩

theorem exist_of_found (seen : found datasets id = true) : (datasets.lookup id).isSome :=
  (Bool.and_eq_true_iff.mp seen).2

theorem Separated.inheritParent (separated : Separated datasets)
    (changed : inheritParent datasets id = some next) : Separated next := by
  obtain ⟨-, below, rfl⟩ := inheritParent_cases changed
  by_cases passphrase : keyFormat datasets id.tail = some .passphrase
  · refine separated.passphrase nofun fun path inside root => ?_
    exact separated path root id.tail (parents_trans inside below) passphrase
  · exact separated.key nofun (fun _ => passphrase) nofun

variable (closed : Closed datasets)
include closed

theorem Closed.insert
    (above : ∀ parent ∈ parents id, (datasets.lookup parent).isSome) (crypt : Crypt) :
    Closed (Dict.set id crypt datasets) := by
  have grows : ∀ path, (datasets.lookup path).isSome →
      ((Dict.set id crypt datasets).lookup path).isSome := by
    intro path exist
    rw [lookup_set]
    split_ifs
    · rfl
    · exact exist
  intro path exist parent inside
  rw [lookup_set] at exist
  split_ifs at exist with here
  · exact grows parent (above parent (here ▸ inside))
  · exact grows parent (closed path exist parent inside)

theorem Closed.set (exist : (datasets.lookup id).isSome) (crypt : Crypt) :
    Closed (Dict.set id crypt datasets) :=
  closed.insert (closed id exist) crypt

theorem Closed.changeKey
    (changed : changeKey systemPool datasets id passphrase = some next) : Closed next := by
  obtain ⟨seen, ⟨-, -, rfl⟩ | ⟨-, -, rfl⟩⟩ := changeKey_cases changed
  all_goals exact closed.set (exist_of_found seen) _

theorem Closed.inheritParent (changed : inheritParent datasets id = some next) : Closed next := by
  obtain ⟨seen, -, rfl⟩ := inheritParent_cases changed
  exact closed.set (exist_of_found seen) _

theorem Separated.changeKey (separated : Separated datasets)
    (unhidden : passphrase = true → Unhidden datasets id)
    (changed : changeKey systemPool datasets id passphrase = some next) : Separated next := by
  obtain ⟨seen, ⟨given, none, rfl⟩ | ⟨-, clear, rfl⟩⟩ := changeKey_cases changed
  · refine separated.passphrase (fun format own => (Crypt.own.inj own).symm) fun path below => ?_
    exact not_keyRoot_of_query none (unhidden given) below
  · refine separated.key nofun nofun fun format _ parent above => clear parent above ?_
    exact found_of_mem_parents (Bool.and_eq_true_iff.mp seen).1 closed (exist_of_found seen) above

end Change

section Create

variable {datasets next : Hierarchy} {path nearestPath : Path}

theorem self_not_mem_parents (path : Path) : path ∉ parents path := fun inside =>
  Nat.lt_irrefl _ (length_lt_of_mem_parents inside)

variable {part : String} {parent above id direct : Path} {plain : Bool}

theorem parentError_unencrypted {list : List Path}
    (passed : parentError datasets plain true list = false) :
    ∀ parent ∈ list, found datasets parent = true → keyFormat datasets parent = none := by
  induction list with
  | nil => nofun
  | cons first rest ih =>
    rw [parentError] at passed
    intro parent inside seen
    by_cases hidden : (!found datasets first) = true
    · rw [if_pos hidden] at passed
      rcases mem_cons.mp inside with rfl | inside
      · rw [seen] at hidden
        cases hidden
      · exact ih passed parent inside seen
    · rw [if_neg hidden] at passed
      by_cases encrypted : (keyFormat datasets first).isSome = true
      · rw [if_pos encrypted] at passed
        cases passed
      · rw [if_neg encrypted] at passed
        rcases mem_cons.mp inside with rfl | inside
        · exact Option.not_isSome_iff_eq_none.mp encrypted
        · exact ih passed parent inside seen

theorem parentError_above {unencrypted : Bool}
    (passed : parentError datasets plain unencrypted (parents path) = false)
    (inside : parent ∈ parents path) (seen : found datasets parent = true)
    (bare : keyFormat datasets parent = none) :
    ∀ above ∈ parents parent, found datasets above = true → keyFormat datasets above = none := by
  induction path generalizing unencrypted with
  | nil => cases inside
  | cons part rest ih =>
    cases rest with
    | nil => cases inside
    | cons next rest =>
      rw [parents_cons_cons, parentError] at passed
      rcases mem_cons.mp inside with rfl | inside
      · rw [seen, bare] at passed
        exact parentError_unencrypted passed
      · by_cases hidden : (!found datasets (next :: rest)) = true
        · rw [if_pos hidden] at passed
          exact ih passed inside
        · rw [if_neg hidden] at passed
          by_cases encrypted : (keyFormat datasets (next :: rest)).isSome = true
          · rw [if_pos encrypted] at passed
            exact ih (Bool.or_eq_false_iff.mp passed).2 inside
          · rw [if_neg encrypted] at passed
            exact ih passed inside

theorem nearest_some (near : nearest datasets path = some nearestPath) :
    (nearestPath = path ∨ nearestPath ∈ parents path) ∧ found datasets nearestPath = true ∧
      ∀ other, other = path ∨ other ∈ parents path → found datasets other = true →
        other = nearestPath ∨ other ∈ parents nearestPath := by
  induction path with
  | nil => cases near
  | cons part parent ih =>
    rw [nearest] at near
    split_ifs at near with seen
    · cases near
      exact ⟨.inl rfl, seen, fun other place _ => place⟩
    · obtain ⟨place, there, first⟩ := ih near
      have below : parent ≠ [] := by
        rintro rfl
        cases near
      refine ⟨.inr (mem_parents_cons.mpr ⟨below, place⟩), there, fun other place sees => ?_⟩
      rcases place with rfl | above
      · exact absurd sees seen
      · exact first other (mem_parents_cons.mp above).2 sees

theorem createAll_cons (datasets : Hierarchy) (part : String) (parent : Path) :
    createAll datasets (part :: parent) =
      if parent = [] ∨ ((createAll datasets parent).lookup (part :: parent)).isSome then
        createAll datasets parent
      else Dict.set (part :: parent) (keyless (createAll datasets parent) parent)
        (createAll datasets parent) := rfl

theorem lookup_createAll (datasets : Hierarchy) (path other : Path) :
    (createAll datasets path).lookup other = datasets.lookup other ∨
      datasets.lookup other = none ∧ (other = path ∨ other ∈ parents path) ∧
        ((createAll datasets path).lookup other = some .off ∨
          (createAll datasets path).lookup other = some .inherits) := by
  induction path with
  | nil => exact .inl rfl
  | cons part parent ih =>
    rw [createAll_cons]
    by_cases top : parent = []
    · rw [if_pos (.inl top), top]
      exact .inl rfl
    have lift : other = parent ∨ other ∈ parents parent → other ∈ parents (part :: parent) :=
      fun place => mem_parents_cons.mpr ⟨top, place⟩
    by_cases exist : ((createAll datasets parent).lookup (part :: parent)).isSome
    · rw [if_pos (.inr exist)]
      exact ih.imp_right fun ⟨missing, place, how⟩ => ⟨missing, .inr (lift place), how⟩
    · rw [if_neg (not_or.mpr ⟨top, exist⟩), lookup_set]
      by_cases here : other = part :: parent
      · subst here
        rw [if_pos rfl, keyless]
        have missing : datasets.lookup (part :: parent) = none := by
          rcases ih with eq | ⟨missing, -⟩
          · rw [← eq]
            exact Option.not_isSome_iff_eq_none.mp exist
          · exact missing
        refine .inr ⟨missing, .inl rfl, ?_⟩
        split_ifs
        · exact .inr rfl
        · exact .inl rfl
      · rw [if_neg here]
        exact ih.imp_right fun ⟨missing, place, how⟩ => ⟨missing, .inr (lift place), how⟩

variable {other : Path}

theorem lookup_createAll_of_exist (exist : (datasets.lookup other).isSome) (path : Path) :
    (createAll datasets path).lookup other = datasets.lookup other := by
  rcases lookup_createAll datasets path other with eq | ⟨missing, -⟩
  · exact eq
  · rw [missing] at exist
    cases exist

theorem keyFormat_set_below (inside : above ∈ parents id) (crypt : Crypt) :
    keyFormat (Dict.set id crypt datasets) above = keyFormat datasets above := by
  refine keyFormat_set_of_not_mem ?_ fun higher => ?_
  · rintro rfl
    exact self_not_mem_parents above inside
  · exact self_not_mem_parents id (parents_trans inside higher)

theorem keyFormat_set_keyless (top : parent ≠ []) :
    keyFormat (Dict.set (part :: parent) (keyless datasets parent) datasets) (part :: parent) =
      keyFormat datasets parent := by
  rw [keyFormat_cons, lookup_set, if_pos rfl, keyless]
  split_ifs with encrypted
  · exact keyFormat_set_below (mem_parents_cons.mpr ⟨top, .inl rfl⟩) _
  · exact (Option.not_isSome_iff_eq_none.mp encrypted).symm

theorem eq_cons_of_parents {above : List Path}
    (given : parents path = direct :: above) : ∃ part, path = part :: direct := by
  cases path with
  | nil => cases given
  | cons part rest =>
    cases rest with
    | nil => cases given
    | cons next rest => exact ⟨part, congrArg (part :: ·) (List.cons.inj given).1⟩

theorem nearest_self (ne : direct ≠ []) (there : found datasets direct = true) :
    nearest datasets direct = some direct := by
  cases direct with
  | nil => exact absurd rfl ne
  | cons part rest => rw [nearest, if_pos there]

variable (closed : Closed datasets)
include closed

theorem keyFormat_createAll_of_exist (exist : (datasets.lookup other).isSome) (path : Path) :
    keyFormat (createAll datasets path) other = keyFormat datasets other := by
  induction other with
  | nil => rfl
  | cons part parent ih =>
    rw [keyFormat_cons, keyFormat_cons, lookup_createAll_of_exist exist path]
    cases parent with
    | nil => rfl
    | cons next rest => rw [ih (closed _ exist _ mem_cons_self)]

theorem createAll_of_exist (exist : (datasets.lookup path).isSome) :
    createAll datasets path = datasets := by
  induction path with
  | nil => rfl
  | cons part parent ih =>
    have above : createAll datasets parent = datasets := by
      cases parent with
      | nil => rfl
      | cons next rest => exact ih (closed _ exist _ mem_cons_self)
    rw [createAll_cons, above, if_pos (.inr exist)]

theorem exist_createAll (near : nearest datasets path = some nearestPath) :
    ∀ other, other = path ∨ other ∈ parents path →
      ((createAll datasets path).lookup other).isSome := by
  induction path with
  | nil => cases near
  | cons part parent ih =>
    rw [nearest] at near
    intro other place
    split_ifs at near with seen
    · rw [createAll_of_exist closed (exist_of_found seen)]
      rcases place with rfl | above
      · exact exist_of_found seen
      · exact closed _ (exist_of_found seen) other above
    · have top : parent ≠ [] := by
        rintro rfl
        cases near
      rw [createAll_cons]
      split_ifs with exist
      · rcases place with rfl | above
        · exact exist.resolve_left top
        · exact ih near other (mem_parents_cons.mp above).2
      · rw [lookup_set]
        by_cases here : other = part :: parent
        · rw [if_pos here, Option.isSome_some]
        · rw [if_neg here]
          exact ih near other (mem_parents_cons.mp (place.resolve_left here)).2

theorem keyFormat_createAll_of_missing (seen : visible path = true)
    (near : nearest datasets path = some nearestPath) (place : other = path ∨ other ∈ parents path)
    (missing : datasets.lookup other = none) :
    keyFormat (createAll datasets path) other = keyFormat datasets nearestPath := by
  induction path generalizing other with
  | nil => cases near
  | cons part parent ih =>
    rw [nearest] at near
    split_ifs at near with there
    · -- the path exists, and so does what is above it
      have exist : (datasets.lookup other).isSome := by
        rcases place with rfl | above
        · exact exist_of_found there
        · exact closed _ (exist_of_found there) other above
      rw [missing] at exist
      cases exist
    have top : parent ≠ [] := by
      rintro rfl
      cases near
    have direct : parent ∈ parents (part :: parent) := mem_parents_cons.mpr ⟨top, .inl rfl⟩
    have seenParent := visible_of_mem_parents seen direct
    have absent : ¬ ((createAll datasets parent).lookup (part :: parent)).isSome := by
      rcases lookup_createAll datasets parent (part :: parent) with eq | ⟨-, place, -⟩
      · rw [eq]
        intro exist
        exact there (by rw [found, seen, exist]; rfl)
      · exact absurd (mem_parents_cons.mpr ⟨top, place⟩) (self_not_mem_parents _)
    have parentFormat : keyFormat (createAll datasets parent) parent =
        keyFormat datasets nearestPath := by
      cases exist : datasets.lookup parent with
      | none => exact ih seenParent near (.inl rfl) exist
      | some crypt =>
        have present : (datasets.lookup parent).isSome := by rw [exist, Option.isSome_some]
        have here := (nearest_some near).2.2 parent (.inl rfl)
          (by rw [found, seenParent, present]; rfl)
        have eq : parent = nearestPath := by
          rcases here with eq | above
          · exact eq
          · rcases (nearest_some near).1 with eq | below
            · exact eq.symm
            · exact absurd (parents_trans below above) (self_not_mem_parents parent)
        rw [keyFormat_createAll_of_exist closed present parent, eq]
    rw [createAll_cons, if_neg (not_or.mpr ⟨top, absent⟩)]
    by_cases here : other = part :: parent
    · rw [here, keyFormat_set_keyless top, parentFormat]
    · have inside := place.resolve_left here
      rw [keyFormat_set_below inside]
      exact ih seenParent near (mem_parents_cons.mp inside).2 missing

structure Created (datasets : Hierarchy) (creation : Creation) (next : Hierarchy) : Prop where
  seen : visible creation.path = true
  missing : datasets.lookup creation.path = none
  made : ∃ part direct nearestPath, direct ≠ [] ∧ creation.path = part :: direct ∧
    nearest datasets direct = some nearestPath ∧
    (creation.encryption = true → creation.passphrase = false →
      keyFormat datasets nearestPath ≠ some .passphrase) ∧
    next = Dict.set creation.path (creation.crypt (createAll datasets direct) direct)
      (createAll datasets direct)
  passed : ∃ plain, parentError datasets plain false (parents creation.path) = false

theorem create_cases {creation : Creation}
    (created : create datasets creation = some next) : Created datasets creation next := by
  rw [create] at created
  split at created
  · cases created
  rename_i direct above given
  have ne : direct ≠ [] := parents_ne_nil (given ▸ mem_cons_self)
  obtain ⟨part, path⟩ := eq_cons_of_parents given
  split at created
  · cases created
  rename_i parent chosen
  -- with or without the ancestors, the nearest dataset is checked and the missing ones are made
  have near : nearest datasets direct = some parent ∧
      (if creation.createAncestors then createAll datasets direct else datasets) =
        createAll datasets direct := by
    by_cases ancestors : creation.createAncestors = true
    · rw [if_pos ancestors] at chosen ⊢
      exact ⟨chosen, rfl⟩
    · rw [if_neg ancestors] at chosen ⊢
      split_ifs at chosen with there
      cases chosen
      exact ⟨nearest_self ne there, (createAll_of_exist closed (exist_of_found there)).symm⟩
  rw [near.2] at created
  split_ifs at created with refused
  rw [Bool.or_eq_true, not_or, Bool.not_eq_true, Bool.not_eq_true, Bool.not_eq_false'] at refused
  obtain ⟨allowed, seen⟩ := refused
  rw [createError, Bool.or_eq_false_iff, Bool.or_eq_false_iff, Bool.or_eq_false_iff] at allowed
  obtain ⟨⟨⟨-, missing⟩, passed⟩, keyed⟩ := allowed
  refine ⟨seen, Option.isSome_eq_false_iff.mp missing |> Option.isNone_iff_eq_none.mp,
    ⟨part, direct, parent, ne, path, near.1, fun encryption key passphrase => ?_,
      (Option.some.inj created).symm⟩, _, passed⟩
  simp [encryption, key, passphrase] at keyed

variable {creation : Creation} {next : Hierarchy}

theorem Closed.createAll
    (near : nearest datasets path = some nearestPath) : Closed (createAll datasets path) := by
  intro other exist parent inside
  rcases lookup_createAll datasets path other with eq | ⟨-, place, -⟩
  · rw [eq] at exist
    have above := closed other exist parent inside
    rwa [lookup_createAll_of_exist above]
  · refine exist_createAll closed near parent (.inr ?_)
    rcases place with rfl | higher
    · exact inside
    · exact parents_trans higher inside

theorem Closed.create (created : create datasets creation = some next) : Closed next := by
  obtain ⟨part, direct, near, ne, path, nearest, -, rfl⟩ := (create_cases closed created).made
  refine (closed.createAll nearest).insert (fun parent inside => ?_) _
  rw [path] at inside
  exact exist_createAll closed nearest parent (mem_parents_cons.mp inside).2

variable (created : Created datasets creation next)
include created

theorem Created.parents :
    ∃ nearestPath, found datasets nearestPath = true ∧ nearestPath ∈ parents creation.path ∧
      (creation.encryption = true → creation.passphrase = false →
        keyFormat datasets nearestPath ≠ some .passphrase) ∧
      ∀ parent ∈ Datasets.parents creation.path,
        keyFormat next parent = keyFormat datasets nearestPath ∨
          parent ∈ Datasets.parents nearestPath ∧ found datasets parent = true ∧
            keyFormat next parent = keyFormat datasets parent := by
  obtain ⟨part, direct, nearestPath, ne, path, near, keyed, rfl⟩ := created.made
  obtain ⟨place, there, first⟩ := nearest_some near
  have seen : ∀ parent ∈ Datasets.parents creation.path, visible parent = true :=
    fun parent inside => visible_of_mem_parents created.seen inside
  have direct_mem : direct ∈ Datasets.parents creation.path := by
    rw [path]
    exact mem_parents_cons.mpr ⟨ne, .inl rfl⟩
  refine ⟨nearestPath, there, ?_, keyed, fun parent inside => ?_⟩
  · rw [path]
    exact mem_parents_cons.mpr ⟨ne, place⟩
  · rw [keyFormat_set_below inside]
    have position : parent = direct ∨ parent ∈ Datasets.parents direct := by
      rw [path] at inside
      exact (mem_parents_cons.mp inside).2
    cases exist : datasets.lookup parent with
    | none =>
      exact .inl
        (keyFormat_createAll_of_missing closed (seen direct direct_mem) near position exist)
    | some crypt =>
      have present : (datasets.lookup parent).isSome := by rw [exist, Option.isSome_some]
      have sees : found datasets parent = true := by
        rw [found, seen parent inside, present]
        rfl
      rw [keyFormat_createAll_of_exist closed present]
      rcases first parent position sees with rfl | above
      · exact .inl rfl
      · exact .inr ⟨above, sees, rfl⟩

theorem Created.old (exist : (datasets.lookup other).isSome) :
    keyFormat next other = keyFormat datasets other := by
  obtain ⟨part, direct, nearestPath, -, -, -, -, rfl⟩ := created.made
  rw [keyFormat_set_of_not_mem, keyFormat_createAll_of_exist closed exist]
  · rintro rfl
    rw [created.missing] at exist
    cases exist
  · intro above
    have there := closed other exist _ above
    rw [created.missing] at there
    cases there

theorem Separated.create (separated : Separated datasets) : Separated next := by
  obtain ⟨nearestPath, there, inside, keyed, formats⟩ := created.parents closed
  intro path root parent above passphrase
  have origin : path = creation.path ∧ creation.encryption = true ∧ creation.passphrase = false ∨
      KeyRoot datasets path := by
    obtain ⟨part, direct, -, -, -, -, -, rfl⟩ := created.made
    rcases root.of_set with ⟨here, format, own, ne⟩ | ⟨-, format, own, ne⟩
    · rw [Creation.crypt] at own
      split_ifs at own with encryption given
      · exact absurd (Crypt.own.inj own).symm ne
      · exact .inl ⟨here, encryption, Bool.not_eq_true _ ▸ given⟩
      · rw [keyless] at own
        split_ifs at own
    · -- what is made on the way has no key of its own
      rcases lookup_createAll datasets direct path with eq | ⟨-, -, off | inherits⟩
      · exact .inr ⟨format, eq ▸ own, ne⟩
      · rw [off] at own
        cases own
      · rw [inherits] at own
        cases own
  rcases origin with ⟨rfl, encryption, key⟩ | old
  · rcases formats parent above with eq | ⟨higher, seen, eq⟩
    · exact keyed encryption key (eq ▸ passphrase)
    · rw [eq] at passphrase
      cases nearestFormat : keyFormat datasets nearestPath with
      | none =>
        obtain ⟨plain, passed⟩ := created.passed
        rw [parentError_above passed inside there nearestFormat parent higher seen] at passphrase
        cases passphrase
      | some format =>
        have ne : format ≠ .passphrase := by
          rintro rfl
          exact keyed encryption key nearestFormat
        exact separated.above nearestFormat ne parent (.inr higher) passphrase
  · obtain ⟨format, own, ne⟩ := old
    have exist := closed path (by rw [own]; rfl) parent above
    rw [created.old closed exist] at passphrase
    exact separated path ⟨format, own, ne⟩ parent above passphrase

theorem Created.unencrypted
    (missing : datasets.lookup path = none) (exist : (next.lookup path).isSome)
    (bare : keyFormat next path = none) :
    ∀ parent ∈ Datasets.parents path, keyFormat next parent = none := by
  obtain ⟨nearestPath, there, inside, -, formats⟩ := created.parents closed
  -- the new datasets are those of the path, all encrypted if the nearest old one is
  have place : path = creation.path ∨ path ∈ Datasets.parents creation.path := by
    obtain ⟨part, direct, -, ne, whole, -, -, rfl⟩ := created.made
    rw [lookup_set] at exist
    split_ifs at exist with here
    · exact .inl here
    · rcases lookup_createAll datasets direct path with eq | ⟨-, position, -⟩
      · rw [eq, missing] at exist
        cases exist
      · rw [whole]
        exact .inr (mem_parents_cons.mpr ⟨ne, position⟩)
  have nearestBare : keyFormat datasets nearestPath = none := by
    rcases place with rfl | above
    · obtain ⟨part, direct, -, ne, whole, -, -, made⟩ := created.made
      have direct_mem : direct ∈ Datasets.parents creation.path := by
        rw [whole]
        exact mem_parents_cons.mpr ⟨ne, .inl rfl⟩
      have bareDirect : keyFormat next direct = none := by
        rw [made, Creation.crypt] at bare
        split_ifs at bare
        · rw [whole, keyFormat_cons, lookup_set, if_pos rfl] at bare
          cases bare
        · rw [whole, keyFormat_cons, lookup_set, if_pos rfl] at bare
          cases bare
        · rw [made, keyFormat_set_below direct_mem]
          rwa [whole, keyFormat_set_keyless ne] at bare
      rcases formats direct direct_mem with eq | ⟨up, -, -⟩
      · exact eq ▸ bareDirect
      · rw [whole] at inside
        rcases (mem_parents_cons.mp inside).2 with rfl | lower
        · exact absurd up (self_not_mem_parents _)
        · exact absurd (parents_trans lower up) (self_not_mem_parents _)
    · rcases formats path above with eq | ⟨-, seen, -⟩
      · exact eq ▸ bare
      · have present := exist_of_found seen
        rw [missing] at present
        cases present
  intro parent above
  have higher : parent ∈ Datasets.parents creation.path := by
    rcases place with rfl | below
    · exact above
    · exact parents_trans below above
  rcases formats parent higher with eq | ⟨up, seen, eq⟩
  · rw [eq, nearestBare]
  · obtain ⟨plain, passed⟩ := created.passed
    rw [eq, parentError_above passed inside there nearestBare parent up seen]

end Create

variable (datasets : Hierarchy)

/-- No internal dataset below one that is to get a passphrase is an encryption root with a key. -/
def Exposed : Request → Prop
  | .changeKey id passphrase => passphrase = true → Unhidden datasets id
  | _ => True

instance : Decidable (Closed datasets) :=
  decidable_of_iff (∀ path ∈ Dict.keys datasets, ∀ parent ∈ parents path,
      (datasets.lookup parent).isSome)
    (forall_congr' fun _ => imp_congr lookup_isSome.symm Iff.rfl)

instance (path : Path) : Decidable (KeyRoot datasets path) :=
  decidable_of_iff
    (datasets.lookup path = some (.own .hex) ∨ datasets.lookup path = some (.own .raw)) (by
      constructor
      · rintro (own | own)
        · exact ⟨.hex, own, nofun⟩
        · exact ⟨.raw, own, nofun⟩
      · rintro ⟨format, own, ne⟩
        cases format with
        | hex => exact .inl own
        | raw => exact .inr own
        | passphrase => exact absurd rfl ne)

theorem KeyRoot.mem_keys {datasets : Hierarchy} {path : Path} (root : KeyRoot datasets path) :
    path ∈ Dict.keys datasets := by
  obtain ⟨format, own, -⟩ := root
  exact exists_lookup.mp ⟨_, own⟩

instance : Decidable (Separated datasets) :=
  decidable_of_iff (∀ path ∈ Dict.keys datasets, KeyRoot datasets path → ∀ parent ∈ parents path,
      keyFormat datasets parent ≠ some .passphrase)
    ⟨fun all path root => all path root.mem_keys root, fun all path _ root => all path root⟩

instance (id : Path) : Decidable (Unhidden datasets id) :=
  inferInstanceAs (Decidable (∀ path ∈ Dict.keys datasets, _ → _ → ¬ KeyRoot datasets path))

instance : (request : Request) → Decidable (Exposed datasets request)
  | .changeKey _ _ => inferInstanceAs (Decidable (_ → _))
  | .inheritParent _ => .isTrue trivial
  | .create _ => .isTrue trivial

section Runs

variable {systemPool : String} {datasets next start : Hierarchy} {request : Request}

theorem Closed.step (closed : Closed datasets)
    (taken : step systemPool datasets request = some next) : Closed next := by
  cases request with
  | create creation => exact closed.create taken
  | changeKey id passphrase => exact closed.changeKey taken
  | inheritParent id => exact closed.inheritParent taken

theorem Separated.step (closed : Closed datasets) (separated : Separated datasets)
    (exposed : Exposed datasets request)
    (taken : step systemPool datasets request = some next) : Separated next := by
  cases request with
  | create creation => exact separated.create closed (create_cases closed taken)
  | changeKey id passphrase => exact separated.changeKey closed exposed taken
  | inheritParent id => exact separated.inheritParent taken

/-- From a hierarchy in which no encryption root with a key is below a passphrase, every run whose
steps are all exposed keeps it so; and in any run a dataset that a call of `create` makes and that
is not encrypted has no encrypted one above it. -/
theorem hierarchy_separated (closed : Closed start) (separated : Separated start) :
    (∀ datasets, Reach (step systemPool) Exposed start datasets → Separated datasets) ∧
    ∀ datasets, Reach (step systemPool) Always start datasets →
      ∀ creation next, step systemPool datasets (.create creation) = some next →
        ∀ path, datasets.lookup path = none → (next.lookup path).isSome →
          keyFormat next path = none → ∀ parent ∈ parents path, keyFormat next parent = none := by
  constructor
  · intro datasets reached
    have both := reached.invariant (P := fun datasets => Closed datasets ∧ Separated datasets)
      ⟨closed, separated⟩ fun _ _ _ inv exposed stepped =>
        ⟨inv.1.step stepped, inv.2.step inv.1 exposed stepped⟩
    exact both.2
  · intro datasets reached creation next stepped path missing exist bare
    have closed : Closed datasets :=
      reached.invariant closed fun _ _ _ closed _ stepped => closed.step stepped
    exact (create_cases closed stepped).unencrypted closed missing exist bare

theorem hierarchy_separated_locked :
    ∃ datasets, Reach (step "boot-pool") Exposed [(["tank"], .own .hex)] datasets ∧
      keyFormat datasets ["a", "b", "tank"] = some .passphrase ∧
      keyFormat datasets ["c", "tank"] = some .hex ∧ Separated datasets := by
  exact exists_reach_of_run (P := fun datasets =>
      keyFormat datasets ["a", "b", "tank"] = some .passphrase ∧
        keyFormat datasets ["c", "tank"] = some .hex)
    [.create { path := ["a", "b", "tank"], createAncestors := true },
      .create { path := ["c", "tank"], encryption := true, inheritEncryption := false },
      .changeKey ["b", "tank"] true, .changeKey ["a", "b", "tank"] true,
      .inheritParent ["a", "b", "tank"]]
    (by decide +kernel) fun datasets reached ⟨locked, keyed⟩ =>
      ⟨locked, keyed, (hierarchy_separated (by decide) (by decide)).1 datasets reached⟩

/-- An internal dataset with a key of its own is not seen when the pool gets a passphrase. -/
theorem hierarchy_key_below_passphrase :
    Closed [(["tank"], .own .hex), (["ix-apps", "tank"], .own .hex)] ∧
    Separated [(["tank"], .own .hex), (["ix-apps", "tank"], .own .hex)] ∧
    ∃ datasets, Reach (step "boot-pool") Always
        [(["tank"], .own .hex), (["ix-apps", "tank"], .own .hex)] datasets ∧
      keyFormat datasets ["tank"] = some .passphrase ∧ KeyRoot datasets ["ix-apps", "tank"] := by
  refine ⟨by decide, by decide, exists_reach_of_exec [.changeKey ["tank"] true] ?_⟩
  decide +kernel

end Runs

end TruenasMiddleware.Datasets
