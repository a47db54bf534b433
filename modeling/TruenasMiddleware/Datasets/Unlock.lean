import TruenasMiddleware.Datasets.Keys

/-! `encryption_summary` and `unlock` of a hierarchy of encryption roots, where the mount paths are
free and mounting succeeds. Before that `unlock` hands recursive keys down. -/

namespace TruenasMiddleware.Datasets.Unlock

open List

abbrev Name := List String

structure Root where
  name : Name
  keyFormat : ZFSKeyFormat
  locked : Bool
  encryptionKey : Option String

def falsy : Material → Bool
  | .text key => decide (key = "")
  | .bytes key => decide (key = [])

/-- The encryption roots of `id` and below in the order of depth in which both functions sort
them, the keys that are given, none of them empty, and the answers of `check_key`; `load_key`
returns for the keys that it accepts. `unforced` are the elements of `unlock_options.datasets` where
neither they nor the options have `force`. -/
structure Hierarchy where
  id : Name
  datasets : List Name
  unforced : List Name
  roots : List Root
  named : id ≠ []
  under : ∀ root ∈ roots, id <+: root.name
  distinct : (roots.map Root.name).Nodup
  sorted : roots.Pairwise fun first second => first.name.length ≤ second.name.length
  keysSupplied : Name → Option String
  given : ∀ name, keysSupplied name ≠ some ""
  fromhex : String → Option (List UInt8)
  checkKey : Name → Option Material → Bool
  keyless : ∀ name, checkKey name none = false
  empty : ∀ name key, falsy key = true → checkKey name (some key) = false
  rawBytes : ∀ root ∈ roots, root.keyFormat = .raw →
    ∀ text, checkKey root.name (some (.text text)) = false

def above (name : Name) : List Name :=
  name.inits.filter fun start => decide (start ≠ [] ∧ start ≠ name)

def summaryLoop (valid : Root → Bool) : List Name → List Root → List (Root × Bool)
  | _, [] => []
  | failed, root :: rest =>
    let error := (above root.name).any failed.contains
    let failed := if error then root.name :: failed else failed
    if valid root then (root, !error) :: summaryLoop valid failed rest
    else if root.locked then (root, false) :: summaryLoop valid (root.name :: failed) rest
    else (root, true) :: summaryLoop valid failed rest

def unlockLoop (opens : Root → Bool) : List Name → List Root → List Root
  | _, [] => []
  | failed, root :: rest =>
    if (root.name :: above root.name).any failed.contains then
      unlockLoop opens failed rest
    else if opens root then root :: unlockLoop opens failed rest
    else unlockLoop opens (root.name :: failed) rest

namespace Hierarchy

variable (h : Hierarchy)

def key (root : Root) : Option String :=
  (h.keysSupplied root.name).or root.encryptionKey

/-- A raw key that is not hexadecimal is checked as it is. -/
def valid (root : Root) : Bool :=
  h.checkKey root.name ((h.key root).map fun key =>
    if root.keyFormat = .raw ∧ key ≠ "" then (h.fromhex key).elim (.text key) .bytes
    else .text key)

def encryptionSummary : List (Root × Bool) := summaryLoop h.valid [] h.roots

/-- A raw key that is not hexadecimal is dropped. -/
def unlockKey (root : Root) : Option Material :=
  (h.key root).bind fun key =>
    if root.keyFormat = .raw ∧ key ≠ "" then (h.fromhex key).map .bytes else some (.text key)

def opens (root : Root) : Bool :=
  (h.unlockKey root).any fun key => !falsy key && h.checkKey root.name (some key)

def isLocked : Bool := h.roots.any fun root => decide (root.name = h.id) && root.locked

/-- `pool.dataset.get_instance` finds the dataset. -/
def found (name : Name) : Bool :=
  h.datasets.any (fun other => decide (other = name)) &&
    !isInternalDataset ("/".intercalate name)

/-- With `recursive`; `none` is a validation error or `InstanceNotFound`. A validation error for a
missing key of `id` is left out, as nothing is unlocked then in any case. -/
def unlock : Option (List Root) :=
  if h.found h.id = false ∨ h.unforced.any (fun name => !h.found name) = true then none
  else if 1 < h.id.length ∧ h.isLocked = false then none
  else some (unlockLoop h.opens [] (h.roots.filter Root.locked))

def marked : List Root :=
  (h.encryptionSummary.filter fun result => result.1.locked && result.2).map Prod.fst

end Hierarchy

variable {h : Hierarchy} {root : Root}

theorem valid_eq_opens (mem : root ∈ h.roots) : h.valid root = h.opens root := by
  have check (key : Material) : (!falsy key && h.checkKey root.name (some key)) =
      h.checkKey root.name (some key) := by
    cases blank : falsy key with
    | true => rw [h.empty root.name key blank, Bool.and_false]
    | false => rw [Bool.not_false, Bool.true_and]
  unfold Hierarchy.valid Hierarchy.opens Hierarchy.unlockKey
  simp only [check]
  cases h.key root with
  | none => exact h.keyless root.name
  | some key =>
    by_cases raw : root.keyFormat = .raw ∧ key ≠ ""
    · cases hex : h.fromhex key <;> simp [raw, hex, h.rawBytes root mem raw.1]
    · simp [raw]

variable {failed skipped : List Name} {opens : Root → Bool} {roots : List Root}

theorem any_above {name : Name} (solid : ∀ name ∈ failed, name ≠ []) :
    (above name).any failed.contains = true ↔ ∃ start ∈ failed, start <+: name ∧ start ≠ name := by
  simp only [above, any_eq_true, mem_filter, mem_inits, decide_eq_true_eq, contains_iff_mem]
  constructor
  · rintro ⟨start, ⟨below, -, other⟩, mem⟩
    exact ⟨start, mem, below, other⟩
  · rintro ⟨start, mem, below, other⟩
    exact ⟨start, ⟨below, solid start mem, other⟩, mem⟩

theorem skipped_iff {name : Name} (solid : ∀ name ∈ skipped, name ≠ []) :
    (name :: above name).any skipped.contains = true ↔ ∃ start ∈ skipped, start <+: name := by
  rw [any_cons, Bool.or_eq_true, any_above solid, contains_iff_mem]
  constructor
  · rintro (own | ⟨start, inside, below, -⟩)
    · exact ⟨name, own, prefix_refl _⟩
    · exact ⟨start, inside, below⟩
  · rintro ⟨start, inside, below⟩
    by_cases own : start = name
    · exact .inl (own ▸ inside)
    · exact .inr ⟨start, inside, below, own⟩

/-- Both loops pass over what is below a failed root: the two sets of failed names block the same
roots at every turn. -/
theorem loops_agree {valid : Root → Bool}
    (eq : ∀ root ∈ roots, valid root = opens root) (named : ∀ root ∈ roots, root.name ≠ [])
    (distinct : (roots.map Root.name).Nodup)
    (fresh : ∀ name ∈ failed, name ≠ [] ∧ ∀ root ∈ roots, name ≠ root.name)
    (solid : ∀ name ∈ skipped, name ≠ [])
    (closed : ∀ name, (∃ start ∈ failed, start <+: name) ↔ ∃ start ∈ skipped, start <+: name) :
    ((summaryLoop valid failed roots).filter fun result => result.1.locked && result.2).map
      Prod.fst = unlockLoop opens skipped (roots.filter Root.locked) := by
  induction roots generalizing failed skipped with
  | nil => rfl
  | cons root rest ih =>
    obtain ⟨here, eq⟩ := forall_mem_cons.mp eq
    obtain ⟨solidRoot, named⟩ := forall_mem_cons.mp named
    obtain ⟨single, distinct⟩ := nodup_cons.mp distinct
    have later : ∀ name ∈ failed, name ≠ [] ∧ ∀ root ∈ rest, name ≠ root.name := fun name inside =>
      ⟨(fresh name inside).1, (forall_mem_cons.mp (fresh name inside).2).2⟩
    have error : (above root.name).any failed.contains = true ↔
        ∃ start ∈ failed, start <+: root.name := by
      rw [any_above fun name inside => (fresh name inside).1]
      exact exists_congr fun start => and_congr_right fun inside =>
        and_iff_left ((fresh start inside).2 root mem_cons_self)
    -- The loops go on with a failed root that blocks what `skipped'` blocks.
    have grown : ∀ failed' skipped', (∀ name, name ∈ failed' ↔ name = root.name ∨ name ∈ failed) →
        (∀ name ∈ skipped', name ≠ []) →
        (∀ name, root.name <+: name ∨ (∃ start ∈ skipped, start <+: name) ↔
          ∃ start ∈ skipped', start <+: name) →
        ((summaryLoop valid failed' rest).filter fun result => result.1.locked && result.2).map
          Prod.fst = unlockLoop opens skipped' (rest.filter Root.locked) := by
      intro failed' skipped' members solid' closed'
      refine ih eq named distinct (fun name inside => ?_) solid' fun name => ?_
      · rcases (members name).mp inside with rfl | old
        · exact ⟨solidRoot, fun other mem clash => single (clash ▸ mem_map_of_mem mem)⟩
        · exact later name old
      · rw [← closed', ← closed]
        simp [members, or_and_right, exists_or]
    have tests : (root.name :: above root.name).any skipped.contains =
        (above root.name).any failed.contains := by
      rw [Bool.eq_iff_iff, error, skipped_iff solid, closed]
    simp only [summaryLoop]
    generalize (above root.name).any failed.contains = test at error tests ⊢
    cases test with
    | true =>
      obtain ⟨start, inside, higher⟩ := error.mp rfl
      have absorbed := fun failed' members => grown failed' skipped members solid fun name =>
        or_iff_right_of_imp fun below => (closed name).mp ⟨start, inside, higher.trans below⟩
      cases valid root <;> cases locked : root.locked <;> simp [unlockLoop, locked, tests, absorbed]
    | false =>
      have both := fun failed' members => grown failed' (root.name :: skipped) members
        (forall_mem_cons.mpr ⟨solidRoot, solid⟩) (by simp)
      cases right : valid root <;> cases locked : root.locked <;>
        simp [unlockLoop, locked, tests, both, ← here, right,
          ih eq named distinct later solid closed]

/-- What the loop unlocks: every root at or above opens. -/
theorem mem_unlockLoop (named : ∀ root ∈ roots, root.name ≠ [])
    (distinct : (roots.map Root.name).Nodup)
    (sorted : roots.Pairwise fun first second => first.name.length ≤ second.name.length)
    (solid : ∀ name ∈ skipped, name ≠ []) :
    root ∈ unlockLoop opens skipped roots ↔ root ∈ roots ∧
      (∀ name ∈ skipped, ¬ name <+: root.name) ∧
      ∀ other ∈ roots, other.name <+: root.name → opens other = true := by
  induction roots generalizing skipped with
  | nil => simp [unlockLoop]
  | cons first rest ih =>
    obtain ⟨firstNamed, named⟩ := forall_mem_cons.mp named
    obtain ⟨single, distinct⟩ := nodup_cons.mp distinct
    obtain ⟨shortest, sorted⟩ := pairwise_cons.mp sorted
    have alone : ∀ other ∈ rest, ¬ other.name <+: first.name := fun other mem below =>
      single (below.eq_of_length_le (shortest other mem) ▸ mem_map_of_mem mem)
    rw [unlockLoop]
    split_ifs with skip opened
    · obtain ⟨name, mem, below⟩ := (skipped_iff solid).mp skip
      rw [ih named distinct sorted solid]
      constructor
      · rintro ⟨inside, free, all⟩
        exact ⟨mem_cons_of_mem _ inside, free, forall_mem_cons.mpr
          ⟨fun higher => absurd (below.trans higher) (free name mem), all⟩⟩
      · rintro ⟨inside, free, all⟩
        rcases mem_cons.mp inside with rfl | inside
        · exact absurd below (free name mem)
        · exact ⟨inside, free, (forall_mem_cons.mp all).2⟩
    · rw [mem_cons, ih named distinct sorted solid]
      constructor
      · rintro (rfl | ⟨inside, free, all⟩)
        · exact ⟨mem_cons_self,
            fun name mem below => skip ((skipped_iff solid).mpr ⟨name, mem, below⟩),
            forall_mem_cons.mpr ⟨fun _ => opened, fun other mem below =>
              absurd below (alone other mem)⟩⟩
        · exact ⟨mem_cons_of_mem _ inside, free, forall_mem_cons.mpr ⟨fun _ => opened, all⟩⟩
      · rintro ⟨inside, free, all⟩
        exact (mem_cons.mp inside).imp_right fun inside =>
          ⟨inside, free, (forall_mem_cons.mp all).2⟩
    · rw [ih named distinct sorted (forall_mem_cons.mpr ⟨firstNamed, solid⟩)]
      constructor
      · rintro ⟨inside, free, all⟩
        obtain ⟨apart, free⟩ := forall_mem_cons.mp free
        exact ⟨mem_cons_of_mem _ inside, free,
          forall_mem_cons.mpr ⟨fun below => absurd below apart, all⟩⟩
      · rintro ⟨inside, free, all⟩
        obtain ⟨here, all⟩ := forall_mem_cons.mp all
        rcases mem_cons.mp inside with rfl | inside
        · exact absurd (here (prefix_refl _)) opened
        · exact ⟨inside, forall_mem_cons.mpr ⟨fun below => opened (here below), free⟩, all⟩

/-- `unlock` finds all that it looks up, and does not refuse the dataset. -/
structure Hierarchy.Accepted (h : Hierarchy) : Prop where
  id : h.found h.id = true
  unforced : ∀ name ∈ h.unforced, h.found name = true
  locked : h.id.length ≤ 1 ∨ h.isLocked = true

/-- Every locked root is, or is below, a locked one that its key does not open. -/
def Hierarchy.Hopeless (h : Hierarchy) : Prop :=
  ∀ root ∈ h.roots, root.locked = true →
    ∃ other ∈ h.roots, other.locked = true ∧ other.name <+: root.name ∧ h.opens other = false

theorem marked_eq_unlockLoop (h : Hierarchy) :
    h.marked = unlockLoop h.opens [] (h.roots.filter Root.locked) :=
  loops_agree (fun _ => valid_eq_opens) (fun root member none => h.named
    (prefix_nil.mp (none ▸ h.under root member))) h.distinct (by simp) (by simp) (by simp)

theorem marked_eq_nil_iff (h : Hierarchy) : h.marked = [] ↔ h.Hopeless := by
  have named : ∀ root ∈ h.roots.filter Root.locked, root.name ≠ [] := fun root member none =>
    h.named (prefix_nil.mp (none ▸ h.under root (mem_of_mem_filter member)))
  have members (root : Root) :
      root ∈ unlockLoop h.opens [] (h.roots.filter Root.locked) ↔ _ :=
    mem_unlockLoop named (h.distinct.sublist (filter_sublist.map _)) (h.sorted.filter _) (by simp)
  rw [marked_eq_unlockLoop, eq_nil_iff_forall_not_mem]
  simp only [members, Hierarchy.Hopeless]
  refine forall_congr' fun root => ?_
  simp

theorem unlock_eq (h : Hierarchy) [Decidable h.Accepted] : h.unlock.getD [] =
    if h.Accepted then unlockLoop h.opens [] (h.roots.filter Root.locked) else [] := by
  rw [Hierarchy.unlock]
  by_cases missing : h.found h.id = false ∨ h.unforced.any (fun name => !h.found name) = true
  · rw [if_pos missing, if_neg]
    · rfl
    · rintro ⟨id, unforced, -⟩
      rcases missing with absent | absent
      · exact Bool.false_ne_true (absent.symm.trans id)
      · obtain ⟨name, mem, absent⟩ := any_eq_true.mp absent
        simp [unforced name mem] at absent
  · by_cases refused : 1 < h.id.length ∧ h.isLocked = false
    · rw [if_neg missing, if_pos refused, if_neg]
      · rfl
      · rintro ⟨-, -, locked⟩
        simp_all [Nat.not_le.mpr refused.1]
    · rw [if_neg missing, if_neg refused, if_pos]
      · rfl
      · simp only [not_or, Bool.not_eq_false, any_eq_true, not_exists, not_and] at missing refused
        refine ⟨missing.1, fun name mem => by simpa using missing.2 name mem, ?_⟩
        exact (Nat.lt_or_ge 1 h.id.length).symm.imp_right refused

/-- The summary is right when `unlock` does not raise, and when no key helps. -/
theorem unlock_predicted_iff (h : Hierarchy) :
    h.marked = h.unlock.getD [] ↔ h.Accepted ∨ h.Hopeless := by
  classical
  rw [unlock_eq, ← marked_eq_unlockLoop, ← marked_eq_nil_iff]
  split_ifs with accepted
  · exact iff_of_true rfl (.inl accepted)
  · exact (or_iff_right accepted).symm

def openParent : Hierarchy where
  id := ["tank", "a"]
  datasets := [["tank"], ["tank", "a"], ["tank", "a", "b"]]
  unforced := [["tank", "a", "b"]]
  roots := [⟨["tank", "a", "b"], .passphrase, true, none⟩]
  named := by decide
  under := by decide
  distinct := by decide
  sorted := by decide
  keysSupplied _ := some "secret"
  given _ := by decide
  fromhex _ := none
  checkKey _ key := decide (key = some (.text "secret"))
  keyless _ := rfl
  empty _ key blank := by
    refine decide_eq_false fun same => ?_
    cases same
    cases blank
  rawBytes := by simp

/-- An internal dataset is given its passphrase. -/
def lockedApps : Hierarchy :=
  { openParent with
    id := ["tank"]
    datasets := [["tank"], ["tank", "ix-apps"]]
    unforced := [["tank", "ix-apps"]]
    roots := [⟨["tank", "ix-apps"], .passphrase, true, none⟩]
    named := by decide
    under := by decide
    distinct := by decide
    sorted := by decide
    rawBytes := by simp }

theorem marked_not_unlocked :
    (openParent.marked.length = 1 ∧ openParent.unlock.isNone = true) ∧
      lockedApps.marked.length = 1 ∧ lockedApps.unlock.isNone = true := by
  decide +kernel

section RecursiveKeys

/-- An element of `unlock_options.datasets`. -/
structure Request where
  name : Name
  key : Option String
  passphrase : Option String
  recursive : Bool

def Request.secret (request : Request) : Option String :=
  (request.key.filter (· ≠ "")).or request.passphrase

/-- `keys_supplied`: a name may be there with `None`. -/
abbrev KeysSupplied := Name → Option (Option String)

def supply (keys : KeysSupplied) (request : Request) : KeysSupplied :=
  Function.update keys request.name (some request.secret)

variable (file : KeysSupplied) (requests : List Request)

def supplied : KeysSupplied := requests.foldl supply file

/-- `parent in request_datasets and request_datasets[parent]['recursive']` -/
def passesOn (parent : Name) : Bool :=
  (requests.reverse.find? (·.name = parent)).any Request.recursive

/-- `Path(name).parents`, where the last one is `.` -/
def parents (name : Name) : List Name :=
  (range (name.length - 1)).map (fun i => name.take (name.length - 1 - i)) ++ [["."]]

def nearestParent (keys : KeysSupplied) (name : Name) : Option Name :=
  (parents name).find? fun parent => passesOn requests parent && (keys parent).isSome

def assignKey (keys : KeysSupplied) (name : Name) : KeysSupplied :=
  match keys name, nearestParent requests keys name with
  | none, some parent => Function.update keys name (keys parent)
  | _, _ => keys

def assignSuppliedRecursiveKeys (queried : List Name) : KeysSupplied :=
  queried.foldl (assignKey requests) (supplied file requests)

/-- The request that counts for a name is the last one. -/
structure LastFor (name : Name) (request : Request) : Prop where
  here : request.name = name
  last : ∃ before after, requests = before ++ request :: after ∧
    ∀ later ∈ after, later.name ≠ name

/-- A dataset above `name`. -/
structure Above (parent name : Name) : Prop where
  named : parent ≠ []
  initial : parent <+: name
  proper : parent ≠ name

/-- The parent of `name` next to it whose request is recursive; `.` is above all datasets. -/
structure NearestRequest (name parent : Name) (request : Request) : Prop where
  above : Above parent name ∨ parent = ["."]
  last : LastFor requests parent request
  recursive : request.recursive = true
  nearest : ∀ other another, Above other name → LastFor requests other another →
    another.recursive = true → other <+: parent

variable {file requests} {name parent : Name} {request : Request}

theorem find?_reverse_iff : requests.reverse.find? (·.name = name) = some request ↔
    LastFor requests name request := by
  rw [find?_eq_some_iff_append, decide_eq_true_eq]
  constructor
  · rintro ⟨here, after, before, eq, later⟩
    refine ⟨here, before.reverse, after.reverse, ?_, fun other mem => ?_⟩
    · rw [← requests.reverse_reverse, eq]
      simp
    · simpa using later other (mem_reverse.mp mem)
  · rintro ⟨here, before, after, rfl, later⟩
    exact ⟨here, after.reverse, before.reverse, by simp, fun other mem => by
      simpa using later other (mem_reverse.mp mem)⟩

theorem passesOn_iff : passesOn requests parent = true ↔
    ∃ request, LastFor requests parent request ∧ request.recursive = true := by
  simp only [passesOn, Option.any_eq_true, find?_reverse_iff]

theorem foldl_supply_of_absent (keys : KeysSupplied)
    (absent : ∀ request ∈ requests, request.name ≠ name) :
    requests.foldl supply keys name = keys name := by
  induction requests generalizing keys with
  | nil => rfl
  | cons request rest ih =>
    obtain ⟨here, absent⟩ := forall_mem_cons.mp absent
    rw [foldl_cons, ih _ absent, supply, Function.update_of_ne (Ne.symm here)]

theorem supplied_of_last (last : LastFor requests name request) :
    supplied file requests name = some request.secret := by
  obtain ⟨rfl, before, after, rfl, later⟩ := last
  rw [supplied, foldl_append, foldl_cons, foldl_supply_of_absent _ later, supply,
    Function.update_self]

theorem supplied_isSome (passes : passesOn requests parent = true) :
    (supplied file requests parent).isSome = true := by
  obtain ⟨request, last, -⟩ := passesOn_iff.mp passes
  rw [supplied_of_last last]
  rfl

theorem mem_above : parent ∈ (range (name.length - 1)).map
    (fun i => name.take (name.length - 1 - i)) ↔ Above parent name := by
  simp only [mem_map, mem_range]
  refine ⟨?_, fun above => ?_⟩
  · rintro ⟨i, below, rfl⟩
    have long : (name.take (name.length - 1 - i)).length = name.length - 1 - i := by
      rw [length_take]
      omega
    refine ⟨fun none => ?_, take_prefix .., fun all => ?_⟩
    · rw [none, length_nil] at long
      omega
    · rw [all] at long
      omega
  · have some := length_pos_iff.mpr above.named
    have short := above.initial.length_le
    have shorter : parent.length ≠ name.length := fun all =>
      above.proper (above.initial.eq_of_length all)
    refine ⟨name.length - 1 - parent.length, by omega, ?_⟩
    rw [show name.length - 1 - (name.length - 1 - parent.length) = parent.length by omega]
    exact (prefix_iff_eq_take.mp above.initial).symm

theorem mem_parents : parent ∈ parents name ↔ Above parent name ∨ parent = ["."] := by
  rw [parents, mem_append, mem_above, mem_singleton]

/-- The parents are looked at from the nearest one upwards. -/
theorem find?_parents {p : Name → Bool} {other : Name} (above : Above other name)
    (passes : p other = true) (found : (parents name).find? p = some parent) :
    Above parent name ∧ other.length ≤ parent.length := by
  have sorted : ((range (name.length - 1)).map fun i => name.take (name.length - 1 - i)).Pairwise
      fun first second => second.length ≤ first.length := by
    refine pairwise_map.mpr (pairwise_lt_range.imp fun lower => ?_)
    rw [length_take, length_take]
    omega
  have inside := mem_above.mpr above
  rw [parents, find?_append] at found
  cases first :
    ((range (name.length - 1)).map fun i => name.take (name.length - 1 - i)).find? p with
  | none => exact absurd passes (find?_eq_none.mp first other inside)
  | some nearest =>
    rw [first] at found
    obtain rfl : nearest = parent := Option.some.inj found
    refine ⟨mem_above.mp (mem_of_find?_eq_some first), ?_⟩
    obtain ⟨-, before, after, eq, fails⟩ := find?_eq_some_iff_append.mp first
    rw [eq] at inside sorted
    rcases mem_append.mp inside with earlier | later
    · exact absurd passes (by simpa using fails other earlier)
    · rcases mem_cons.mp later with rfl | later
      · exact Nat.le_refl _
      · exact (pairwise_cons.mp (pairwise_append.mp sorted).2.1).1 other later

theorem assignKey_of_ne (keys : KeysSupplied) {next : Name} (other : name ≠ next) :
    assignKey requests keys next name = keys name := by
  unfold assignKey
  cases keys next <;> cases nearestParent requests keys next <;> simp [other]

theorem assignKey_self (keys : KeysSupplied) (name : Name) :
    assignKey requests keys name name =
      (keys name).or ((nearestParent requests keys name).bind keys) := by
  unfold assignKey
  cases own : keys name <;> cases nearestParent requests keys name <;> simp [own]

theorem assignSuppliedRecursiveKeys_eq (queried : List Name) (name : Name) :
    assignSuppliedRecursiveKeys file requests queried name =
      (supplied file requests name).or
        (if name ∈ queried then
          ((parents name).find? (passesOn requests)).bind (supplied file requests)
        else none) := by
  induction queried using reverseRecOn generalizing name with
  | nil => simp [assignSuppliedRecursiveKeys]
  | append_singleton before next ih =>
    have step : assignSuppliedRecursiveKeys file requests (before ++ [next]) =
      assignKey requests (assignSuppliedRecursiveKeys file requests before) next := foldl_append ..
    rw [step]
    generalize assignSuppliedRecursiveKeys file requests before = keys at ih ⊢
    by_cases here : name = next
    · subst here
      -- those that pass a key on were given one, so no earlier turn has changed it
      have passed (parent : Name) (passes : passesOn requests parent = true) :
          keys parent = supplied file requests parent := by
        rw [ih, Option.or_eq_left_of_isSome (supplied_isSome passes)]
      have nearest : nearestParent requests keys name =
          (parents name).find? (passesOn requests) := by
        unfold nearestParent
        congr 1
        funext parent
        cases passes : passesOn requests parent with
        | false => rfl
        | true => rw [passed parent passes, supplied_isSome passes, Bool.and_self]
      rw [assignKey_self, nearest, ih, if_pos (mem_append_right before (mem_singleton_self name))]
      cases found : (parents name).find? (passesOn requests) with
      | none => simp
      | some parent =>
        have key := passed parent (find?_some found)
        cases supplied file requests name <;> by_cases again : name ∈ before <;> simp [again, key]
    · rw [assignKey_of_ne _ here, ih]
      simp [here]

theorem find?_passesOn_iff : (parents name).find? (passesOn requests) = some parent ↔
    ∃ request, NearestRequest requests name parent request := by
  constructor
  · intro found
    obtain ⟨request, last, recursive⟩ := passesOn_iff.mp (find?_some found)
    refine ⟨request, mem_parents.mp (mem_of_find?_eq_some found), last, recursive,
      fun other another above last recursive => ?_⟩
    obtain ⟨inside, shorter⟩ := find?_parents above (passesOn_iff.mpr ⟨_, last, recursive⟩) found
    exact prefix_of_prefix_length_le above.initial inside.initial shorter
  · rintro ⟨request, nearest⟩
    have passes := passesOn_iff.mpr ⟨request, nearest.last, nearest.recursive⟩
    obtain ⟨first, found⟩ := Option.isSome_iff_exists.mp
      (find?_isSome.mpr ⟨parent, mem_parents.mpr nearest.above, passes⟩)
    have closer : Above first name → first <+: parent := fun above => by
      obtain ⟨_, last, recursive⟩ := passesOn_iff.mp (find?_some found)
      exact nearest.nearest first _ above last recursive
    rw [found, Option.some.injEq]
    rcases nearest.above with above | rfl
    · obtain ⟨inside, shorter⟩ := find?_parents above passes found
      exact (closer inside).eq_of_length_le shorter
    · rcases mem_parents.mp (mem_of_find?_eq_some found) with inside | eq
      · exact (closer inside).eq_of_length_le (length_pos_iff.mpr inside.named)
      · exact eq

/-- A dataset that was given a key keeps it, that of its last request if there is one. Any other
queried dataset gets the key of its nearest recursive request, whatever the order of the datasets,
or none. -/
theorem recursive_keys_assigned (file : KeysSupplied) (requests : List Request)
    (queried : List Name) (name : Name) :
    let key := assignSuppliedRecursiveKeys file requests queried name
    (∀ request, LastFor requests name request → key = some request.secret) ∧
    ((∀ request ∈ requests, request.name ≠ name) →
      (∀ secret, file name = some secret → key = some secret) ∧
      (file name = none → name ∉ queried → key = none) ∧
      (file name = none → name ∈ queried →
        (∀ parent request, NearestRequest requests name parent request →
          key = some request.secret) ∧
        ((∀ parent request, ¬ NearestRequest requests name parent request) → key = none))) := by
  intro key
  have eq : key = _ := assignSuppliedRecursiveKeys_eq queried name
  refine ⟨fun request last => by rw [eq, supplied_of_last last]; rfl, fun absent => ?_⟩
  rw [supplied, foldl_supply_of_absent file absent] at eq
  refine ⟨fun secret given => by rw [eq, given]; rfl, fun none_ outside => ?_,
    fun none_ inside => ⟨fun parent request nearest => ?_, fun nobody => ?_⟩⟩
  · rw [eq, none_, if_neg outside]
    rfl
  · rw [eq, none_, if_pos inside, find?_passesOn_iff.mpr ⟨request, nearest⟩]
    exact supplied_of_last nearest.last
  · have unfound : (parents name).find? (passesOn requests) = none := by
      refine Option.eq_none_iff_forall_ne_some.mpr fun parent found => ?_
      obtain ⟨request, nearest⟩ := find?_passesOn_iff.mp found
      exact nobody parent request nearest
    rw [eq, none_, if_pos inside, unfound]
    rfl

end RecursiveKeys

end TruenasMiddleware.Datasets.Unlock
