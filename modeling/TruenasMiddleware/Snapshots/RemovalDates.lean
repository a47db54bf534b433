import TruenasMiddleware.Foundation.Dict
import TruenasMiddleware.Foundation.Transition
import Mathlib.Order.Lattice
import Mathlib.Data.List.TakeWhile

/-! `plugins/zettarepl_/snapshot_removal_date.py`: removal dates of snapshots, kept as a property of
the snapshot and cached in `removal_dates`, a dictionary by pool of dictionaries by snapshot. The
pool is taken from the name of the snapshot where the cache is loaded and from the name of the
dataset where a date is fixated. -/

namespace TruenasMiddleware.Snapshots

open Transition List Dict

abbrev Text := List Char

structure Snapshot where
  dataset : Text
  name : Text
  dataset_at : '@' ∉ dataset
  name_at : '@' ∉ name
  name_slash : '/' ∉ name
deriving DecidableEq

def fullName (dataset name : Text) : Text := dataset ++ '@' :: name

def firstPart (text : Text) : Text := text.takeWhile fun c => decide (c ≠ '/')

def Snapshot.full (snapshot : Snapshot) : Text := fullName snapshot.dataset snapshot.name

def Snapshot.pool (snapshot : Snapshot) : Text := firstPart snapshot.dataset

section Names

theorem takeWhile_append_cons {c : Char} {front rest : Text} (outside : c ∉ front) :
    (front ++ c :: rest).takeWhile (fun d => decide (d ≠ c)) = front := by
  rw [takeWhile_append_of_pos]
  · simp
  · intro d mem
    simpa using fun eq : d = c => outside (eq ▸ mem)

theorem eq_of_fullName {dataset name : Text} {snapshot : Snapshot}
    (eq : fullName dataset name = snapshot.full) :
    dataset = snapshot.dataset ∧ name = snapshot.name := by
  have counted := congrArg (List.count '@') eq
  rw [Snapshot.full, fullName, fullName, count_append, count_append, count_cons_self,
    count_cons_self, count_eq_zero.mpr snapshot.dataset_at,
    count_eq_zero.mpr snapshot.name_at] at counted
  have outside : '@' ∉ dataset := count_eq_zero.mp (by omega)
  have first := congrArg (takeWhile fun d => decide (d ≠ '@')) eq
  rw [Snapshot.full, fullName, fullName, takeWhile_append_cons outside,
    takeWhile_append_cons snapshot.dataset_at] at first
  subst first
  exact ⟨rfl, (List.cons.inj (append_cancel_left eq)).2⟩

theorem full_injective {one other : Snapshot} (eq : one.full = other.full) : one = other := by
  obtain ⟨dataset, name⟩ := eq_of_fullName eq
  cases one
  cases other
  simp_all

theorem pool_at (snapshot : Snapshot) : '@' ∉ snapshot.pool := fun mem =>
  snapshot.dataset_at (( takeWhile_prefix _).subset mem)

theorem at_mem_full (snapshot : Snapshot) : '@' ∈ snapshot.full :=
  mem_append_right _ List.mem_cons_self

theorem firstPart_full (snapshot : Snapshot) :
    firstPart snapshot.full = snapshot.pool ∨ firstPart snapshot.full = snapshot.full := by
  by_cases below : '/' ∈ snapshot.dataset
  · left
    obtain ⟨front, back, split, outside⟩ := eq_append_cons_of_mem below
    rw [firstPart, Snapshot.full, fullName, Snapshot.pool, firstPart, split, append_assoc,
      cons_append, takeWhile_append_cons outside, takeWhile_append_cons outside]
  · right
    refine takeWhile_eq_self_iff.mpr fun c mem => ?_
    rw [decide_eq_true_eq]
    rintro rfl
    rcases mem_append.mp mem with mem | mem
    · exact below mem
    · rcases mem_cons.mp mem with eq | mem
      · cases eq
      · exact snapshot.name_slash mem

end Names

variable {Date : Type}

/-- The removal dates that are stored and those that are cached. `everything` and `pools` record
what has been loaded so far. -/
structure State (Date : Type) where
  property : Snapshot → Option Text
  removalDates : List (Text × List (Text × Date)) := []
  loaded : Bool := false
  everything : Bool := false
  pools : List Text := []

inductive Label (Date : Type)
  | load (pool : Option Text)
  /-- `destroyAt` is the date of a snapshot by its name and the lifetime of the task, `none` when
  the name does not follow the naming schema; `refused` are the names whose `zfs set` fails. -/
  | fixate (datasets : List (Text × List Text)) (destroyAt : Text → Option Date)
    (refused : Text → Bool)

section Model

-- the snapshots of the system, and `isodate.parse_datetime` with `isoformat`
variable (snapshots : List Snapshot) (parse : Text → Option Date) (format : Date → Text)
  (state : State Date)

def State.date (snapshot : Snapshot) : Option Date :=
  (state.property snapshot).bind parse

def listed (pool : Option Text) : List Snapshot :=
  snapshots.filter fun snapshot => decide (pool = none ∨ pool = some snapshot.pool)

def emptied (removalDates : List (Text × List (Text × Date))) :
    Option Text → List (Text × List (Text × Date))
  | none => []
  | some pool => Dict.set pool [] removalDates

def loadSnapshot (date : Snapshot → Option Date) (removalDates : List (Text × List (Text × Date)))
    (snapshot : Snapshot) : List (Text × List (Text × Date)) :=
  match date snapshot with
  | none => removalDates
  | some destroyAt => put (firstPart snapshot.full) snapshot.full destroyAt removalDates

def State.load (pool : Option Text) : State Date :=
  { state with
    removalDates := (listed snapshots pool).foldl (loadSnapshot (state.date parse))
      (emptied state.removalDates pool)
    loaded := true
    everything := state.everything || pool.isNone
    pools := pool.toList ++ state.pools }

/-- `load_removal_dates`; `zfs list` fails for what is no name of a pool. -/
def loadRemovalDates (pool : Option Text) : Option (State Date) :=
  if ∃ name ∈ pool, '@' ∈ name ∨ '/' ∈ name then none
  else some (state.load snapshots parse pool)

def getRemovalDates : Option (List (Text × Date)) :=
  if state.loaded then
    some ((state.removalDates.flatMap Prod.snd).foldl
      (fun dict entry => write (some entry) dict) [])
  else none

def State.setDate (snapshot : Snapshot) (pool full : Text) (date : Date) : State Date :=
  { state with
    property := Function.update state.property snapshot (some (format date))
    removalDates := put pool full date state.removalDates }

def fixateOne [LinearOrder Date] (destroyAt : Text → Option Date) (refused : Text → Bool)
    (state : State Date) (given : Text × Text) : State Date :=
  match destroyAt given.2 with
  | none => state
  | some date =>
    let pool := firstPart given.1
    let full := fullName given.1 given.2
    if (Dict.find state.removalDates pool full).any fun existing => decide (date ≤ existing) then
      state
    else
      match snapshots.find? fun snapshot => decide (snapshot.full = full) with
      | none => state
      | some snapshot =>
        if refused full then state else state.setDate format snapshot pool full date

def fixateRemovalDate [LinearOrder Date] (datasets : List (Text × List Text))
    (destroyAt : Text → Option Date) (refused : Text → Bool) (state : State Date) :
    State Date :=
  (datasets.flatMap fun entry => entry.2.map fun name => (entry.1, name)).foldl
    (fixateOne snapshots format destroyAt refused) state

def step [LinearOrder Date] (state : State Date) : Label Date → Option (State Date)
  | .load pool => loadRemovalDates snapshots parse state pool
  | .fixate datasets destroyAt refused =>
    some (fixateRemovalDate snapshots format datasets destroyAt refused state)

def Covered (pool : Text) : Prop :=
  state.everything = true ∨ pool ∈ state.pools

instance (pool : Text) : Decidable (Covered state pool) :=
  inferInstanceAs (Decidable (_ ∨ _))

/-- The pool of the snapshot has been loaded, and no load has cached the snapshot under its own
name, as it does with a snapshot of a pool's root dataset that has a removal date. -/
def Cached (snapshot : Snapshot) : Prop :=
  Covered state snapshot.pool ∧ Dict.find state.removalDates snapshot.full snapshot.full = none

instance (snapshot : Snapshot) : Decidable (Cached state snapshot) :=
  inferInstanceAs (Decidable (_ ∧ _))

/-- A date is fixated for snapshots only that the cache can be asked about. -/
def Known : Label Date → Prop
  | .load _ => True
  | .fixate datasets _ _ => ∀ entry ∈ datasets, ∀ name ∈ entry.2, ∀ snapshot ∈ snapshots,
      snapshot.full = fullName entry.1 name → Cached state snapshot

instance : (label : Label Date) → Decidable (Known snapshots state label)
  | .load _ => .isTrue trivial
  | .fixate _ _ _ => inferInstanceAs (Decidable (∀ entry ∈ _, ∀ name ∈ _, ∀ snapshot ∈ _, _ → _))

structure Inv : Prop where
  proper : Dict.Proper state.removalDates
  sound : ∀ key name date, Dict.find state.removalDates key name = some date →
    ∃ snapshot ∈ snapshots, snapshot.full = name ∧ Covered state snapshot.pool ∧
      state.date parse snapshot = some date ∧ (key = snapshot.pool ∨ key = firstPart name)
  unique : ∀ key other name date another, Dict.find state.removalDates key name = some date →
    Dict.find state.removalDates other name = some another → key = other
  complete : ∀ snapshot ∈ snapshots, Covered state snapshot.pool → ∀ date,
    state.date parse snapshot = some date →
      ∃ key, Dict.find state.removalDates key snapshot.full = some date

end Model

section Load

variable {date : Snapshot → Option Date} {list : List Snapshot}
  {removalDates : List (Text × List (Text × Date))}

theorem proper_loadSnapshots (proper : Dict.Proper removalDates) :
    Dict.Proper (list.foldl (loadSnapshot date) removalDates) := by
  induction list generalizing removalDates with
  | nil => exact proper
  | cons snapshot rest ih =>
    rw [foldl_cons]
    apply ih
    rw [loadSnapshot]
    split
    · exact proper
    · exact proper.put _ _ _

theorem find_loadSnapshot {snapshot : Snapshot} {key name : Text} :
    Dict.find (loadSnapshot date removalDates snapshot) key name =
      if snapshot.full = name ∧ firstPart name = key ∧ date snapshot ≠ none then date snapshot
      else Dict.find removalDates key name := by
  rw [loadSnapshot]
  cases read : date snapshot with
  | none => exact (if_neg fun shown => shown.2.2 rfl).symm
  | some destroyAt =>
    dsimp only
    rw [find_put]
    by_cases here : snapshot.full = name ∧ firstPart name = key
    · obtain ⟨rfl, rfl⟩ := here
      rw [if_pos ⟨rfl, rfl⟩, if_pos ⟨rfl, rfl, nofun⟩]
    · rw [if_neg, if_neg fun shown => here ⟨shown.1, shown.2.1⟩]
      rintro ⟨rfl, rfl⟩
      exact here ⟨rfl, rfl⟩

theorem find_loadSnapshots {key name : Text} {found : Date} :
    Dict.find (list.foldl (loadSnapshot date) removalDates) key name = some found ↔
      (∃ snapshot ∈ list, snapshot.full = name ∧ firstPart name = key ∧
        date snapshot = some found) ∨
      (∀ snapshot ∈ list, snapshot.full = name → firstPart name = key → date snapshot = none) ∧
        Dict.find removalDates key name = some found := by
  induction list generalizing removalDates with
  | nil => simp
  | cons first rest ih =>
    rw [foldl_cons, ih, find_loadSnapshot, exists_mem_cons_iff, forall_mem_cons]
    by_cases shown : first.full = name ∧ firstPart name = key ∧ date first ≠ none
    · -- a later line about the same snapshot shows the same date
      obtain ⟨rfl, rfl, read⟩ := shown
      have again : ∀ snapshot ∈ rest, snapshot.full = first.full → date snapshot = date first :=
        fun snapshot _ eq => congrArg date (full_injective eq)
      rw [if_pos ⟨rfl, rfl, read⟩]
      constructor
      · rintro (⟨snapshot, mem, eq, -, dated⟩ | ⟨-, dated⟩)
        · exact .inl (.inl ⟨rfl, rfl, again snapshot mem eq ▸ dated⟩)
        · exact .inl (.inl ⟨rfl, rfl, dated⟩)
      · rintro ((⟨-, -, dated⟩ | later) | ⟨⟨none, -⟩, -⟩)
        · by_cases later : ∃ snapshot ∈ rest, snapshot.full = first.full
          · obtain ⟨snapshot, mem, eq⟩ := later
            exact .inl ⟨snapshot, mem, eq, rfl, (again snapshot mem eq).trans dated⟩
          · exact .inr ⟨fun snapshot mem eq => absurd ⟨snapshot, mem, eq⟩ later, dated⟩
        · exact .inl later
        · exact absurd (none rfl rfl) read
    · have silent : first.full = name → firstPart name = key → date first = none :=
        fun eq here => by_contra fun read => shown ⟨eq, here, read⟩
      rw [if_neg shown]
      constructor
      · rintro (later | ⟨rest, old⟩)
        · exact .inl (.inr later)
        · exact .inr ⟨⟨silent, rest⟩, old⟩
      · rintro ((⟨eq, here, dated⟩ | later) | ⟨⟨-, rest⟩, old⟩)
        · rw [silent eq here] at dated
          cases dated
        · exact .inl later
        · exact .inr ⟨rest, old⟩

end Load

section Step

variable {snapshots : List Snapshot} {parse : Text → Option Date} {format : Date → Text}
  {state next : State Date} {snapshot other : Snapshot} {pool : Option Text}

theorem mem_listed : snapshot ∈ listed snapshots pool ↔
      snapshot ∈ snapshots ∧ (pool = none ∨ pool = some snapshot.pool) := by
  rw [listed, mem_filter, decide_eq_true_eq]

theorem find_emptied {removalDates : List (Text × List (Text × Date))} {key name : Text}
    {found : Date} :
    Dict.find (emptied removalDates pool) key name = some found ↔
      pool ≠ none ∧ pool ≠ some key ∧ Dict.find removalDates key name = some found := by
  cases pool with
  | none => simp [emptied, Dict.find]
  | some pool =>
    rw [emptied, find_set_nil]
    by_cases eq : key = pool
    · simp [eq]
    · simp [eq, Ne.symm eq]

variable {date : Date}

theorem covered_load {name : Text} : Covered (state.load snapshots parse pool) name ↔
      (pool = none ∨ pool = some name) ∨ Covered state name := by
  cases pool with
  | none => simp [Covered, State.load]
  | some pool =>
    simp only [Covered, State.load, Option.isNone_some, Bool.or_false, Option.toList_some,
      singleton_append, mem_cons, reduceCtorEq, false_or, Option.some.injEq,
      eq_comm (a := pool), or_left_comm]

theorem pool_ne_full (one other : Snapshot) : one.pool ≠ other.full := fun eq =>
  pool_at one (eq ▸ at_mem_full other)

theorem date_setDate (faithful : ∀ date, parse (format date) = some date) (state : State Date)
    (snapshot other : Snapshot) (pool full : Text) (date : Date) :
    (state.setDate format snapshot pool full date).date parse other =
      if other = snapshot then some date else state.date parse other := by
  simp only [State.date, State.setDate, Function.update_apply]
  by_cases eq : other = snapshot
  · rw [if_pos eq, if_pos eq, Option.bind_some, faithful]
  · rw [if_neg eq, if_neg eq]

theorem Cached.setDate (cached : Cached state other) :
    Cached (state.setDate format snapshot snapshot.pool snapshot.full date) other := by
  refine ⟨cached.1, ?_⟩
  rw [State.setDate, find_put, if_neg fun here => pool_ne_full snapshot other here.1.symm, cached.2]

theorem inv_start (property : Snapshot → Option Text) :
    Inv snapshots parse ({ property := property } : State Date) :=
  ⟨⟨List.nodup_nil, nofun⟩, nofun, nofun, fun _ _ covered =>
    absurd covered (by simp [Covered])⟩

variable (inv : Inv snapshots parse state)
include inv

theorem Inv.key {key : Text}
    (found : Dict.find state.removalDates key snapshot.full = some date) :
    (key = snapshot.pool ∨ key = firstPart snapshot.full) ∧ snapshot ∈ snapshots ∧
      Covered state snapshot.pool ∧ state.date parse snapshot = some date := by
  obtain ⟨other, mem, eq, covered, dated, here⟩ := inv.sound key snapshot.full date found
  obtain rfl := full_injective eq
  exact ⟨here, mem, covered, dated⟩

theorem Inv.load (named : ∀ name ∈ pool, '@' ∉ name) :
    Inv snapshots parse (state.load snapshots parse pool) := by
  refine ⟨proper_loadSnapshots ?_, ?_, ?_, ?_⟩
  · cases pool with
    | none => exact ⟨nodup_nil, nofun⟩
    | some pool => exact inv.proper.set pool nodup_nil
  · intro key name date found
    rcases find_loadSnapshots.mp found with ⟨snapshot, mem, eq, here, dated⟩ | ⟨-, old⟩
    · obtain ⟨mem, listed⟩ := mem_listed.mp mem
      exact ⟨snapshot, mem, eq, covered_load.mpr (.inl listed), dated, .inr here.symm⟩
    · obtain ⟨-, -, old⟩ := find_emptied.mp old
      obtain ⟨snapshot, mem, eq, covered, dated, here⟩ := inv.sound key name date old
      exact ⟨snapshot, mem, eq, covered_load.mpr (.inr covered), dated, here⟩
  · -- a date that was cached under the pool has been dropped when the listing shows the snapshot
    have mixed : ∀ (snapshot : Snapshot) other date, (pool = none ∨ pool = some snapshot.pool) →
        Dict.find (emptied state.removalDates pool) other snapshot.full = some date →
        other = firstPart snapshot.full := by
      intro snapshot other date listed found
      obtain ⟨one, apart, old⟩ := find_emptied.mp found
      rcases (inv.key old).1 with rfl | here
      · exact absurd listed (not_or.mpr ⟨one, apart⟩)
      · exact here
    intro key other name date another found again
    rcases find_loadSnapshots.mp found with ⟨snapshot, mem, rfl, rfl, -⟩ | ⟨-, old⟩
    · rcases find_loadSnapshots.mp again with ⟨-, -, -, here, -⟩ | ⟨-, old⟩
      · exact here
      · exact (mixed snapshot other another (mem_listed.mp mem).2 old).symm
    · rcases find_loadSnapshots.mp again with ⟨snapshot, mem, rfl, rfl, -⟩ | ⟨-, other⟩
      · exact mixed snapshot key date (mem_listed.mp mem).2 old
      · exact inv.unique _ _ _ _ _ (find_emptied.mp old).2.2 (find_emptied.mp other).2.2
  · intro snapshot mem covered date dated
    by_cases listed : pool = none ∨ pool = some snapshot.pool
    · exact ⟨firstPart snapshot.full, find_loadSnapshots.mpr
        (.inl ⟨snapshot, mem_listed.mpr ⟨mem, listed⟩, rfl, rfl, dated⟩)⟩
    · obtain ⟨key, found⟩ := inv.complete snapshot mem
        ((covered_load.mp covered).resolve_left listed) date dated
      have apart : pool ≠ some key := by
        rintro rfl
        rcases (inv.key found).1 with rfl | rfl
        · exact listed (.inr rfl)
        · rcases firstPart_full snapshot with eq | eq
          · exact listed (.inr (congrArg some eq))
          · refine named _ rfl ?_
            rw [eq]
            exact at_mem_full snapshot
      refine ⟨key, find_loadSnapshots.mpr (.inr ⟨fun other mem eq _ => ?_, ?_⟩)⟩
      · rw [full_injective eq] at mem
        exact absurd (mem_listed.mp mem).2 listed
      · exact find_emptied.mpr ⟨fun none => listed (.inl none), apart, found⟩

theorem Inv.key_eq_pool {key : Text} (cached : Cached state snapshot)
    (found : Dict.find state.removalDates key snapshot.full = some date) : key = snapshot.pool := by
  rcases (inv.key found).1 with rfl | rfl
  · rfl
  · rcases firstPart_full snapshot with eq | eq
    · exact eq
    · rw [eq, cached.2] at found
      cases found

theorem Inv.find_eq_date (mem : snapshot ∈ snapshots) (cached : Cached state snapshot)
    (dated : state.date parse snapshot = some date) :
    Dict.find state.removalDates snapshot.pool snapshot.full = some date := by
  obtain ⟨key, found⟩ := inv.complete snapshot mem cached.1 date dated
  rwa [inv.key_eq_pool cached found] at found

theorem Inv.setDate (faithful : ∀ date, parse (format date) = some date) (date : Date)
    (inside : snapshot ∈ snapshots) (cached : Cached state snapshot) :
    Inv snapshots parse (state.setDate format snapshot snapshot.pool snapshot.full date) := by
  have find : ∀ key name, Dict.find
      (state.setDate format snapshot snapshot.pool snapshot.full date).removalDates key name =
        if key = snapshot.pool ∧ name = snapshot.full then some date
        else Dict.find state.removalDates key name :=
    fun key name => find_put state.removalDates snapshot.pool key snapshot.full name date
  refine ⟨inv.proper.put _ _ _, ?_, ?_, ?_⟩
  · intro key name found read
    rw [find] at read
    split_ifs at read with here
    · obtain ⟨rfl, rfl⟩ := here
      refine ⟨snapshot, inside, rfl, cached.1, ?_, .inl rfl⟩
      rw [date_setDate faithful, if_pos rfl, read]
    · obtain ⟨other, mem, rfl, covered, dated, place⟩ := inv.sound key name found read
      refine ⟨other, mem, rfl, covered, ?_, place⟩
      rw [date_setDate faithful, if_neg, dated]
      rintro rfl
      exact here ⟨inv.key_eq_pool cached read, rfl⟩
  · intro key other name one another first second
    rw [find] at first second
    split_ifs at first second with here there there
    · exact here.1.trans there.1.symm
    · rw [here.2] at second
      exact here.1.trans (inv.key_eq_pool cached second).symm
    · rw [there.2] at first
      exact (inv.key_eq_pool cached first).trans there.1.symm
    · exact inv.unique key other name one another first second
  · intro other mem covered existing dated
    rw [date_setDate faithful] at dated
    split_ifs at dated with eq
    · subst eq
      exact ⟨other.pool, by rw [find, if_pos ⟨rfl, rfl⟩, dated]⟩
    · obtain ⟨key, found⟩ := inv.complete other mem covered existing dated
      refine ⟨key, ?_⟩
      rw [find, if_neg fun here => eq (full_injective here.2), found]

theorem Inv.lookup_getRemovalDates (loaded : state.loaded = true) :
    ∃ dates, getRemovalDates state = some dates ∧ ∀ name date, dates.lookup name = some date ↔
      ∃ snapshot ∈ snapshots, snapshot.full = name ∧ Covered state snapshot.pool ∧
        state.date parse snapshot = some date := by
  refine ⟨_, if_pos loaded, fun name date => ?_⟩
  have stored : (∃ snapshot ∈ snapshots, snapshot.full = name ∧ Covered state snapshot.pool ∧
      state.date parse snapshot = some date) ↔
        ∃ key, Dict.find state.removalDates key name = some date := by
    constructor
    · rintro ⟨snapshot, mem, rfl, covered, dated⟩
      exact inv.complete snapshot mem covered date dated
    · rintro ⟨key, found⟩
      obtain ⟨snapshot, mem, eq, covered, dated, -⟩ := inv.sound key name date found
      exact ⟨snapshot, mem, eq, covered, dated⟩
  rw [stored, ← inv.proper.mem_items]
  -- no two of the items are about one snapshot
  refine (lookup_writes ?_).trans (by simp)
  rintro _ first _ second one another ⟨⟩ ⟨⟩
  obtain ⟨key, found⟩ := inv.proper.mem_items.mp first
  obtain ⟨other, again⟩ := inv.proper.mem_items.mp second
  rw [inv.unique key other name one another found again, again] at found
  exact (Option.some.inj found).symm

omit inv

variable [LinearOrder Date] {destroyAt : Text → Option Date} {refused : Text → Bool}

/-- No removal date of `before` is lost or has become an earlier one. -/
def NotEarlier (parse : Text → Option Date) (before after : State Date) : Prop :=
  ∀ snapshot date, before.date parse snapshot = some date →
    ∃ later, after.date parse snapshot = some later ∧ date ≤ later

theorem NotEarlier.trans {one two three : State Date} (first : NotEarlier parse one two)
    (second : NotEarlier parse two three) : NotEarlier parse one three := by
  intro snapshot date dated
  obtain ⟨later, datedLater, le⟩ := first snapshot date dated
  obtain ⟨latest, datedLatest, leLatest⟩ := second snapshot later datedLater
  exact ⟨latest, datedLatest, le.trans leLatest⟩

theorem NotEarlier.refl (state : State Date) : NotEarlier parse state state :=
  fun _ date dated => ⟨date, dated, le_rfl⟩

theorem fixateOne_cases (state : State Date) (given : Text × Text) :
    fixateOne snapshots format destroyAt refused state given = state ∨
      ∃ snapshot ∈ snapshots, ∃ date, snapshot.full = fullName given.1 given.2 ∧
        (∀ existing, Dict.find state.removalDates snapshot.pool snapshot.full = some existing →
          existing < date) ∧
        fixateOne snapshots format destroyAt refused state given =
          state.setDate format snapshot snapshot.pool snapshot.full date := by
  rw [fixateOne]
  split
  · exact .inl rfl
  rename_i date _
  dsimp only
  by_cases later : ((Dict.find state.removalDates (firstPart given.1)
      (fullName given.1 given.2)).any fun existing => decide (date ≤ existing)) = true
  · rw [if_pos later]
    exact .inl rfl
  rw [if_neg later]
  split
  · exact .inl rfl
  rename_i snapshot found
  have full : snapshot.full = fullName given.1 given.2 := by
    simpa using List.find?_some found
  obtain ⟨dataset, -⟩ := eq_of_fullName full.symm
  have pool : firstPart given.1 = snapshot.pool := by rw [dataset, Snapshot.pool]
  rw [pool, ← full] at later ⊢
  split_ifs
  · exact .inl rfl
  refine .inr ⟨snapshot, mem_of_find?_eq_some found, date, rfl, fun existing cached => ?_, rfl⟩
  rw [cached] at later
  simpa using later

variable (faithful : ∀ date, parse (format date) = some date)
include faithful inv

theorem Inv.notEarlier (mem : snapshot ∈ snapshots) (cached : Cached state snapshot)
    (later : ∀ existing,
      Dict.find state.removalDates snapshot.pool snapshot.full = some existing → existing < date) :
    NotEarlier parse state (state.setDate format snapshot snapshot.pool snapshot.full date) := by
  intro other existing dated
  rw [date_setDate faithful]
  by_cases eq : other = snapshot
  · subst eq
    exact ⟨date, if_pos rfl, (later existing (inv.find_eq_date mem cached dated)).le⟩
  · exact ⟨existing, by rw [if_neg eq, dated], le_rfl⟩

theorem Inv.fixateAll (given : List (Text × Text))
    (cached : ∀ pair ∈ given, ∀ snapshot ∈ snapshots,
      snapshot.full = fullName pair.1 pair.2 → Cached state snapshot) :
    Inv snapshots parse (given.foldl (fixateOne snapshots format destroyAt refused) state) ∧
      NotEarlier parse state
        (given.foldl (fixateOne snapshots format destroyAt refused) state) := by
  induction given generalizing state with
  | nil => exact ⟨inv, .refl state⟩
  | cons pair rest ih =>
    rw [foldl_cons]
    obtain ⟨first, others⟩ := forall_mem_cons.mp cached
    rcases fixateOne_cases state pair with eq | ⟨snapshot, inside, date, full, later, set⟩
    · rw [eq]
      exact ih inv others
    · rw [set]
      have here := first snapshot inside full
      obtain ⟨kept, after⟩ := ih (inv.setDate faithful date inside here)
        fun other inside snapshot mem eq => (others other inside snapshot mem eq).setDate
      exact ⟨kept, (inv.notEarlier faithful inside here later).trans after⟩

theorem Inv.step {label : Label Date} (known : Known snapshots state label)
    (taken : step snapshots parse format state label = some next) :
    Inv snapshots parse next ∧ NotEarlier parse state next := by
  cases label with
  | load pool =>
    simp only [Snapshots.step, loadRemovalDates] at taken
    split_ifs at taken with failed
    cases taken
    push Not at failed
    exact ⟨inv.load fun name given => (failed name given).1, .refl state⟩
  | fixate datasets destroyAt refused =>
    cases taken
    refine inv.fixateAll faithful _ fun pair inside snapshot mem full => ?_
    obtain ⟨entry, there, named⟩ := mem_flatMap.mp inside
    obtain ⟨name, within, rfl⟩ := mem_map.mp named
    exact known entry there name within snapshot mem full

omit faithful inv

/-- In every run in which dates are fixated only for snapshots that the cache can be asked about, no
step gives a snapshot an earlier removal date than it has, and after every load the dates returned
are those stored for the snapshots of the pools that have been loaded. -/
theorem removal_dates_kept (faithful : ∀ date, parse (format date) = some date)
    {property : Snapshot → Option Text} {state : State Date}
    (reached : Reach (step snapshots parse format) (Known snapshots) { property := property }
      state) :
    (∀ label next, Known snapshots state label →
      step snapshots parse format state label = some next →
      ∀ snapshot date, state.date parse snapshot = some date →
        ∃ later, next.date parse snapshot = some later ∧ date ≤ later) ∧
    ∀ pool next, step snapshots parse format state (.load pool) = some next →
      ∃ dates, getRemovalDates next = some dates ∧ ∀ name date, dates.lookup name = some date ↔
        ∃ snapshot ∈ snapshots, snapshot.full = name ∧ Covered next snapshot.pool ∧
          next.date parse snapshot = some date := by
  have inv : Inv snapshots parse state := reached.invariant (inv_start property)
    fun _ _ _ inv known stepped => (inv.step faithful known stepped).1
  constructor
  · intro label next known stepped
    exact (inv.step faithful known stepped).2
  · intro pool next stepped
    have known : Known snapshots state (.load pool) := trivial
    have kept := (inv.step faithful known stepped).1
    refine kept.lookup_getRemovalDates ?_
    simp only [step, loadRemovalDates] at stepped
    split_ifs at stepped
    cases stepped
    rfl

end Step

section Runs

def strokes (date : Nat) : Text := replicate date '1'

def count (text : Text) : Option Nat := some text.length

def root : Snapshot := ⟨"tank".toList, "auto".toList, by decide, by decide, by decide⟩

def child : Snapshot := ⟨"tank/data".toList, "auto".toList, by decide, by decide, by decide⟩

def fixate (snapshot : Snapshot) (date : Nat) : Label Nat :=
  .fixate [(snapshot.dataset, [snapshot.name])] (fun _ => some date) fun _ => false

theorem removal_dates_kept_child : ∃ state : State Nat,
      Reach (step [root, child] count strokes) (Known [root, child]) { property := fun _ => none }
        state ∧
      state.date count child = some 5 ∧
      ∃ next dates, step [root, child] count strokes state (.load none) = some next ∧
        getRemovalDates next = some dates ∧ dates.lookup child.full = some 5 := by
  refine exists_reach_of_run (P := fun state => state.date count child = some 5)
    [.load none, fixate child 5, .load (some "tank".toList), fixate child 3]
    (by decide +kernel) fun state reached dated => ?_
  have faithful : ∀ date, count (strokes date) = some date := fun date =>
    congrArg some length_replicate
  have reloaded : step [root, child] count strokes state (.load none) =
      some (state.load [root, child] count none) := by
    simp [step, loadRemovalDates]
  obtain ⟨dates, got, stored⟩ := (removal_dates_kept faithful reached).2 none _ reloaded
  refine ⟨dated, _, dates, reloaded, got, (stored child.full 5).mpr ?_⟩
  exact ⟨child, by decide, rfl, covered_load.mpr (.inl (.inl rfl)), dated⟩

/-- The date of a snapshot of a root dataset is loaded under its own name and not found under its
pool, and before the first load no date is found at all: an earlier one is set. -/
theorem removal_date_moved_earlier : (∃ state : State Nat,
      Reach (step [root, child] count strokes) Always { property := fun _ => some (strokes 5) }
        state ∧
      state.loaded = true ∧ state.date count root = some 3) ∧
    ∃ state : State Nat,
      Reach (step [root, child] count strokes) Always { property := fun _ => some (strokes 5) }
        state ∧
      state.date count child = some 3 := by
  constructor
  · apply exists_reach_of_exec [.load none, fixate root 3]
    decide +kernel
  · apply exists_reach_of_exec [fixate child 3]
    decide +kernel

end Runs

end TruenasMiddleware.Snapshots
