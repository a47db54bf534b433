import TruenasMiddleware.Foundation.Dict

/-! `utils/cron.py`: the schedule of a task, and the columns that it is stored in. -/

namespace TruenasMiddleware.Tasks

open List

/-- What a task has under a key: `None`, a schedule or another value. -/
inductive Cell (Value : Type)
  | null
  | value (value : Value)
  | schedule (fields : List (String × Value))

abbrev Task (Value : Type) := List (String × Cell Value)

structure Field where
  db : String
  cron : String
  time : Bool
  deriving DecidableEq

/-- `DB_FIELDS` with `CRON_FIELDS`, and the times of day. -/
def fields (beginEnd : Bool) : List Field :=
  [⟨"minute", "minute", false⟩, ⟨"hour", "hour", false⟩, ⟨"daymonth", "dom", false⟩,
    ⟨"month", "month", false⟩, ⟨"dayweek", "dow", false⟩] ++
  if beginEnd then [⟨"begin", "begin", true⟩, ⟨"end", "end", true⟩] else []

variable {Value : Type}

def Cell.stored (field : Field) : Cell Value → Option (Cell Value)
  | .null => some .null
  | .value _ => none
  | .schedule fields => (fields.lookup field.cron).map .value

variable (name front : String) (beginEnd : Bool)

def convertScheduleToDbFormat (data : Task Value) : Task Value :=
  match data.lookup name with
  | none => data
  | some cell => (fields beginEnd).foldl
    (fun data field => Dict.write ((cell.stored field).map (front ++ field.db, ·)) data)
    (Dict.pop name data)

-- `str(x)[:5]`
variable (clip : Value → Value)

def Field.transform (field : Field) (value : Value) : Value :=
  if field.time then clip value else value

def Field.add (field : Field) : Cell Value → Cell Value → Cell Value
  | .null, _ => .null
  | .value value, .schedule fields =>
    .schedule (Dict.set field.cron (field.transform clip value) fields)
  | _, schedule => schedule

def addFieldToSchedule (data : Task Value) (field : Field) : Task Value :=
  match data.lookup (front ++ field.db) with
  | none => data
  | some column =>
    let data := Dict.pop (front ++ field.db) data
    Dict.set name (field.add clip column ((data.lookup name).getD .null)) data

def convertDbFormatToSchedule (data : Task Value) : Task Value :=
  (fields beginEnd).foldl (addFieldToSchedule name front clip)
    (Dict.set name (.schedule []) data)

/-- The schedule with the columns that there are. -/
def collect (column : Field → Option (Cell Value)) (rest : List Field) (start : Cell Value) :
    Cell Value :=
  rest.foldl (fun schedule field => (column field).elim schedule (field.add clip · schedule)) start

/-- Equal as dictionaries. -/
def Cell.Same : Cell Value → Cell Value → Prop
  | .schedule one, .schedule other => ∀ cron, one.lookup cron = other.lookup cron
  | one, other => one = other

/-- `None`, or a schedule of known fields whose times of day have the form `HH:MM`. -/
def Cell.Fits : Cell Value → Prop
  | .null => True
  | .value _ => False
  | .schedule entries => ∀ entry ∈ entries,
    ∃ field ∈ fields beginEnd, field.cron = entry.1 ∧ field.transform clip entry.2 = entry.2

variable {name front beginEnd} {data : Task Value} {cell schedule : Cell Value}
  {rest : List Field}

theorem fields_distinct : ∀ beginEnd, ∀ one ∈ fields beginEnd, ∀ other ∈ fields beginEnd,
    one.db = other.db ∨ one.cron = other.cron → one = other := by
  decide

theorem lookup_stored {field : Field} (inside : field ∈ fields beginEnd)
    (found : data.lookup name = some cell) (free : front ++ field.db ∉ Dict.keys data) :
    (convertScheduleToDbFormat name front beginEnd data).lookup (front ++ field.db) =
      cell.stored field := by
  have same (other : Field) (mem : other ∈ fields beginEnd)
      (eq : front ++ other.db = front ++ field.db) : other = field :=
    fields_distinct beginEnd other mem field inside (.inl (by simpa using eq))
  rw [convertScheduleToDbFormat, found]
  refine (Dict.lookup_writes_keyed inside same _).trans ?_
  rw [Dict.lookup_pop, Dict.lookup_eq_none.mpr free, ite_self, Option.or_none]

theorem lookup_addFieldToSchedule {field : Field} (apart : front ++ field.db ≠ name)
    (here : data.lookup name = some schedule) (key : String) :
    (addFieldToSchedule name front clip data field).lookup key =
      if key = name then
        some ((data.lookup (front ++ field.db)).elim schedule (field.add clip · schedule))
      else if key = front ++ field.db then none else data.lookup key := by
  unfold addFieldToSchedule
  cases found : data.lookup (front ++ field.db) with
  | none => grind
  | some column =>
    simp only [Dict.lookup_set, Dict.lookup_pop, if_neg apart.symm, here]
    rfl

theorem collect_congr {column other : Field → Option (Cell Value)}
    (same : ∀ field ∈ rest, column field = other field) :
    collect clip column rest schedule = collect clip other rest schedule :=
  foldl_ext _ _ _ fun _ field mem => by rw [same field mem]

/-- The columns are taken out one by one, and the schedule gets their values. -/
theorem lookup_addFields (apart : ∀ field ∈ rest, front ++ field.db ≠ name)
    (distinct : rest.Pairwise fun one other => one.db ≠ other.db)
    (here : data.lookup name = some schedule) (key : String) :
    (rest.foldl (addFieldToSchedule name front clip) data).lookup key =
      if key = name then
        some (collect clip (fun field => data.lookup (front ++ field.db)) rest schedule)
      else if ∃ field ∈ rest, key = front ++ field.db then none else data.lookup key := by
  induction rest generalizing data schedule with
  | nil => grind [collect]
  | cons field rest ih =>
    rw [pairwise_cons] at distinct
    rw [forall_mem_cons] at apart
    have step := lookup_addFieldToSchedule clip apart.1 here
    rw [foldl_cons, ih apart.2 distinct.2 ((step name).trans (if_pos rfl))]
    by_cases named : key = name
    · rw [if_pos named, if_pos named]
      refine congrArg some (collect_congr clip fun other mem => ?_)
      have differs : front ++ other.db ≠ front ++ field.db := by
        simpa using (distinct.1 other mem).symm
      rw [step, if_neg (apart.2 other mem), if_neg differs]
    · rw [if_neg named, if_neg named, step, if_neg named]
      by_cases first : key = front ++ field.db <;> simp [first]

theorem collect_stored (entries acc : List (String × Value)) :
    collect clip (fun field => (Cell.schedule entries).stored field) rest (.schedule acc) =
      .schedule (rest.foldl (fun acc field => Dict.write
        (((entries.lookup field.cron).map (field.transform clip)).map (field.cron, ·)) acc)
        acc) := by
  induction rest generalizing acc with
  | nil => rfl
  | cons field rest ih =>
    rw [foldl_cons, ← ih, collect, foldl_cons]
    cases found : entries.lookup field.cron with
    | none => simp [Cell.stored, found, Dict.write, collect]
    | some value => simp [Cell.stored, found, Dict.write, Field.add, collect]

theorem same_collect (fits : cell.Fits beginEnd clip) :
    (collect clip (fun field => cell.stored field) (fields beginEnd) (.schedule [])).Same cell := by
  cases cell with
  | null => cases beginEnd <;> rfl
  | value value => exact fits.elim
  | schedule entries =>
    rw [collect_stored]
    intro cron
    by_cases known : ∃ field ∈ fields beginEnd, field.cron = cron
    · obtain ⟨field, mem, rfl⟩ := known
      have same (other : Field) (mem' : other ∈ fields beginEnd) (eq : other.cron = field.cron) :=
        fields_distinct beginEnd other mem' field mem (.inr eq)
      refine (Dict.lookup_writes_keyed mem same _).trans ?_
      cases found : entries.lookup field.cron with
      | none => rfl
      | some value =>
        obtain ⟨other, mem', eq, clipped⟩ := fits _ (Dict.mem_of_lookup found)
        obtain rfl := same other mem' eq
        simpa using clipped
    · have unknown : entries.lookup cron = none := by
        refine Dict.lookup_eq_none.mpr fun key => known ?_
        obtain ⟨entry, mem, rfl⟩ := mem_map.mp key
        obtain ⟨field, inside, eq, -⟩ := fits entry mem
        exact ⟨field, inside, eq⟩
      rw [unknown]
      refine Dict.lookup_writes_of_none (fun field mem value written => known ⟨field, mem, ?_⟩) _
      obtain ⟨_, -, eq⟩ := Option.map_eq_some_iff.mp written
      exact congrArg Prod.fst eq

/-- A schedule that has been converted to columns and back is the same, and so is the rest of the
task. -/
theorem schedule_round_trip (found : data.lookup name = some cell)
    (fits : cell.Fits beginEnd clip)
    (free : ∀ field ∈ fields beginEnd, front ++ field.db ≠ name ∧
      front ++ field.db ∉ Dict.keys data) :
    ∃ restored, restored.Same cell ∧ ∀ key,
      (convertDbFormatToSchedule name front beginEnd clip
        (convertScheduleToDbFormat name front beginEnd data)).lookup key =
      if key = name then some restored else data.lookup key := by
  have distinct : (fields beginEnd).Pairwise fun one other => one.db ≠ other.db := by
    cases beginEnd <;> decide
  have kept (key : String) (other : ∀ field ∈ fields beginEnd, key ≠ front ++ field.db) :
      (convertScheduleToDbFormat name front beginEnd data).lookup key =
        (Dict.pop name data).lookup key := by
    rw [convertScheduleToDbFormat, found]
    refine Dict.lookup_writes_of_none (fun field mem value written => ?_) _
    obtain ⟨column, -, eq⟩ := Option.map_eq_some_iff.mp written
    exact other field mem (congrArg Prod.fst eq).symm
  refine ⟨_, same_collect clip fits, fun key => ?_⟩
  rw [convertDbFormatToSchedule, lookup_addFields clip (fun field mem => (free field mem).1)
    distinct ((Dict.lookup_set ..).trans (if_pos rfl))]
  by_cases named : key = name
  · rw [if_pos named, if_pos named]
    refine congrArg some (collect_congr clip fun field mem => ?_)
    rw [Dict.lookup_set, if_neg (free field mem).1, lookup_stored mem found (free field mem).2]
  · rw [if_neg named, if_neg named, Dict.lookup_set, if_neg named]
    by_cases column : ∃ field ∈ fields beginEnd, key = front ++ field.db
    · obtain ⟨field, mem, rfl⟩ := column
      rw [if_pos ⟨field, mem, rfl⟩, Dict.lookup_eq_none.mpr (free field mem).2]
    · rw [if_neg column, kept key fun field mem eq => column ⟨field, mem, eq⟩, Dict.lookup_pop,
        if_neg named]

def nightly : List (String × Cell (List Char)) :=
  [("schedule", .schedule [("dow", ['*']), ("begin", "22:00".toList)]), ("lifetime", .value ['2'])]

theorem schedule_round_trip_nightly : ∃ restored,
    restored.Same (.schedule [("dow", ['*']), ("begin", "22:00".toList)]) ∧ ∀ key,
      (convertDbFormatToSchedule "schedule" "schedule_" true (take 5)
        (convertScheduleToDbFormat "schedule" "schedule_" true nightly)).lookup key =
      if key = "schedule" then some restored else nightly.lookup key := by
  have fits : ∀ entry ∈ [("dow", ['*']), ("begin", "22:00".toList)], ∃ field ∈ fields true,
    field.cron = entry.1 ∧ field.transform (take 5) entry.2 = entry.2 := by decide
  exact schedule_round_trip (take 5) rfl fits (by decide)

end TruenasMiddleware.Tasks
