import TruenasMiddleware.Foundation.Fallible
import TruenasMiddleware.Update.Versions
import Mathlib.Data.List.Infix

/-! `update.status`: which release of which train is offered to the system. The tables of the update
server are lists in the order of their dicts, a release is given by its profile, and `none` raises,
which makes the status an error. -/

namespace TruenasMiddleware.Update

open List Option Fallible

/-- The members in the order of their values. -/
inductive UpdateProfiles
  | developer
  | earlyAdopter
  | general
  | missionCritical

def UpdateProfiles.named : String → Option UpdateProfiles
  | "DEVELOPER" => some developer
  | "EARLY_ADOPTER" => some earlyAdopter
  | "GENERAL" => some general
  | "MISSION_CRITICAL" => some missionCritical
  | _ => none

def profileMatches (name selectedName : String) : Option Bool := do
  let profile ← UpdateProfiles.named name
  let selected ← UpdateProfiles.named selectedName
  return decide (selected.ctorIdx ≤ profile.ctorIdx)

structure TrainDescription where
  stable : Bool := true
  maxProfile : String := "DEVELOPER"

structure Trains where
  trains : List (String × TrainDescription)
  trainsRedirection : List (String × String) := []

structure ReleaseManifest where
  train : String
  version : String
  profile : String

/-- What the plugin asks of the system and of the update server; `train` is that of the manifest. -/
structure Context where
  applied : Bool := false
  licensed : Bool := false
  disabledReasons : List String := []
  version : String
  train : String
  profile : String
  fetchTrains : Option Trains
  getTrainReleases : String → Option (List (String × String))
  canUpdate : String → String → Bool

structure Status where
  train : String
  profile : String
  matchesProfile : Bool
  newVersion : Option ReleaseManifest

def nextTrains (profile : UpdateProfiles) : List (String × TrainDescription) → List String
  | [] => []
  | (name, train) :: rest =>
    let maxProfile := (UpdateProfiles.named train.maxProfile).getD .developer
    let found := if profile.ctorIdx ≤ maxProfile.ctorIdx then [name] else []
    if train.stable then found else found ++ nextTrains profile rest

namespace Context

variable (context : Context)

def getCurrentTrainName (trains : Trains) : String :=
  (trains.trainsRedirection.lookup context.train).getD context.train

def getTrains : Option Trains := do
  let trains ← context.fetchTrains
  let name := context.getCurrentTrainName trains
  if name ∈ trains.trains.map Prod.fst then return trains
  else return { trains with trains := trains.trains ++ [(name, {})] }

def currentVersionProfile : Option String := do
  let releases ← context.getTrainReleases context.train
  match releases.lookup context.version with
  | some profile => return profile
  | none =>
    if ["CUSTOM", "INTERNAL", "MASTER"].any (·.toList <:+: context.version.toList) then
      return "DEVELOPER"
    else none

def getNextTrainsNames (trains : Trains) : Option (List String) := do
  let name := context.getCurrentTrainName trains
  let index ← trains.trains.findIdx? fun entry => decide (entry.1 = name)
  let profile ← UpdateProfiles.named context.profile
  return (nextTrains profile (trains.trains.drop (index + 1))).reverse ++ [name]

def search : List String → Option ReleaseManifest
  | [] => none
  | train :: rest => do
    let releases ← context.getTrainReleases train
    match ← releases.reverse.findM? fun entry => profileMatches entry.2 context.profile with
    | some (version, profile) => return ⟨train, version, profile⟩
    | none => search rest

def statusInternal : Option Status :=
  if context.applied || context.licensed && !context.disabledReasons.isEmpty then none
  else do
    let trains ← context.getTrains
    let train := context.getCurrentTrainName trains
    let profile ← context.currentVersionProfile
    let matchesProfile ← profileMatches profile context.profile
    let new ← context.search (← context.getNextTrainsNames trains)
    if new.version = context.version then return ⟨train, profile, matchesProfile, none⟩
    else if context.canUpdate context.version new.version then
      return ⟨train, profile, matchesProfile, some new⟩
    else none

end Context

/-- No train in front of `train` is stable. -/
def Next (later : List (String × TrainDescription)) (train : String) : Prop :=
  ∃ between last after, later = between ++ (train, last) :: after ∧
    ∀ entry ∈ between, entry.2.stable = false

/-- `train` comes after `current`, and no train between them is stable. -/
def Follows (trains : List (String × TrainDescription)) (current train : String) : Prop :=
  ∃ before first later, trains = before ++ (current, first) :: later ∧ Next later train

theorem next_of_mem {profile : UpdateProfiles} {later : List (String × TrainDescription)}
    {train : String} (mem : train ∈ nextTrains profile later) : Next later train := by
  induction later with
  | nil => cases mem
  | cons entry rest ih =>
    obtain ⟨name, description⟩ := entry
    have here : train ∈ nextTrains profile rest ∧ description.stable = false ∨ train = name := by
      rw [nextTrains] at mem
      grind
    rcases here with ⟨found, passed⟩ | rfl
    · obtain ⟨between, last, after, rfl, unstable⟩ := ih found
      exact ⟨_ :: between, last, after, rfl, forall_mem_cons.mpr ⟨passed, unstable⟩⟩
    · exact ⟨[], description, rest, rfl, nofun⟩

namespace Context

variable {context : Context} {trains : Trains} {names : List String} {train : String}
  {new : ReleaseManifest}

theorem follows_of_mem (listed : context.getNextTrainsNames trains = some names)
    (mem : train ∈ names) : train = context.getCurrentTrainName trains ∨
      Follows trains.trains (context.getCurrentTrainName trains) train := by
  obtain ⟨index, found, listed⟩ := bind_eq_some_iff.mp listed
  obtain ⟨profile, -, listed⟩ := bind_eq_some_iff.mp listed
  cases listed
  rcases mem_append.mp mem with next | here
  · obtain ⟨inside, named, -⟩ := findIdx?_eq_some_iff_getElem.mp found
    refine .inr ⟨trains.trains.take index, trains.trains[index].2, _, ?_,
      next_of_mem (mem_reverse.mp next)⟩
    rw [← of_decide_eq_true named, ← drop_eq_getElem_cons, take_append_drop]
  · exact .inl (mem_singleton.mp here)

def Misses (context : Context) (entry : String × String) : Prop :=
  profileMatches entry.2 context.profile = some false

/-- The release is the last one of its train that matches, and no train before it has one. -/
structure FirstMatch (context : Context) (names : List String) (new : ReleaseManifest) : Prop where
  fits : profileMatches new.profile context.profile = some true
  last : ∃ older newer, context.getTrainReleases new.train =
    some (older ++ (new.version, new.profile) :: newer) ∧ ∀ entry ∈ newer, context.Misses entry
  first : ∃ tried left, names = tried ++ new.train :: left ∧ ∀ train ∈ tried,
    ∃ releases, context.getTrainReleases train = some releases ∧
      ∀ entry ∈ releases, context.Misses entry

theorem firstMatch_of_search (run : context.search names = some new) :
    context.FirstMatch names new := by
  induction names with
  | nil => cases run
  | cons train rest ih =>
    obtain ⟨releases, listed, run⟩ := bind_eq_some_iff.mp run
    obtain ⟨found, searched, run⟩ := bind_eq_some_iff.mp run
    obtain ⟨newer, missed, ⟨rfl, eq⟩ | ⟨entry, older, rfl, eq, fits⟩⟩ := findM?_stops searched
    · obtain ⟨fits, last, tried, left, rfl, before⟩ := ih run
      refine ⟨fits, last, train :: tried, left, rfl, forall_mem_cons.mpr ⟨?_, before⟩⟩
      exact ⟨releases, listed, fun entry mem => missed entry (eq ▸ mem_reverse.mpr mem)⟩
    · cases run
      have split : releases = older.reverse ++ entry :: newer.reverse := by
        rw [← reverse_reverse releases, eq]
        simp
      refine ⟨fits, ⟨older.reverse, newer.reverse, split ▸ listed, fun entry mem => ?_⟩, [], rest,
        rfl, nofun⟩
      exact missed entry (mem_reverse.mp mem)

theorem offered_cases {status : Status} (returned : context.statusInternal = some status)
    (offered : status.newVersion = some new) :
    context.canUpdate context.version new.version = true ∧
    ∃ trains names, context.getTrains = some trains ∧
      context.getNextTrainsNames trains = some names ∧ context.FirstMatch names new := by
  rw [statusInternal] at returned
  split_ifs at returned
  obtain ⟨trains, fetched, returned⟩ := bind_eq_some_iff.mp returned
  obtain ⟨profile, -, returned⟩ := bind_eq_some_iff.mp returned
  obtain ⟨fits, -, returned⟩ := bind_eq_some_iff.mp returned
  obtain ⟨names, listed, returned⟩ := bind_eq_some_iff.mp returned
  obtain ⟨found, searched, returned⟩ := bind_eq_some_iff.mp returned
  split_ifs at returned with same allowed <;> cases returned <;> cases offered
  exact ⟨allowed, trains, names, fetched, listed, firstMatch_of_search searched⟩

/-- Where `can_update` is asked and decides, there is no way back from what is offered. -/
theorem offered_one_way {status : Status} {current version : Version}
    (asked : context.canUpdate context.version new.version = Update.canUpdate current version)
    (returned : context.statusInternal = some status) (offered : status.newVersion = some new)
    (decided : ¬ Undecided false (zipLongest current.components version.components)) :
    Update.canUpdate version current = false := by
  obtain ⟨allowed, -⟩ := offered_cases returned offered
  rw [asked, Update.canUpdate] at allowed
  rw [← loop_both_iff, allowed, ← zipLongest_swap] at decided
  simpa [Update.canUpdate] using decided

/-- What is offered may be updated to, lies in the current train or a later one up to the first
stable one, and is the last matching release of the first train tried that has one. -/
theorem offered_eligible {status : Status} (returned : context.statusInternal = some status)
    (offered : status.newVersion = some new) :
    context.canUpdate context.version new.version = true ∧
    ∃ trains names, context.getTrains = some trains ∧
      context.getNextTrainsNames trains = some names ∧ context.FirstMatch names new ∧
      (new.train = context.getCurrentTrainName trains ∨
        Follows trains.trains (context.getCurrentTrainName trains) new.train) := by
  obtain ⟨allowed, trains, names, fetched, listed, matched⟩ := offered_cases returned offered
  obtain ⟨tried, left, eq, -⟩ := matched.first
  have mem : new.train ∈ names := by simp [eq]
  exact ⟨allowed, trains, names, fetched, listed, matched, follows_of_mem listed mem⟩

end Context

/-- The beta train is passed over, and so is the newest release of the next stable one. -/
def fangtooth : Context where
  version := "25.04.0"
  train := "Fangtooth"
  profile := "GENERAL"
  fetchTrains := some { trains := [("Fangtooth", {}), ("Beta", { stable := false }),
    ("Goldeye", { maxProfile := "GENERAL" })] }
  getTrainReleases train := some <|
    if train = "Fangtooth" then [("25.04.0", "GENERAL")]
    else if train = "Goldeye" then [("25.10.0", "GENERAL"), ("25.10.1", "EARLY_ADOPTER")] else []
  canUpdate old new := decide (old ≠ new)

theorem fangtooth_offered : ∃ trains names, fangtooth.getTrains = some trains ∧
    fangtooth.getNextTrainsNames trains = some names ∧
    fangtooth.FirstMatch names ⟨"Goldeye", "25.10.0", "GENERAL"⟩ := by
  have returned : fangtooth.statusInternal =
      some ⟨"Fangtooth", "GENERAL", true, some ⟨"Goldeye", "25.10.0", "GENERAL"⟩⟩ := by rfl
  obtain ⟨-, trains, names, fetched, listed, matched, -⟩ := Context.offered_eligible returned rfl
  exact ⟨trains, names, fetched, listed, matched⟩

end TruenasMiddleware.Update
