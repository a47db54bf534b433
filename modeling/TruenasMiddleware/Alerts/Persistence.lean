import TruenasMiddleware.Alerts.Model
import Mathlib.Data.List.Induction
import Mathlib.Data.List.Perm.Basic

/-! The alert list in the database: the rows that `flush_alerts` writes while other calls change
the list, and the list that `initialize` makes of them. -/

namespace TruenasMiddleware.Alerts

open Transition List

variable {Args : Type}

section Flush

variable {state next : State Args}

/-- The part of the walked list that the loop has passed is in the database. -/
structure Flushed (walked : List (Alert Args)) (db : List (Row Args)) (flush : Flush Args) :
    Prop where
  stored : ∀ alert ∈ walked.take flush.index, ∃ row ∈ db, row.uuid = alert.uuid
  there : flush.throughout ⊆ walked.map Alert.uuid

def Persists (state : State Args) : Prop :=
  ∀ flush ∈ state.flushes, Flushed (state.walked flush) state.db flush

theorem take_eraseP {α : Type*} {p : α → Bool} {list : List α} {n : Nat}
    (away : ∀ x ∈ list.take n, p x = false) : (list.eraseP p).take n = list.take n := by
  induction list generalizing n with
  | nil => rfl
  | cons first rest ih =>
    cases n with
    | zero => rfl
    | succ n =>
      rw [take_succ_cons] at away
      have here := away first mem_cons_self
      rw [eraseP_cons_of_neg (by simp [here]), take_succ_cons, take_succ_cons,
        ih fun x mem => away x (mem_cons_of_mem first mem)]

theorem Persists.assign (persists : Persists state) (alerts : List (Alert Args)) :
    Persists (state.assign alerts) := by
  intro flush now
  obtain ⟨before, running, rfl⟩ := mem_map.mp now
  obtain ⟨stored, there⟩ := persists before running
  have fewer := List.Subset.trans (filter_subset_self (p := (· ∈ alerts.map Alert.uuid)) _) there
  by_cases begun : before.index = 0
  · simp only [if_pos begun]
    refine ⟨fun alert mem => by simp [State.stillThere, begun] at mem, ?_⟩
    -- the loop will walk the new list
    cases detached : before.detached with
    | some list =>
      rw [State.walked, detached] at fewer
      exact fewer
    | none => exact fun uuid mem => of_decide_eq_true (mem_filter.mp mem).2
  · simp only [if_neg begun]
    exact ⟨stored, fewer⟩

theorem Persists.mutate {change : Alert Args → Alert Args} (persists : Persists state)
    (uuid : ∀ alert, (change alert).uuid = alert.uuid) : Persists (state.mutate change) := by
  intro flush now
  obtain ⟨before, running, rfl⟩ := mem_map.mp now
  obtain ⟨stored, there⟩ := persists before running
  have walked : (state.mutate change).walked { before with
      detached := before.detached.map (map change) } = (state.walked before).map change := by
    rw [State.walked, State.walked]
    cases before.detached <;> rfl
  have uuids : ((state.walked before).map change).map Alert.uuid =
      (state.walked before).map Alert.uuid := by
    rw [map_map]
    exact map_congr_left fun alert _ => uuid alert
  rw [walked]
  refine ⟨?_, uuids ▸ there⟩
  intro alert mem
  rw [← map_take] at mem
  obtain ⟨original, passed, rfl⟩ := mem_map.mp mem
  rw [uuid]
  exact stored original passed

section Remove

variable [DecidableEq Args]

/-- The alerts that a step removes from the list object itself. -/
def removedInPlace (state : State Args) : Label Args → List (Alert Args)
  | .dismiss uuid =>
    match state.alerts.find? fun alert => decide (alert.uuid = uuid) with
    | none => []
    | some alert =>
      if alert.klass.dismissable then []
      else if alert.klass.oneShot && !alert.klass.deletedAutomatically then [alert] else []
  | .dismissReturn i left =>
    ((state.dismissals[i]?).map fun dismissal => dismissal.gone left).getD []
  | .oneshotDelete node klass left => oneshotGone state node klass left
  | _ => []

/-- Whether a step empties the table. -/
def empties (state : State Args) : Label Args → Bool
  | .oneshotDeleted backup => !backup && decide (state.deletion = .running true)
  | .flushStart backup => !backup
  | _ => false

/-- A step does not remove, from the list that a flush walks, an alert that the loop has passed:
the alerts after it would move up and the loop skip one. Nor does another flush empty the table
once the loop has begun. -/
def Unskipped (state : State Args) (label : Label Args) : Prop :=
  ∀ flush ∈ state.flushes, (empties state label → flush.index = 0) ∧
    (flush.detached = none → ∀ alert ∈ removedInPlace state label,
      ∀ passed ∈ state.alerts.take flush.index, alert.same passed = false)

instance (state : State Args) (label : Label Args) : Decidable (Unskipped state label) := by
  unfold Unskipped
  infer_instance

variable {alerts gone : List (Alert Args)}

theorem take_removeAll {n : Nat}
    (away : ∀ alert ∈ gone, ∀ passed ∈ alerts.take n, alert.same passed = false) :
    (removeAll alerts gone).take n = alerts.take n := by
  induction gone generalizing alerts with
  | nil => rfl
  | cons first rest ih =>
    have kept := take_eraseP (away first mem_cons_self)
    rw [removeAll, foldl_cons, ← removeAll, ih, kept]
    intro alert inside passed mem
    rw [kept] at mem
    exact away alert (mem_cons_of_mem first inside) passed mem

section

variable (persists : Persists state)
include persists

theorem Persists.shrink (away : ∀ flush ∈ state.flushes, flush.detached = none → ∀ alert ∈ gone,
      ∀ passed ∈ state.alerts.take flush.index, alert.same passed = false) :
    Persists (state.shrink (removeAll state.alerts gone)) := by
  intro flush now
  obtain ⟨before, running, rfl⟩ := mem_map.mp now
  obtain ⟨stored, there⟩ := persists before running
  cases detached : before.detached with
  | some list =>
    rw [State.walked, detached] at stored there
    rw [State.walked, State.stillThere, detached]
    exact ⟨stored, List.Subset.trans (filter_subset_self _) there⟩
  | none =>
    rw [State.walked, detached] at stored
    rw [State.walked, State.stillThere, detached]
    refine ⟨?_, ?_⟩
    · intro alert mem
      have kept := take_removeAll (away before running detached)
      exact stored alert (kept ▸ mem)
    · intro uuid mem
      exact of_decide_eq_true (mem_filter.mp mem).2

theorem Persists.dismiss {uuid : Nat} (unskipped : Unskipped state (.dismiss uuid)) :
    Persists (dismiss state uuid) := by
  have away := fun flush running => (unskipped flush running).2
  rw [Alerts.dismiss]
  simp only [removedInPlace] at away
  split
  · exact persists
  · rename_i alert found
    simp only [found] at away
    split_ifs at away ⊢
    · exact persists
    · exact persists.shrink away
    · refine persists.mutate fun other => ?_
      unfold setDismissed
      split <;> rfl

omit [DecidableEq Args] in
theorem Persists.runBlockedSource (name : String) (node : Node)
    (now : Nat) : Persists (runBlockedSource state name node now) := by
  have seen : ∀ refs, Persists (state.mutate (seenAgain refs now)) := by
    refine fun refs => persists.mutate fun alert => ?_
    unfold seenAgain
    split <;> rfl
  exact (seen _).assign _

omit [DecidableEq Args] in
theorem Persists.flushStart (ofDelete : Bool) (fresh : ∀ flush ∈ state.flushes, flush.index = 0) :
    Persists (flushStart state ofDelete) := by
  intro flush running
  rcases mem_append.mp running with other | new
  · refine ⟨fun alert mem => ?_, (persists flush other).there⟩
    rw [fresh flush other, take_zero] at mem
    cases mem
  · rw [mem_singleton.mp new]
    exact ⟨fun alert mem => by simp at mem, List.Subset.refl _⟩

omit [DecidableEq Args] in
theorem Persists.flushStep {i : Nat} {flush : Flush Args} {alert : Alert Args}
    (running : state.flushes[i]? = some flush)
    (here : (state.walked flush)[flush.index]? = some alert) :
    Persists (flushStep state i flush alert) := by
  have more : ∀ {passed : Alert Args}, (∃ row ∈ state.db, row.uuid = passed.uuid) →
      ∃ row ∈ state.db ++ [alert.row], row.uuid = passed.uuid := by
    rintro passed ⟨row, mem, eq⟩
    exact ⟨row, mem_append_left _ mem, eq⟩
  intro other inside
  rcases mem_or_eq_of_mem_set inside with old | rfl
  · obtain ⟨stored, there⟩ := persists other old
    exact ⟨fun passed mem => more (stored passed mem), there⟩
  · obtain ⟨stored, there⟩ := persists flush (mem_of_getElem? running)
    refine ⟨?_, there⟩
    intro passed inside
    change passed ∈ (state.walked flush).take (flush.index + 1) at inside
    rw [take_add_one, here, mem_append] at inside
    rcases inside with before | last
    · exact more (stored passed before)
    · obtain rfl := mem_singleton.mp last
      exact ⟨_, mem_append_right _ (mem_singleton_self _), rfl⟩

theorem Persists.step {label : Label Args} (unskipped : Unskipped state label)
    (taken : step state label = some next) :
    Persists next := by
  have away := fun flush running => (unskipped flush running).2
  cases step_cases taken with
  | dismiss uuid => exact persists.dismiss unskipped
  | dismissReturn left found =>
    simp only [removedInPlace, found, Option.map_some, Option.getD_some] at away
    exact persists.shrink away
  | runSource => exact persists.assign _
  | runBlockedSource name node now => exact persists.runBlockedSource name node now
  | expire | restoreValid | oneshotCreate => exact persists.assign _
  | oneshotDelete => exact persists.shrink away
  | flushRefused => exact persists
  | oneshotFlush running =>
    refine persists.flushStart true fun flush mem => (unskipped flush mem).1 ?_
    simp [empties, running]
  | flushStart => exact persists.flushStart false fun flush mem => (unskipped flush mem).1 rfl
  | flushStep running here => exact persists.flushStep running here
  | flushEnd i => exact fun flush running => persists flush (mem_of_mem_eraseIdx running)
  | _ => exact persists

end

theorem flush_stores {flush : Flush Args} (reached : Reach step Unskipped ({} : State Args) state)
    (running : flush ∈ state.flushes) (ended : (state.walked flush).length ≤ flush.index) :
    ∀ uuid ∈ flush.throughout, ∃ row ∈ state.db, row.uuid = uuid := by
  have start : Persists ({} : State Args) := nofun
  have persists : Persists state := reached.invariant start
    fun _ _ _ persists unskipped taken => persists.step unskipped taken
  obtain ⟨stored, there⟩ := persists flush running
  intro uuid inside
  obtain ⟨alert, mem, rfl⟩ := mem_map.mp (there inside)
  rw [take_of_length_le ended] at stored
  exact stored alert mem

end Remove

end Flush

/-- What is registered when the service starts: the alert classes by name and the sources. -/
structure Registry where
  classes : List AlertClass
  sources : List String

variable (registry : Registry)

def Registry.byName (name : String) : Option AlertClass :=
  registry.classes.find? fun klass => decide (klass.name = name)

/-- `klass.from_args`: a plain class ignores what was stored. -/
def fromArgs (klass : AlertClass) (args : Option Args) : Instance Args :=
  if plain : klass.hasArgs = false then ⟨klass, none, fun _ => rfl⟩
  else ⟨klass, args, fun given => absurd given plain⟩

/-- `_text or self.instance.config.text or self.instance.config.title`. -/
def orText (text : String) (klass : AlertClass) : String :=
  if text ≠ "" then text
  else if klass.text.getD "" ≠ "" then klass.text.getD "" else klass.title

def restoreRow (row : Row Args) : Option (Alert Args) :=
  if row.source ≠ "" ∧ row.source ∉ registry.sources then none
  else (registry.byName row.klass).map fun klass =>
    { ref := row.uuid
      inst := fromArgs klass row.args
      datetime := row.datetime
      lastOccurrence := row.lastOccurrence
      node := row.node
      dismissed := row.dismissed
      mail := none
      uuid := row.uuid
      source := row.source
      key := row.key
      text := orText row.text klass }

/-- `alerts_uuids` and `alerts_by_classes` of `initialize`. -/
structure Loading (Args : Type) where
  uuids : List Nat := []
  byClasses : List (String × List (Alert Args)) := []

def loadRow (loading : Loading Args) (row : Row Args) : Loading Args :=
  match restoreRow registry row with
  | none => loading
  | some alert =>
    if alert.uuid ∈ loading.uuids then loading
    else
      { uuids := loading.uuids ++ [alert.uuid]
        byClasses := Dict.set alert.klass.name
          ((loading.byClasses.lookup alert.klass.name).getD [] ++ [alert]) loading.byClasses }

def loadClass (applicable : Alert Args → Bool) : List (Alert Args) → List (Alert Args)
  | [] => []
  | first :: rest =>
    if first.klass.oneShot then (first :: rest).filter applicable else first :: rest

def initializeLoad (applicable : Alert Args → Bool) (rows : List (Row Args)) : List (Alert Args) :=
  (rows.foldl (loadRow registry) {}).byClasses.flatMap fun entry => loadClass applicable entry.2

structure Saved (Args : Type) where
  uuid : Nat
  klass : String
  key : String
  node : Node
  source : String
  dismissed : Bool
  args : Option Args

def Alert.saved (alert : Alert Args) : Saved Args :=
  ⟨alert.uuid, alert.klass.name, alert.key, alert.node, alert.source, alert.dismissed,
    alert.inst.args⟩

def Registry.knows (alert : Alert Args) : Bool :=
  (registry.byName alert.klass.name).isSome &&
    (decide (alert.source = "") || decide (alert.source ∈ registry.sources))

def distinctUuids (alerts : List (Alert Args)) : List (Alert Args) :=
  alerts.foldl
    (fun kept alert => if alert.uuid ∈ kept.map Alert.uuid then kept else kept ++ [alert]) []

def Alert.revived (alert : Alert Args) : Alert Args :=
  { alert with ref := alert.uuid, mail := none, text := orText alert.text alert.klass }

theorem fromArgs_args (inst : Instance Args) : fromArgs inst.klass inst.args = inst := by
  obtain ⟨klass, args, plain⟩ := inst
  rw [fromArgs]
  split
  · rename_i none
    simp [plain none]
  · rfl

section Load

variable {registry : Registry} {alerts : List (Alert Args)}

def Registry.Unchanged (registry : Registry) (alerts : List (Alert Args)) : Prop :=
  ∀ alert ∈ alerts, ∀ klass, registry.byName alert.klass.name = some klass → klass = alert.klass

theorem restoreRow_row {alert : Alert Args}
    (unchanged : ∀ klass, registry.byName alert.klass.name = some klass → klass = alert.klass) :
    restoreRow registry alert.row = if registry.knows alert then some alert.revived else none := by
  rw [restoreRow, Registry.knows]
  cases found : registry.byName alert.klass.name with
  | none => simp [Alert.row, found]
  | some klass =>
    obtain rfl := unchanged klass found
    have inst : fromArgs alert.klass alert.inst.args = alert.inst := fromArgs_args alert.inst
    by_cases empty : alert.source = "" <;> by_cases known : alert.source ∈ registry.sources <;>
      simp [Alert.row, found, empty, known, Alert.revived, inst]

structure Loaded (registry : Registry) (alerts : List (Alert Args)) (loading : Loading Args) :
    Prop where
  uuids : loading.uuids = (distinctUuids (alerts.filter registry.knows)).map Alert.uuid
  all : (loading.byClasses.flatMap Prod.snd).Perm
    ((distinctUuids (alerts.filter registry.knows)).map Alert.revived)
  classes : ∀ entry ∈ loading.byClasses, ∀ alert ∈ entry.2,
    registry.byName entry.1 = some alert.klass

theorem Loaded.next {loading : Loading Args} {alert : Alert Args}
    (loaded : Loaded registry alerts loading)
    (unchanged : ∀ klass, registry.byName alert.klass.name = some klass → klass = alert.klass) :
    Loaded registry (alerts ++ [alert]) (loadRow registry loading alert.row) := by
  set kept := distinctUuids (alerts.filter registry.knows) with eq
  have shape : distinctUuids ((alerts ++ [alert]).filter registry.knows) =
      if registry.knows alert then
        if alert.uuid ∈ kept.map Alert.uuid then kept else kept ++ [alert]
      else kept := by
    rw [eq, filter_append]
    cases known : registry.knows alert <;> simp [known, distinctUuids]
  rw [loadRow, restoreRow_row unchanged]
  cases known : registry.knows alert with
  | false =>
    simp only [Bool.false_eq_true, if_false]
    refine ⟨?_, ?_, loaded.classes⟩ <;> rw [shape, known]
    · exact loaded.uuids
    · exact loaded.all
  | true =>
    simp only [if_true]
    have uuid : alert.revived.uuid = alert.uuid := rfl
    rw [uuid, loaded.uuids]
    by_cases seen : alert.uuid ∈ kept.map Alert.uuid
    · rw [if_pos seen]
      refine ⟨?_, ?_, loaded.classes⟩ <;> rw [shape, known, if_pos rfl, if_pos seen]
      · exact loaded.uuids
      · exact loaded.all
    · rw [if_neg seen]
      refine ⟨?_, ?_, ?_⟩
      · rw [shape, known, if_pos rfl, if_neg seen, map_append]
        rfl
      · rw [shape, known, if_pos rfl, if_neg seen, map_append]
        exact (Dict.flatMap_set_append _ _ _).trans (loaded.all.append_right _)
      · intro entry inside other mem
        rcases Dict.mem_set inside with rfl | old
        · rcases mem_append.mp mem with earlier | last
          · cases found : loading.byClasses.lookup alert.revived.klass.name with
            | none => simp [found] at earlier
            | some group =>
              rw [found] at earlier
              exact loaded.classes _ (Dict.mem_of_lookup found) other earlier
          · obtain rfl := mem_singleton.mp last
            obtain ⟨klass, found⟩ := Option.isSome_iff_exists.mp (Bool.and_eq_true_iff.mp known).1
            exact found.trans (congrArg some (unchanged klass found))
        · exact loaded.classes entry old other mem

theorem loaded_rows (unchanged : registry.Unchanged alerts) :
    Loaded registry alerts ((alerts.map Alert.row).foldl (loadRow registry) {}) := by
  induction alerts using reverseRecOn with
  | nil => exact ⟨rfl, .refl _, nofun⟩
  | append_singleton before last ih =>
    have earlier := ih fun alert mem => unchanged alert (mem_append_left _ mem)
    rw [map_append, foldl_append]
    exact earlier.next (unchanged last (mem_append_right _ (mem_singleton_self _)))

theorem loadClass_eq_filter {applicable : Alert Args → Bool} {group : List (Alert Args)}
    {klass : AlertClass} (one : ∀ alert ∈ group, alert.klass = klass) :
    loadClass applicable group =
      group.filter fun alert => !alert.klass.oneShot || applicable alert := by
  cases group with
  | nil => rfl
  | cons first rest =>
    rw [loadClass, one first mem_cons_self]
    cases kind : klass.oneShot with
    | true =>
      refine filter_congr fun alert mem => ?_
      simp [one alert mem, kind]
    | false =>
      refine (filter_eq_self.mpr fun alert mem => ?_).symm
      simp [one alert mem, kind]

theorem initializeLoad_perm (applicable : Saved Args → Bool)
    (unchanged : registry.Unchanged alerts) :
    ((initializeLoad registry (applicable ∘ Alert.saved) (alerts.map Alert.row)).map
        Alert.saved).Perm
      (((distinctUuids (alerts.filter registry.knows)).filter fun alert =>
        !alert.klass.oneShot || applicable alert.saved).map Alert.saved) := by
  have loaded := loaded_rows unchanged
  rw [initializeLoad]
  generalize (alerts.map Alert.row).foldl (loadRow registry) {} = loading at loaded
  have groups : (loading.byClasses.flatMap fun entry =>
      loadClass (applicable ∘ Alert.saved) entry.2) =
      (loading.byClasses.flatMap Prod.snd).filter fun alert =>
        !alert.klass.oneShot || applicable alert.saved := by
    rw [filter_flatMap]
    refine flatMap_congr fun entry inside => ?_
    cases found : registry.byName entry.1 with
    | none =>
      have empty : entry.2 = [] := eq_nil_iff_forall_not_mem.mpr fun alert mem => by
        simpa [found] using loaded.classes entry inside alert mem
      rw [empty]
      rfl
    | some klass =>
      exact loadClass_eq_filter fun alert mem =>
        (Option.some.inj (found.symm.trans (loaded.classes entry inside alert mem))).symm
  have eq : ∀ list : List (Alert Args), ((list.map Alert.revived).filter fun alert =>
      !alert.klass.oneShot || applicable alert.saved).map Alert.saved =
      (list.filter fun alert =>
        !alert.klass.oneShot || applicable alert.saved).map Alert.saved := by
    intro list
    rw [filter_map, map_map]
    rfl
  rw [groups, ← eq (distinctUuids _)]
  exact (loaded.all.filter _).map _

end Load

section Restart

variable [DecidableEq Args]

def flushAlone (alerts : List (Alert Args)) : List (Label Args) :=
  .flushStart false :: (replicate alerts.length (.flushStep 0) ++ [.flushEnd 0])

theorem exec_flushSteps {state : State Args} (passed : List (Alert Args))
    {rest : List (Alert Args)} {known : List Nat} (list : state.alerts = passed ++ rest)
    (running : state.flushes = [{ index := passed.length, throughout := known }]) :
    exec step Always state (replicate rest.length (.flushStep 0) ++ [.flushEnd 0]) =
      some { state with db := state.db ++ rest.map Alert.row, flushes := [] } := by
  induction rest generalizing state passed with
  | nil =>
    rw [append_nil] at list
    simp [exec, Always, step, flushEnd, running, State.walked, list]
  | cons alert rest ih =>
    have taken : step state (.flushStep 0) = some { state with
        db := state.db ++ [alert.row]
        flushes := [{ index := passed.length + 1, throughout := known }] } := by
      simp [step, flushStep, running, State.walked, list]
    rw [length_cons, replicate_succ, cons_append, exec_always_cons, taken,
      Option.bind_some, ih (passed ++ [alert])]
    · simp
    · rw [list, append_assoc, singleton_append]
    · rw [length_append, length_singleton]

theorem exec_flushAlone {state : State Args} (idle : state.flushes = []) :
    exec step Always state (flushAlone state.alerts) =
      some { state with db := state.alerts.map Alert.row } := by
  have started : step state (.flushStart false) = some { state with
      db := [], flushes := [{ index := 0, throughout := state.alerts.map Alert.uuid }] } := by
    simp [step, flushStart, idle]
  rw [flushAlone, exec_always_cons, started, Option.bind_some, exec_flushSteps [] rfl rfl,
    nil_append, ← idle]

end Restart

def certificateClass : AlertClass :=
  { name := "CertificateExpired", oneShot := true, deletedAutomatically := false }

def certificateReport (key : String) : Report Nat :=
  { inst := ⟨certificateClass, some 7, nofun⟩, key := key }

def certificates : Registry := ⟨[certificateClass], []⟩

def certificateAlert (uuid : Nat) (key : String) : Alert Nat :=
  handleAlert [] 1 uuid uuid .a "" (certificateReport key)

def certificatesCreated : List (Label Nat) :=
  [.oneshotCreate .a (certificateReport "one") 1, .oneshotCreate .a (certificateReport "two") 1]

/-- A flush ends and an alert that was in the list all the time is not stored. -/
def Missed (state : State Nat) : Prop :=
  ∃ flush ∈ state.flushes, (state.walked flush).length ≤ flush.index ∧
    ∃ uuid ∈ flush.throughout, ∀ row ∈ state.db, row.uuid ≠ uuid

instance (state : State Nat) : Decidable (Missed state) := by
  unfold Missed
  infer_instance

end TruenasMiddleware.Alerts
