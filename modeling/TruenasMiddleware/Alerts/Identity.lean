import TruenasMiddleware.Alerts.Dismissal

/-! Source runs and one-shot creations keep uuids and idents distinct. A run keeps one report for
each key, so that a second class under a key is lost. -/

namespace TruenasMiddleware.Alerts

open List

variable {Args : Type}

/-- Alerts are told apart by their uuid and by their ident; a new uuid is no old one. -/
structure Distinct (state : State Args) : Prop where
  uuids : (state.alerts.map Alert.uuid).Nodup
  idents : (State.idents state.alerts).Nodup
  old : ∀ alert ∈ state.alerts, alert.uuid < state.fresh

def Alert.Keeps (before after : Alert Args) : Prop :=
  after.uuid = before.uuid ∧ after.datetime = before.datetime ∧ after.dismissed = before.dismissed

def OneClass (reports : List (Report Args)) : Prop :=
  ∀ first ∈ reports, ∀ second ∈ reports, first.key = second.key →
    first.inst.klass.name = second.inst.klass.name

def Represented (alerts : List (Alert Args)) (node : Node) (name : String)
    (reports : List (Report Args)) : Prop :=
  ∀ report ∈ reports, (State.idents alerts).count (report.ident node name) = 1

inductive Action (Args : Type)
  | runSource (name : String) (node : Node) (this other : List (Report Args)) (now : Nat)
  | oneshotCreate (node : Node) (report : Report Args) (now : Nat)

def Action.apply (state : State Args) : Action Args → State Args
  | .runSource name node this other now => Alerts.runSource state name node this other now
  | .oneshotCreate node report now => Alerts.oneshotCreate state node report now

def runActions (state : State Args) (actions : List (Action Args)) : State Args :=
  actions.foldl Action.apply state

section Reports

theorem exists_mem_uniqueKeys {reports : List (Report Args)} {report : Report Args}
    (mem : report ∈ reports) : ∃ kept ∈ uniqueKeys reports, kept.key = report.key := by
  induction reports using reverseRecOn with
  | nil => cases mem
  | append_singleton before last ih =>
    rw [uniqueKeys, foldl_append, foldl_cons, foldl_nil, ← uniqueKeys]
    rcases mem_append.mp mem with earlier | here
    · obtain ⟨kept, inside, eq⟩ := ih earlier
      refine ⟨kept, ?_, eq⟩
      split
      · exact inside
      · exact mem_append_left _ inside
    · obtain rfl := mem_singleton.mp here
      split
      · rename_i found
        obtain ⟨kept, inside, eq⟩ := any_eq_true.mp found
        exact ⟨kept, inside, of_decide_eq_true eq⟩
      · exact ⟨report, mem_append_right _ (mem_singleton_self _), rfl⟩

theorem nodup_idents_uniqueKeys (node : Node) (name : String) (reports : List (Report Args)) :
    ((uniqueKeys reports).map (Report.ident node name)).Nodup := by
  refine List.Nodup.of_map Ident.key ?_
  rw [map_map]
  exact (nodup_keys_uniqueKeys reports).1

theorem idents_uniqueKeys_iff (node : Node) (name : String) (reports : List (Report Args)) :
    (∀ report ∈ reports,
        report.ident node name ∈ (uniqueKeys reports).map (Report.ident node name)) ↔
      OneClass reports := by
  constructor
  · intro all
    have classOf : ∀ report ∈ reports, ∃ kept ∈ uniqueKeys reports, kept.key = report.key ∧
        kept.inst.klass.name = report.inst.klass.name := by
      intro report mem
      obtain ⟨kept, inside, eq⟩ := mem_map.mp (all report mem)
      exact ⟨kept, inside, congrArg Ident.key eq, congrArg Ident.klass eq⟩
    intro first left second right eq
    obtain ⟨kept, inside, key, klass⟩ := classOf first left
    obtain ⟨kept', inside', key', klass'⟩ := classOf second right
    obtain rfl : kept = kept' := inj_on_of_nodup_map (nodup_keys_uniqueKeys reports).1
      inside inside' (key.trans (eq.trans key'.symm))
    exact klass.symm.trans klass'
  · intro oneClass report mem
    obtain ⟨kept, inside, eq⟩ := exists_mem_uniqueKeys mem
    have klass := oneClass kept ((nodup_keys_uniqueKeys reports).2 inside) report mem eq
    refine mem_map.mpr ⟨kept, inside, ?_⟩
    rw [Report.ident, Report.ident, klass, eq]

theorem handleAlert_cases (alerts : List (Alert Args)) (now id : Nat) (node : Node)
    (source : String) (report : Report Args) :
    (∃ old ∈ alerts, old.ident = report.ident node source ∧
        old.Keeps (handleAlert alerts now id id node source report)) ∨
      (report.ident node source ∉ State.idents alerts ∧
        (handleAlert alerts now id id node source report).uuid = id) := by
  unfold Alert.Keeps handleAlert
  cases found : alerts.find? fun alert => decide (alert.ident = report.ident node source) with
  | none =>
    refine Or.inr ⟨fun present => ?_, rfl⟩
    obtain ⟨alert, mem, eq⟩ := mem_map.mp present
    exact absurd (decide_eq_true eq) (List.find?_eq_none.mp found alert mem)
  | some old =>
    have eq : old.ident = report.ident node source := by simpa using List.find?_some found
    exact Or.inl ⟨old, mem_of_find?_eq_some found, eq, rfl, rfl, rfl⟩

theorem refs_handleReports (alerts : List (Alert Args)) (now fresh : Nat) (node : Node)
    (source : String) (reports : List (Report Args)) :
    (handleReports alerts now fresh node source reports).map Alert.ref =
      range' fresh reports.length := by
  rw [handleReports, map_map, range'_eq_map_range, range_eq_range',
    ← zipIdx_map_snd 0 reports, map_map]
  rfl

end Reports

structure Renewed (state : State Args) (left made : List (Alert Args)) (fresh : Nat) : Prop where
  leaves : left.Sublist state.alerts
  idents : (State.idents made).Nodup
  refs : (made.map Alert.ref).Nodup
  bounds : ∀ alert ∈ made, state.fresh ≤ alert.ref ∧ alert.ref < fresh
  replaces : ∀ alert ∈ made, alert.ident ∉ State.idents left ∧
    ((∃ old ∈ state.alerts, old.ident = alert.ident ∧ old.Keeps alert) ∨
      (alert.ident ∉ State.idents state.alerts ∧ alert.uuid = alert.ref))
  grows : state.fresh ≤ fresh

section Renewed

variable {state next : State Args} {left made : List (Alert Args)}

theorem Renewed.distinct (renewed : Renewed state left made next.fresh) (distinct : Distinct state)
    (alerts : next.alerts = left ++ made) : Distinct next := by
  -- an alert that was made has a uuid that is new, or the one of an alert with its ident
  have uuid : ∀ alert ∈ made, ∀ other ∈ state.alerts, alert.uuid = other.uuid →
      alert.ident = other.ident := by
    intro alert mem other inside eq
    rcases (renewed.replaces alert mem).2 with ⟨old, there, ident, keeps⟩ | ⟨-, new⟩
    · rw [← ident, inj_on_of_nodup_map distinct.uuids there inside (keeps.1.symm.trans eq)]
    · have bound := (renewed.bounds alert mem).1
      have old := distinct.old other inside
      omega
  have injective : ∀ first ∈ made, ∀ second ∈ made, first.uuid = second.uuid → first = second := by
    intro first inFirst second inSecond eq
    rcases (renewed.replaces first inFirst).2 with ⟨old, there, ident, keeps⟩ | ⟨-, new⟩
    · have equal := uuid second inSecond old there (eq.symm.trans keeps.1)
      exact inj_on_of_nodup_map renewed.idents inFirst inSecond (ident.symm.trans equal.symm)
    · rcases (renewed.replaces second inSecond).2 with ⟨old, there, ident, keeps⟩ | ⟨-, new'⟩
      · have bound := (renewed.bounds first inFirst).1
        have older := distinct.old old there
        have given := keeps.1
        omega
      · exact inj_on_of_nodup_map renewed.refs inFirst inSecond (new.symm.trans (eq.trans new'))
  refine ⟨?_, ?_, ?_⟩
  · rw [alerts]
    refine Dict.nodup_map_append.mpr ⟨distinct.uuids.sublist (renewed.leaves.map _),
      List.Nodup.map_on injective (List.Nodup.of_map _ renewed.idents), ?_⟩
    intro other inside alert mem eq
    refine (renewed.replaces alert mem).1 (mem_map.mpr ⟨other, inside, ?_⟩)
    exact (uuid alert mem other (renewed.leaves.subset inside) eq.symm).symm
  · rw [alerts]
    refine Dict.nodup_map_append.mpr
      ⟨distinct.idents.sublist (renewed.leaves.map _), renewed.idents, ?_⟩
    exact fun other inside alert mem eq =>
      (renewed.replaces alert mem).1 (mem_map.mpr ⟨other, inside, eq⟩)
  · intro alert inside
    rw [alerts] at inside
    rcases mem_append.mp inside with there | mem
    · exact Nat.lt_of_lt_of_le (distinct.old alert (renewed.leaves.subset there)) renewed.grows
    · rcases (renewed.replaces alert mem).2 with ⟨old, there, -, keeps⟩ | ⟨-, new⟩
      · rw [keeps.1]
        exact Nat.lt_of_lt_of_le (distinct.old old there) renewed.grows
      · exact new ▸ (renewed.bounds alert mem).2

theorem Renewed.keeps (renewed : Renewed state left made next.fresh) (distinct : Distinct state)
    (alerts : next.alerts = left ++ made) {before after : Alert Args}
    (was : before ∈ state.alerts) (remains : after ∈ next.alerts)
    (eq : before.ident = after.ident) : before.Keeps after := by
  rw [alerts] at remains
  rcases mem_append.mp remains with there | mem
  · rw [eq_of_ident distinct.idents was (renewed.leaves.subset there) eq]
    exact ⟨rfl, rfl, rfl⟩
  · rcases (renewed.replaces after mem).2 with ⟨old, there, ident, keeps⟩ | ⟨absent, -⟩
    · rwa [eq_of_ident distinct.idents was there (eq.trans ident.symm)]
    · exact absurd (mem_map.mpr ⟨before, was, eq⟩) absent

end Renewed

section Actions

variable {state : State Args} (name : String) (node : Node) (this other : List (Report Args))
  (now : Nat)

def sourceAlerts (state : State Args) : List (Alert Args) :=
  handleReports state.alerts now state.fresh node name (uniqueKeys this) ++
    handleReports state.alerts now (state.fresh + (uniqueKeys this).length) node.other name
      (uniqueKeys other)

theorem idents_sourceAlerts : State.idents (sourceAlerts name node this other now state) =
      (uniqueKeys this).map (Report.ident node name) ++
        (uniqueKeys other).map (Report.ident node.other name) := by
  rw [State.idents, sourceAlerts, map_append, ← State.idents, ← State.idents,
    idents_handleReports, idents_handleReports]

theorem other_ident_ne (report report' : Report Args) :
    report.ident node name ≠ report'.ident node.other name := by
  intro eq
  have nodes : node = node.other := congrArg Ident.node eq
  cases node <;> cases nodes

theorem runSource_renewed : Renewed state
      (state.alerts.filter fun alert => decide (alert.source ≠ name))
      (sourceAlerts name node this other now state)
      (runSource state name node this other now).fresh := by
  have refs : (sourceAlerts name node this other now state).map Alert.ref =
      range' state.fresh ((uniqueKeys this).length + (uniqueKeys other).length) := by
    rw [sourceAlerts, map_append, refs_handleReports, refs_handleReports, range'_append_1]
  refine ⟨filter_sublist, ?_, ?_, ?_, ?_, ?_⟩
  · rw [idents_sourceAlerts]
    refine nodup_append.mpr ⟨nodup_idents_uniqueKeys node name this,
      nodup_idents_uniqueKeys node.other name other, ?_⟩
    rintro _ first _ second rfl
    obtain ⟨report, -, rfl⟩ := mem_map.mp first
    obtain ⟨report', -, eq⟩ := mem_map.mp second
    exact other_ident_ne name node report report' eq.symm
  · rw [refs]
    exact nodup_range'
  · intro alert mem
    have inside := mem_map_of_mem (f := Alert.ref) mem
    rw [refs, mem_range'_1] at inside
    exact ⟨inside.1, by simpa [runSource, Nat.add_assoc] using inside.2⟩
  · intro alert mem
    obtain ⟨report, id, whose, rfl⟩ : ∃ report id whose,
        alert = handleAlert state.alerts now id id whose name report := by
      rcases mem_append.mp mem with here | there
      · obtain ⟨report, -, id, made⟩ := mem_handleReports here
        exact ⟨report, id, node, made⟩
      · obtain ⟨report, -, id, made⟩ := mem_handleReports there
        exact ⟨report, id, node.other, made⟩
    refine ⟨fun inside => ?_, handleAlert_cases state.alerts now id whose name report⟩
    obtain ⟨left, remains, eq⟩ := mem_map.mp inside
    have elsewhere := of_decide_eq_true (mem_filter.mp remains).2
    exact elsewhere (congrArg Ident.source eq)
  · exact Nat.le_trans (Nat.le_add_right _ _) (Nat.le_add_right _ _)

theorem oneshotCreate_renewed [DecidableEq Args] (distinct : Distinct state)
    (report : Report Args) :
    let alert := handleAlert state.alerts now state.fresh state.fresh node "" report
    Renewed state (state.alerts.filter fun other => decide (other.uuid ≠ alert.uuid)) [alert]
      (oneshotCreate state node report now).fresh := by
  intro alert
  have cases := handleAlert_cases state.alerts now state.fresh node "" report
  refine ⟨filter_sublist, nodup_singleton _, nodup_singleton _, ?_, ?_, Nat.le_succ _⟩
  · intro other mem
    obtain rfl := mem_singleton.mp mem
    exact ⟨Nat.le_refl _, Nat.lt_succ_self _⟩
  · intro other mem
    obtain rfl := mem_singleton.mp mem
    refine ⟨fun inside => ?_, cases⟩
    obtain ⟨left, remains, eq⟩ := mem_map.mp inside
    obtain ⟨there, differs⟩ := mem_filter.mp remains
    rcases cases with ⟨old, was, ident, keeps⟩ | ⟨absent, -⟩
    · obtain rfl := eq_of_ident distinct.idents was there (ident.trans eq.symm)
      exact of_decide_eq_true differs keeps.1.symm
    · exact absent (mem_map.mpr ⟨left, there, eq⟩)

theorem Action.renewed [DecidableEq Args] (distinct : Distinct state) (action : Action Args) :
    ∃ left made, Renewed state left made (action.apply state).fresh ∧
      (action.apply state).alerts = left ++ made := by
  cases action with
  | runSource name node this other now =>
    exact ⟨_, _, runSource_renewed name node this other now, rfl⟩
  | oneshotCreate node report now =>
    exact ⟨_, _, oneshotCreate_renewed node now distinct report, rfl⟩

theorem runActions_distinct [DecidableEq Args] (distinct : Distinct state)
    (actions : List (Action Args)) : Distinct (runActions state actions) := by
  induction actions generalizing state with
  | nil => exact distinct
  | cons action actions ih =>
    obtain ⟨left, made, renewed, alerts⟩ := action.renewed distinct
    exact ih (renewed.distinct distinct alerts)

theorem mem_idents_runSource {ident : Ident} (own : ident.source = name) :
    ident ∈ State.idents (runSource state name node this other now).alerts ↔
      ident ∈ (uniqueKeys this).map (Report.ident node name) ∨
        ident ∈ (uniqueKeys other).map (Report.ident node.other name) := by
  have alerts : (runSource state name node this other now).alerts =
      state.alerts.filter (fun alert => decide (alert.source ≠ name)) ++
        sourceAlerts name node this other now state := rfl
  rw [alerts, State.idents, map_append, ← State.idents, ← State.idents, mem_append,
    idents_sourceAlerts, mem_append]
  refine or_iff_right fun mem => ?_
  obtain ⟨left, remains, eq⟩ := mem_map.mp mem
  have elsewhere := of_decide_eq_true (mem_filter.mp remains).2
  exact elsewhere ((congrArg Ident.source eq).trans own)

theorem represented_iff (distinct : Distinct state) :
    (Represented (runSource state name node this other now).alerts node name this ↔ OneClass this) ∧
      (Represented (runSource state name node this other now).alerts node.other name other ↔
        OneClass other) := by
  have after : Distinct (runSource state name node this other now) :=
    (runSource_renewed name node this other now).distinct distinct rfl
  have once : ∀ ident, (State.idents (runSource state name node this other now).alerts).count
      ident = 1 ↔ ident ∈ State.idents (runSource state name node this other now).alerts := by
    intro ident
    rw [after.idents.count]
    simp
  constructor
  · rw [← idents_uniqueKeys_iff node name this]
    refine forall₂_congr fun report _ => ?_
    rw [once, mem_idents_runSource name node this other now rfl]
    refine or_iff_left fun mem => ?_
    obtain ⟨report', -, eq⟩ := mem_map.mp mem
    exact other_ident_ne name node report report' eq.symm
  · rw [← idents_uniqueKeys_iff node.other name other]
    refine forall₂_congr fun report _ => ?_
    rw [once, mem_idents_runSource name node this other now rfl]
    refine or_iff_right fun mem => ?_
    obtain ⟨report', -, eq⟩ := mem_map.mp mem
    exact other_ident_ne name node report' report eq

/-- From a list with distinct uuids and idents, after any actions: both are distinct, a run of a
source represents all that was reported exactly if no key was reported with two classes, and an
alert that stays through an action keeps its uuid, its time and its mark. -/
theorem alert_identity [DecidableEq Args] (state : {state : State Args // Distinct state})
    (actions : List (Action Args)) :
    Distinct (runActions state.1 actions) ∧ (∀ name node this other now,
        (Represented (runSource (runActions state.1 actions) name node this other now).alerts node
            name this ∧
          Represented (runSource (runActions state.1 actions) name node this other now).alerts
            node.other name other) ↔ OneClass this ∧ OneClass other) ∧
      ∀ (action : Action Args), ∀ before ∈ (runActions state.1 actions).alerts,
        ∀ after ∈ (action.apply (runActions state.1 actions)).alerts, before.ident = after.ident →
          before.Keeps after := by
  have reached := runActions_distinct state.2 actions
  refine ⟨reached, fun name node this other now => ?_, fun action before was after stays same => ?_⟩
  · obtain ⟨left, right⟩ := represented_iff name node this other now reached
    exact and_congr left right
  · obtain ⟨left, made, renewed, alerts⟩ := action.renewed reached
    exact renewed.keeps reached alerts was stays same

end Actions

def tempReport : Report Unit :=
  { inst := ⟨{ name := "Temperature", hasArgs := false }, none, fun _ => rfl⟩, key := "sda" }

theorem distinct_start : Distinct ({} : State Unit) :=
  ⟨nodup_nil, nodup_nil, fun _ mem => by cases mem⟩

theorem second_class_lost :
    ¬ Represented (runSource ({} : State Unit) "SMART" .a [smartReport, tempReport] [] 1).alerts .a
      "SMART" [smartReport, tempReport] := by
  intro represented
  have oneClass := (represented_iff "SMART" .a [smartReport, tempReport] [] 1
    distinct_start).1.mp represented
  exact absurd (oneClass smartReport (by decide) tempReport (by decide) rfl) (by decide)

end TruenasMiddleware.Alerts
