import TruenasMiddleware.Alerts.Model
import Mathlib.Data.List.Induction

/-! Dismissals stay. A dismissed alert stays dismissed, and a deleted one away, as long as no
list from before the dismissal comes back: neither the copy that `process_alerts` took, nor a
check that still reports a deleted alert, nor the old objects that a suspended dismissal holds. -/

namespace TruenasMiddleware.Alerts

open Transition List State

variable {Args : Type}

/-- The alert list honours the dismissals `returned`, of which `deleted` have no alert. -/
structure Kept (alerts : List (Alert Args)) (returned deleted : List Ident) : Prop where
  unique : (idents alerts).Nodup
  marked : ∀ ident ∈ returned, ∀ alert ∈ alerts, alert.ident = ident → alert.dismissed = true
  present : ∀ ident ∈ returned, ident ∈ deleted ∨ ident ∈ idents alerts

structure Inv (state : State Args) : Prop where
  kept : Kept state.alerts state.returned state.deleted
  /-- The copy that a running `process_alerts` may put back. -/
  unique : ∀ process, state.process = some process → (idents process.valid).Nodup
  valid : ∀ process, state.process = some process → state.touched = false →
    Kept process.valid state.returned state.deleted

section Lists

variable {alerts : List (Alert Args)} {returned deleted fewer : List Ident}
  (kept : Kept alerts returned deleted)
include kept

theorem Kept.subset (sub : fewer ⊆ returned) : Kept alerts fewer deleted :=
  ⟨kept.unique, fun ident inside => kept.marked ident (sub inside),
    fun ident inside => kept.present ident (sub inside)⟩

theorem Kept.filter (keeps : Ident → Bool) :
    Kept alerts (returned.filter keeps) (deleted.filter keeps) where
  unique := kept.unique
  marked := fun ident mem => kept.marked ident (List.mem_of_mem_filter mem)
  present := by
    intro ident mem
    obtain ⟨mem, keep⟩ := mem_filter.mp mem
    refine (kept.present ident mem).imp_left ?_
    exact fun gone => mem_filter.mpr ⟨gone, keep⟩

theorem Kept.map {change : Alert Args → Alert Args}
    (ident : ∀ alert, (change alert).ident = alert.ident)
    (dismissed : ∀ alert, alert.dismissed → (change alert).dismissed) :
    Kept (alerts.map change) returned deleted := by
  have eq : idents (alerts.map change) = idents alerts := by
    rw [idents, map_map, idents]
    exact map_congr_left fun alert _ => ident alert
  refine ⟨eq ▸ kept.unique, ?_, fun i inside => eq ▸ kept.present i inside⟩
  intro i inside alert there equal
  obtain ⟨before, mem, rfl⟩ := mem_map.mp there
  exact dismissed before (kept.marked i inside before mem ((ident before).symm.trans equal))

omit kept in
theorem eq_of_ident (unique : (idents alerts).Nodup) {first second : Alert Args}
    (left : first ∈ alerts) (right : second ∈ alerts) (eq : first.ident = second.ident) :
    first = second :=
  inj_on_of_nodup_map unique left right eq

theorem Kept.mark {alert : Alert Args} (mem : alert ∈ alerts) :
    Kept (alerts.map (setDismissed alert.ref true)) (alert.ident :: returned) deleted := by
  have ident : ∀ other : Alert Args, (setDismissed alert.ref true other).ident = other.ident := by
    intro other
    unfold setDismissed
    split <;> rfl
  have stays : ∀ other : Alert Args, other.dismissed →
      (setDismissed alert.ref true other).dismissed := by
    intro other dismissed
    unfold setDismissed
    split <;> [rfl; exact dismissed]
  have before := kept.map ident stays
  refine ⟨before.unique, ?_, ?_⟩
  · intro i inside other there equal
    rcases mem_cons.mp inside with rfl | old
    · obtain ⟨original, here, rfl⟩ := mem_map.mp there
      have eq := eq_of_ident kept.unique here mem ((ident original).symm.trans equal)
      rw [eq, setDismissed, if_pos rfl]
    · exact before.marked i old other there equal
  · intro i inside
    rcases mem_cons.mp inside with rfl | old
    · refine .inr (mem_map.mpr ⟨setDismissed alert.ref true alert, ?_, ident alert⟩)
      exact mem_map_of_mem mem
    · exact before.present i old

end Lists

section Remove

variable [DecidableEq Args] {alerts : List (Alert Args)} {gone : List (Alert Args)}
  {first second alert : Alert Args}

theorem Alert.ident_of_same (same : first.same second) :
    first.ident = second.ident := by
  have equal : first = { second with ref := first.ref } := of_decide_eq_true same
  rw [equal]
  rfl

theorem removeAll_sublist (alerts gone : List (Alert Args)) :
    (removeAll alerts gone).Sublist alerts := by
  induction gone generalizing alerts with
  | nil => exact List.Sublist.refl alerts
  | cons first rest ih => exact (ih _).trans eraseP_sublist

theorem mem_removeAll (mem : alert ∈ alerts)
    (kept : alert.ident ∉ idents gone) : alert ∈ removeAll alerts gone := by
  induction gone generalizing alerts with
  | nil => exact mem
  | cons first rest ih =>
    rw [idents, map_cons, mem_cons, not_or, ← idents] at kept
    refine ih (mem_eraseP_of_neg ?_ |>.mpr mem) kept.2
    exact fun eq => kept.1 (Alert.ident_of_same eq).symm

theorem ident_not_mem_erase (unique : (idents alerts).Nodup)
    (met : (∃ other ∈ alerts, alert.same other) ∨ alert.ident ∉ idents alerts) :
    alert.ident ∉ idents (alerts.eraseP alert.same) := by
  rcases met with ⟨other, mem, same⟩ | absent
  · obtain ⟨first, before, after, -, hit, split, erased⟩ := exists_of_eraseP mem same
    rw [split, idents, map_append, map_cons, nodup_middle, nodup_cons, ← map_append] at unique
    rw [erased, Alert.ident_of_same hit]
    exact unique.1
  · exact fun inside => absent ((eraseP_sublist.map Alert.ident).subset inside)

theorem ident_not_mem_removeAll (unique : (idents alerts).Nodup)
    (met : ∀ alert ∈ gone, (∃ other ∈ alerts, alert.same other) ∨ alert.ident ∉ idents alerts) :
    ∀ alert ∈ gone, alert.ident ∉ idents (removeAll alerts gone) := by
  induction gone generalizing alerts with
  | nil =>
    intro alert inside
    cases inside
  | cons first rest ih =>
    have away := ident_not_mem_erase unique (met first mem_cons_self)
    have fewer := (removeAll_sublist (alerts.eraseP first.same) rest).map Alert.ident
    intro alert inside
    rcases mem_cons.mp inside with rfl | later
    · exact fun back => away (fewer.subset back)
    · refine ih (unique.sublist (eraseP_sublist.map Alert.ident)) ?_ alert later
      intro alert inside
      -- what the first removal took away of the others' targets is away
      rcases met alert (mem_cons_of_mem first inside) with ⟨other, mem, same⟩ | absent
      · by_cases taken : first.same other
        · right
          rwa [Alert.ident_of_same same, ← Alert.ident_of_same taken]
        · exact .inl ⟨other, (mem_eraseP_of_neg taken).mpr mem, same⟩
      · exact .inr fun back => absent ((eraseP_sublist.map Alert.ident).subset back)

theorem Kept.remove {returned deleted : List Ident} (kept : Kept alerts returned deleted)
    (met : ∀ alert ∈ gone, (∃ other ∈ alerts, alert.same other) ∨ alert.ident ∉ idents alerts)
    {ident : Ident} (dismissed : ident ∈ idents gone) :
    Kept (removeAll alerts gone) (ident :: returned) (idents gone ++ deleted) := by
  have fewer := removeAll_sublist alerts gone
  have away := ident_not_mem_removeAll kept.unique met
  refine ⟨kept.unique.sublist (fewer.map Alert.ident), ?_, ?_⟩
  · intro i inside alert there equal
    rcases mem_cons.mp inside with rfl | old
    · obtain ⟨deleted, mem, same⟩ := mem_map.mp dismissed
      refine absurd ?_ (away deleted mem)
      rw [same, ← equal]
      exact mem_map_of_mem there
    · exact kept.marked i old alert (fewer.subset there) equal
  · intro i inside
    rcases mem_cons.mp inside with rfl | old
    · exact .inl (mem_append_left _ dismissed)
    · rcases kept.present i old with gone' | present
      · exact .inl (mem_append_right _ gone')
      · by_cases taken : i ∈ idents gone
        · exact .inl (mem_append_left _ taken)
        · obtain ⟨alert, mem, rfl⟩ := mem_map.mp present
          exact .inr (mem_map_of_mem (mem_removeAll mem taken))

end Remove

variable {returned deleted : List Ident} {alerts reported after : List (Alert Args)}

theorem Kept.replace {name : String} (kept : Kept alerts returned deleted)
    (unique : (idents reported).Nodup) (own : ∀ alert ∈ reported, alert.source = name)
    (honours : ∀ alert ∈ reported, alert.ident ∈ returned → alert.dismissed = true)
    (keeps : Ident → Bool)
    (stays : ∀ ident, keeps ident → ident.source ≠ name ∨ ident ∈ idents reported) :
    Kept (alerts.filter (fun alert => decide (alert.source ≠ name)) ++ reported)
      (returned.filter keeps) (deleted.filter keeps) where
  unique := by
    refine Dict.nodup_map_append.mpr ⟨kept.unique.sublist (filter_sublist.map _), unique, ?_⟩
    intro alert mem report there eq
    have foreign := of_decide_eq_true (mem_filter.mp mem).2
    have source : alert.source = report.source := congrArg Ident.source eq
    exact foreign (source.trans (own report there))
  marked := by
    intro ident inside alert there equal
    have old := mem_of_mem_filter inside
    rcases mem_append.mp there with other | report
    · exact kept.marked ident old alert (mem_of_mem_filter other) equal
    · exact honours alert report (equal ▸ old)
  present := by
    intro ident inside
    obtain ⟨old, keep⟩ := mem_filter.mp inside
    rcases kept.present ident old with gone | present
    · exact .inl (mem_filter.mpr ⟨gone, keep⟩)
    · right
      rw [idents, map_append]
      rcases stays ident keep with foreign | reported
      · obtain ⟨alert, mem, rfl⟩ := mem_map.mp present
        refine mem_append_left _ (mem_map_of_mem (mem_filter.mpr ⟨mem, ?_⟩))
        exact decide_eq_true foreign
      · exact mem_append_right _ reported

theorem Kept.forget (kept : Kept alerts returned deleted) (unique : (idents after).Nodup)
    (honours : ∀ alert ∈ after, alert.ident ∈ returned → alert.dismissed = true) :
    Kept after (returned.filter fun ident =>
        !(decide (ident ∈ idents alerts) && decide (ident ∉ idents after))) deleted where
  unique := unique
  marked := fun ident mem alert there equal =>
    honours alert there (equal ▸ List.mem_of_mem_filter mem)
  present := by
    intro ident mem
    obtain ⟨old, keep⟩ := mem_filter.mp mem
    refine (kept.present ident old).imp_right fun present => ?_
    simpa [present] using keep

theorem nodup_keys_uniqueKeys (reports : List (Report Args)) :
    ((uniqueKeys reports).map Report.key).Nodup ∧ uniqueKeys reports ⊆ reports := by
  induction reports using reverseRecOn with
  | nil => exact ⟨nodup_nil, List.Subset.refl _⟩
  | append_singleton before last ih =>
    rw [uniqueKeys, foldl_append, foldl_cons, foldl_nil, ← uniqueKeys]
    have earlier := List.Subset.trans ih.2 (subset_append_left before [last])
    split
    · exact ⟨ih.1, earlier⟩
    · rename_i fresh
      constructor
      · refine Dict.nodup_map_append.mpr ⟨ih.1, nodup_singleton _, fun report mem => ?_⟩
        refine forall_mem_singleton.mpr fun eq => fresh ?_
        exact any_eq_true.mpr ⟨report, mem, decide_eq_true eq⟩
      · refine append_subset.mpr ⟨earlier, ?_⟩
        exact subset_append_right before [last]

section Reports

variable {alerts : List (Alert Args)} {now fresh : Nat} {node : Node} {source : String}
  {reports : List (Report Args)}

theorem mem_handleReports {alert : Alert Args}
    (inside : alert ∈ handleReports alerts now fresh node source reports) :
    ∃ report ∈ reports, ∃ id, alert = handleAlert alerts now id id node source report := by
  obtain ⟨⟨report, i⟩, mem, rfl⟩ := mem_map.mp inside
  exact ⟨report, fst_mem_of_mem_zipIdx mem, fresh + i, rfl⟩

theorem idents_handleReports : idents (handleReports alerts now fresh node source reports) =
      reports.map (Report.ident node source) := by
  rw [idents, handleReports, map_map]
  have shape : (Alert.ident ∘ fun pair : Report Args × Nat =>
      handleAlert alerts now (fresh + pair.2) (fresh + pair.2) node source pair.1) =
        Report.ident node source ∘ Prod.fst := rfl
  rw [shape, ← map_map, zipIdx_map_fst]

theorem Kept.honours {returned deleted : List Ident} (kept : Kept alerts returned deleted)
    {report : Report Args} (id : Nat) (again : report.ident node source ∈ returned)
    (listed : report.ident node source ∉ deleted) :
    (handleAlert alerts now id id node source report).dismissed = true := by
  rw [handleAlert]
  dsimp only
  cases found : alerts.find? fun alert => decide (alert.ident = report.ident node source) with
  | none =>
    have present := (kept.present _ again).resolve_left listed
    obtain ⟨alert, mem, eq⟩ := mem_map.mp present
    have other := List.find?_eq_none.mp found alert mem
    exact absurd (decide_eq_true eq) other
  | some existing =>
    have eq : existing.ident = report.ident node source := by
      simpa using List.find?_some found
    exact kept.marked _ again existing (mem_of_find?_eq_some found) eq

end Reports

section Step

variable {state next : State Args}
  {alert : Alert Args} {after alerts : List (Alert Args)} {returned deleted : List Ident}
  (inv : Inv state)
include inv

theorem Inv.record {gone : List (Alert Args)}
    (kept : Kept after (alert.ident :: state.returned) (idents gone ++ state.deleted))
    (eq : next.process = state.process) (alerts : next.alerts = after)
    (returned : next.returned = state.returned) (deleted : next.deleted = state.deleted) :
    Inv (record next alert gone) where
  kept := by
    rw [Alerts.record]
    simpa only [alerts, returned, deleted] using kept
  unique := fun process running => inv.unique process (eq ▸ running)
  valid := by
    intro process running untouched
    have running : next.process = some process := running
    simp [Alerts.record, running] at untouched

theorem Inv.replaceSource (name : String) (reported : List (Alert Args))
    (unique : (idents reported).Nodup) (own : ∀ alert ∈ reported, alert.source = name)
    (honours : ∀ alert ∈ reported, alert.ident ∈ state.returned → alert.dismissed = true) :
    Inv (replaceSource state name reported) where
  kept := by
    refine inv.kept.replace unique own honours _ ?_
    intro ident keep
    simpa using keep
  unique := inv.unique
  valid := fun process running untouched => (inv.valid process running untouched).filter _

theorem Inv.mutate {change : Alert Args → Alert Args}
    (ident : ∀ alert, (change alert).ident = alert.ident)
    (dismissed : ∀ alert, alert.dismissed → (change alert).dismissed) :
    Inv (state.mutate change) :=
  ⟨inv.kept.map ident dismissed, inv.unique, inv.valid⟩

theorem Inv.runBlockedSource (name : String) (node : Node) (now : Nat) :
    Inv (runBlockedSource state name node now) := by
  have ident : ∀ refs (alert : Alert Args), (seenAgain refs now alert).ident = alert.ident := by
    intro refs alert
    unfold seenAgain
    split <;> rfl
  have dismissed : ∀ refs (alert : Alert Args), alert.dismissed →
      (seenAgain refs now alert).dismissed := by
    intro refs alert marked
    unfold seenAgain
    split <;> exact marked
  have seen := inv.mutate (ident _) (dismissed ((state.alerts.filter fun alert =>
    decide (alert.source = name)).map Alert.ref))
  refine seen.replaceSource name _ ?_ ?_ ?_
  · refine Dict.nodup_map_append.mpr ⟨seen.kept.unique.sublist (filter_sublist.map _),
      seen.kept.unique.sublist (filter_sublist.map _), ?_⟩
    intro alert here other there eq
    have nodes : alert.node = other.node := congrArg Ident.node eq
    simp only [mem_filter, Bool.and_eq_true, decide_eq_true_eq] at here there
    have flipped : node.other = node := (there.2.2.symm.trans nodes.symm).trans here.2.2
    cases node <;> cases flipped
  · intro alert inside
    rcases mem_append.mp inside with mem | mem
    all_goals
      have kept := (mem_filter.mp mem).2
      simp only [Bool.and_eq_true, decide_eq_true_eq] at kept
      exact kept.1
  · intro alert inside again
    have mem := (mem_append.mp inside).elim mem_of_mem_filter mem_of_mem_filter
    exact seen.kept.marked _ again alert mem rfl

theorem Inv.forget (fewer : after.Sublist state.alerts)
    (alerts : next.alerts = after) (process : next.process = state.process)
    (touched : next.touched = state.touched) (returned : next.returned = state.returned)
    (deleted : next.deleted = state.deleted) : Inv (forget next state.alerts) where
  kept := by
    have unique := inv.kept.unique.sublist (fewer.map Alert.ident)
    have honours : ∀ alert ∈ after, alert.ident ∈ state.returned → alert.dismissed = true :=
      fun alert mem again => inv.kept.marked _ again alert (fewer.subset mem) rfl
    rw [Alerts.forget]
    simpa only [alerts, returned, deleted] using inv.kept.forget unique honours
  unique := fun valid running => inv.unique valid (process ▸ running)
  valid := by
    intro valid running untouched
    have before := inv.valid valid (process ▸ running) (touched ▸ untouched)
    rw [← returned, ← deleted] at before
    exact before.subset (filter_subset_self _)

theorem Inv.expire (now : Nat) : Inv (expire state now) :=
  inv.forget List.filter_sublist rfl rfl rfl rfl rfl

omit inv in
theorem Kept.create (kept : Kept alerts returned deleted)
    (replaces : ∀ other ∈ alerts, other.ident = alert.ident → other.uuid = alert.uuid)
    (honours : alert.ident ∈ returned → alert.ident ∉ deleted → alert.dismissed = true) :
    Kept (alerts.filter (fun other => decide (other.uuid ≠ alert.uuid)) ++ [alert])
      ((returned.filter fun ident => !(decide (ident ∈ idents alerts) && decide (ident ∉ idents
            (alerts.filter (fun other => decide (other.uuid ≠ alert.uuid)) ++ [alert])))).filter
        fun ident => decide (ident ≠ alert.ident) || decide (ident ∉ deleted))
      (deleted.filter (· ≠ alert.ident)) := by
  have unique : (idents
      (alerts.filter (fun other => decide (other.uuid ≠ alert.uuid)) ++ [alert])).Nodup := by
    refine Dict.nodup_map_append.mpr
      ⟨kept.unique.sublist (filter_sublist.map _), nodup_singleton _, fun other mem => ?_⟩
    obtain ⟨mem, differs⟩ := mem_filter.mp mem
    exact forall_mem_singleton.mpr fun eq => of_decide_eq_true differs (replaces other mem eq)
  have narrowed := (kept.subset (filter_subset_self (p := fun ident =>
    decide (ident ≠ alert.ident) || decide (ident ∉ deleted)) returned)).forget unique (by
      intro other inside again
      obtain ⟨again, keep⟩ := mem_filter.mp again
      rcases mem_append.mp inside with old | new
      · exact kept.marked _ again other (mem_of_mem_filter old) rfl
      · rw [mem_singleton.mp new] at again keep ⊢
        exact honours again (by simpa using keep))
  rw [filter_filter] at narrowed ⊢
  simp only [Bool.and_comm (decide _ || decide _)]
  refine ⟨narrowed.unique, narrowed.marked, ?_⟩
  intro ident inside
  refine (narrowed.present ident inside).imp_left fun gone => ?_
  have keep := (mem_filter.mp inside).2
  simp only [Bool.and_eq_true, Bool.or_eq_true, decide_eq_true_eq] at keep
  exact mem_filter.mpr ⟨gone, decide_eq_true (keep.2.resolve_right (not_not.mpr gone))⟩

theorem Inv.oneshotCreate (idle : state.process = none) (node : Node)
    (report : Report Args) (now : Nat) : Inv (oneshotCreate state node report now) where
  kept := by
    refine inv.kept.create ?_ (inv.kept.honours state.fresh)
    intro other mem eq
    have eq : other.ident = report.ident node "" := eq
    cases found : state.alerts.find? fun alert => decide (alert.ident = report.ident node "") with
    | none => exact absurd (decide_eq_true eq) (List.find?_eq_none.mp found other mem)
    | some existing =>
      have first : existing.ident = report.ident node "" := by simpa using List.find?_some found
      have equal := eq_of_ident inv.kept.unique mem (mem_of_find?_eq_some found)
        (eq.trans first.symm)
      rw [equal, handleAlert, found]
      rfl
  unique := fun _ running => by cases idle.symm.trans running
  valid := fun _ running => by cases idle.symm.trans running

omit inv

theorem Kept.deepcopy (kept : Kept alerts returned deleted) (fresh : Nat) :
    Kept (deepcopy fresh alerts) returned deleted := by
  have eq : idents (Alerts.deepcopy fresh alerts) = idents alerts := by
    have shape : (Alert.ident ∘ fun pair : Alert Args × Nat =>
        { pair.1 with ref := fresh + pair.2 }) = Alert.ident ∘ Prod.fst := rfl
    rw [idents, Alerts.deepcopy, map_map, shape, ← map_map, zipIdx_map_fst, idents]
  refine ⟨eq ▸ kept.unique, ?_, fun ident inside => eq ▸ kept.present ident inside⟩
  intro ident inside alert there equal
  obtain ⟨⟨original, i⟩, mem, rfl⟩ := mem_map.mp there
  exact kept.marked ident inside original (fst_mem_of_mem_zipIdx mem) equal

theorem inv_start : Inv ({} : State Args) :=
  ⟨⟨List.nodup_nil, nofun, nofun⟩, nofun, nofun⟩

variable [DecidableEq Args]

/-- When a step cannot bring back what a dismissal took away.
* A check does not report an alert that a dismissal deleted.
* The copy is put back only when nothing was dismissed since it was taken.
* The class of a suspended dismissal gives up the dismissed alert, and the objects to be removed
  are still in the list, or their alerts no longer are. -/
def Undisturbed (state : State Args) : Label Args → Prop
  | .runSource name node this other _ =>
    (∀ report ∈ this, report.ident node name ∉ state.deleted) ∧
      ∀ report ∈ other, report.ident node.other name ∉ state.deleted
  | .restoreValid => state.touched = false
  | .dismissReturn i left =>
    ∀ dismissal ∈ state.dismissals[i]?, dismissal.alert.ident ∈ idents (dismissal.gone left) ∧
      ∀ alert ∈ dismissal.gone left,
        (∃ other ∈ state.alerts, alert.same other) ∨ alert.ident ∉ idents state.alerts
  | _ => True

instance (state : State Args) (label : Label Args) : Decidable (Undisturbed state label) := by
  cases label <;> unfold Undisturbed <;> infer_instance

variable (inv : Inv state)
include inv

theorem Inv.dismiss (uuid : Nat) : Inv (dismiss state uuid) := by
  rw [Alerts.dismiss]
  cases found : state.alerts.find? fun alert => decide (alert.uuid = uuid) with
  | none => exact inv
  | some alert =>
    have mem := mem_of_find?_eq_some found
    dsimp only
    split
    · exact { inv with }
    · split
      · refine inv.record (inv.kept.remove ?_ (mem_singleton_self _)) rfl rfl rfl rfl
        intro other single
        rw [mem_singleton.mp single]
        exact .inl ⟨alert, mem, decide_eq_true rfl⟩
      · exact inv.record (inv.kept.mark mem) rfl rfl rfl rfl

theorem Inv.dismissReturn {dismissal : Dismissal Args} {left : List Nat}
    (given : dismissal.alert.ident ∈ idents (dismissal.gone left))
    (met : ∀ alert ∈ dismissal.gone left,
      (∃ other ∈ state.alerts, alert.same other) ∨ alert.ident ∉ idents state.alerts) :
    Inv (dismissReturn state dismissal left) :=
  inv.record (inv.kept.remove met given) rfl rfl rfl rfl

theorem Inv.runSource {name : String} {node : Node} {this other : List (Report Args)} {now : Nat}
    (undisturbed : Undisturbed state (.runSource name node this other now)) :
    Inv (runSource state name node this other now) := by
  obtain ⟨uniqueThis, someThis⟩ := nodup_keys_uniqueKeys this
  obtain ⟨uniqueOther, someOther⟩ := nodup_keys_uniqueKeys other
  have distinct : ∀ {node : Node} {reports : List (Report Args)},
      (reports.map Report.key).Nodup → (reports.map (Report.ident node name)).Nodup := by
    intro node reports nodup
    refine List.Nodup.of_map Ident.key ?_
    rwa [map_map]
  have replaced := inv.replaceSource name
    (handleReports state.alerts now state.fresh node name (uniqueKeys this) ++
      handleReports state.alerts now (state.fresh + (uniqueKeys this).length) node.other name
        (uniqueKeys other)) ?_ ?_ ?_
  · exact { replaced with }
  · rw [idents, map_append, ← idents, ← idents, idents_handleReports, idents_handleReports]
    refine nodup_append.mpr ⟨distinct uniqueThis, distinct uniqueOther, ?_⟩
    rintro _ first _ second rfl
    obtain ⟨report, -, rfl⟩ := mem_map.mp first
    obtain ⟨report', -, eq⟩ := mem_map.mp second
    have nodes : node.other = node := congrArg Ident.node eq
    cases node <;> cases nodes
  · intro alert inside
    rcases mem_append.mp inside with mem | mem
    all_goals
      obtain ⟨report, -, id, rfl⟩ := mem_handleReports mem
      rfl
  · intro alert inside again
    rcases mem_append.mp inside with here | there
    · obtain ⟨report, mem, id, rfl⟩ := mem_handleReports here
      exact inv.kept.honours id again (undisturbed.1 report (someThis mem))
    · obtain ⟨report, mem, id, rfl⟩ := mem_handleReports there
      exact inv.kept.honours id again (undisturbed.2 report (someOther mem))

theorem Inv.oneshotDelete (node : Node) (klass : String) (left : List Nat) :
    Inv (oneshotDelete state node klass left) :=
  inv.forget (removeAll_sublist _ _) rfl rfl rfl rfl rfl

theorem Inv.step {label : Label Args} (undisturbed : Undisturbed state label)
    (taken : step state label = some next) : Inv next := by
  cases step_cases taken with
  | dismiss uuid => exact inv.dismiss uuid
  | dismissReturn left found =>
    obtain ⟨given, met⟩ := undisturbed _ found
    have returned := inv.dismissReturn given met
    exact { returned with }
  | processStart =>
    have copied := inv.kept.deepcopy state.fresh
    refine ⟨inv.kept, ?_, ?_⟩
    · rintro _ ⟨⟩
      exact copied.unique
    · rintro _ ⟨⟩ _
      exact copied
  | runSource => exact inv.runSource undisturbed
  | runBlockedSource name node now => exact inv.runBlockedSource name node now
  | expire now running =>
    have expired := inv.expire now
    refine ⟨expired.kept, ?_, ?_⟩
    · rintro _ ⟨⟩
      exact expired.unique ⟨_, false⟩ running
    · rintro _ ⟨⟩ untouched
      exact expired.valid ⟨_, false⟩ running untouched
  | restoreValid running => exact ⟨inv.valid _ running undisturbed, nofun, nofun⟩
  | processFinish | processRaise => exact ⟨inv.kept, nofun, nofun⟩
  | oneshotCreate node report now idle => exact inv.oneshotCreate idle node report now
  | oneshotDelete node klass left =>
    have fewer := inv.oneshotDelete node klass left
    exact { fewer with }
  | flushRefused => exact inv
  | oneshotDeleted | oneshotFlush | flushStart | flushStep | flushEnd => exact { inv with }

omit inv

/-- Once its dismissal has taken place, an alert that keeps being reported is dismissed whenever
it is in the list. -/
theorem dismissals_stay (reached : Reach step Undisturbed ({} : State Args) state) :
    ∀ ident ∈ state.returned, ∀ alert ∈ state.alerts, alert.ident = ident →
      alert.dismissed = true := by
  have inv := reached.invariant inv_start fun _ _ _ inv undisturbed stepped =>
    inv.step undisturbed stepped
  exact inv.kept.marked

end Step

def smartReport : Report Unit :=
  { inst := ⟨{ name := "SMART", hasArgs := false }, none, fun _ => rfl⟩, key := "sda" }

def smartIdent : Ident := ⟨.a, "SMART", "SMART", "sda"⟩

def smartReported : List (Label Unit) :=
  [.processStart, .runSource "SMART" .a [smartReport] [] 1, .expire 1, .processFinish]

theorem dismissals_stay_reported_again :
    ∃ state : State Unit, Reach step Undisturbed {} state ∧ state.returned = [smartIdent] ∧
      state.alerts.map Alert.dismissed = [true] ∧
      ∀ alert ∈ state.alerts, alert.ident = smartIdent → alert.dismissed = true := by
  refine exists_reach_of_run (P := fun state => state.returned = [smartIdent] ∧
      state.alerts.map Alert.dismissed = [true]) (smartReported ++ [.dismiss 0] ++ smartReported)
    (by decide) fun state reached ⟨returned, marks⟩ => ⟨returned, marks, ?_⟩
  exact dismissals_stay reached smartIdent (returned ▸ mem_singleton_self _)

/-- A dismissal while `process_alerts` runs is undone when the copy of the list is put back. -/
theorem dismissal_undone :
    ∃ state : State Unit, Reach step Always {} state ∧ state.returned = [smartIdent] ∧
      ∃ alert ∈ state.alerts, alert.ident = smartIdent ∧ alert.dismissed = false := by
  apply exists_reach_of_exec (smartReported ++ [.processStart, .dismiss 0,
    .runSource "SMART" .a [smartReport] [] 2, .expire 2, .restoreValid])
  decide

end TruenasMiddleware.Alerts
