import TruenasMiddleware.Alerts.Model
import Mathlib.Data.List.Induction

/-! What the alert services are told: `receive_alerts` and `delete_alert` of `AlertPolicy`, and the
pairs that `send_alerts` cancels. -/

namespace TruenasMiddleware.Alerts

open List

variable {Args Time κ : Type} [DecidableEq κ]

def uuids (alerts : List (Alert Args)) : List Nat := alerts.map Alert.uuid

def putAlert (byUuid : List (Alert Args)) (alert : Alert Args) : List (Alert Args) :=
  if alert.uuid ∈ uuids byUuid then
    byUuid.map fun other => if other.uuid = alert.uuid then alert else other
  else byUuid ++ [alert]

def alertsByUuid (alerts : List (Alert Args)) : List (Alert Args) := alerts.foldl putAlert []

theorem uuids_putAlert (byUuid : List (Alert Args)) (alert : Alert Args) :
    uuids (putAlert byUuid alert) =
      if alert.uuid ∈ uuids byUuid then uuids byUuid else uuids byUuid ++ [alert.uuid] := by
  rw [putAlert]
  split_ifs
  · rw [uuids, uuids, map_map]
    refine map_congr_left fun other _ => ?_
    by_cases equal : other.uuid = alert.uuid <;> simp [equal]
  · rw [uuids, map_append]
    rfl

theorem nodup_alertsByUuid (alerts : List (Alert Args)) : (uuids (alertsByUuid alerts)).Nodup := by
  induction alerts using reverseRecOn with
  | nil => exact nodup_nil
  | append_singleton alerts alert ih =>
    rw [alertsByUuid, foldl_append, foldl_cons, foldl_nil, ← alertsByUuid, uuids_putAlert]
    split_ifs with known
    · exact ih
    · exact nodup_append.mpr ⟨ih, nodup_singleton _, fun uuid mem other eq clash =>
        known (mem_singleton.mp eq ▸ clash ▸ mem)⟩

theorem mem_uuids_alertsByUuid {alerts : List (Alert Args)} {uuid : Nat} :
    uuid ∈ uuids (alertsByUuid alerts) ↔ uuid ∈ uuids alerts := by
  induction alerts using reverseRecOn generalizing uuid with
  | nil => rfl
  | append_singleton alerts alert ih =>
    have joined : uuids (alerts ++ [alert]) = uuids alerts ++ [alert.uuid] := map_append ..
    rw [alertsByUuid, foldl_append, foldl_cons, foldl_nil, ← alertsByUuid, uuids_putAlert, joined,
      mem_append, mem_singleton]
    split_ifs with known
    · rw [ih]
      exact ⟨.inl, fun either => either.elim id fun eq => eq ▸ ih.mp known⟩
    · rw [mem_append, mem_singleton, ih]

/-- A policy, whose key is `None` at first. -/
structure AlertPolicy (Args Time κ : Type) where
  key : Time → Option κ
  lastKeyValue : Option κ := none
  lastKeyValueAlerts : List (Alert Args) := []
  distinct : (uuids lastKeyValueAlerts).Nodup := by exact List.nodup_nil

structure Change (Args : Type) where
  gone : List (Alert Args) := []
  new : List (Alert Args) := []

def without (alerts others : List (Alert Args)) : List (Alert Args) :=
  alerts.filter fun alert => decide (alert.uuid ∉ uuids others)

variable (policy : AlertPolicy Args Time κ)

def AlertPolicy.receiveAlerts (now : Time)
    (alerts : List (Alert Args)) : AlertPolicy Args Time κ × Change Args :=
  if policy.key now = policy.lastKeyValue then (policy, {})
  else
    ({ policy with
        lastKeyValue := policy.key now
        lastKeyValueAlerts := alertsByUuid alerts
        distinct := nodup_alertsByUuid alerts },
      { gone := without policy.lastKeyValueAlerts (alertsByUuid alerts)
        new := without (alertsByUuid alerts) policy.lastKeyValueAlerts })

def AlertPolicy.deleteAlert (alert : Alert Args) : AlertPolicy Args Time κ :=
  { policy with
    lastKeyValueAlerts := policy.lastKeyValueAlerts.filter fun other => other.uuid ≠ alert.uuid
    distinct := policy.distinct.sublist (filter_sublist.map _) }

inductive PolicyCall (Args Time : Type)
  | receive (now : Time) (alerts : List (Alert Args))
  | delete (alert : Alert Args)

/-- An alert that is deleted is reported by `dismiss` itself. -/
def AlertPolicy.call : PolicyCall Args Time → AlertPolicy Args Time κ × Change Args
  | .receive now alerts => policy.receiveAlerts now alerts
  | .delete alert => (policy.deleteAlert alert, { gone := [alert] })

def AlertPolicy.run (policy : AlertPolicy Args Time κ) :
    List (PolicyCall Args Time) → AlertPolicy Args Time κ × List (Change Args)
  | [] => (policy, [])
  | call :: calls =>
    let rest := (policy.call call).1.run calls
    (rest.1, (policy.call call).2 :: rest.2)

/-- The alerts last acted upon: those of the last call with another key than the call before it,
less the deleted ones. -/
def actedUpon (key : Time → Option κ) : Option κ → List Nat → List (PolicyCall Args Time) → List Nat
  | _, held, [] => held
  | last, held, .receive now alerts :: calls =>
    actedUpon key (key now) (if key now = last then held else uuids alerts) calls
  | last, held, .delete alert :: calls =>
    actedUpon key last (held.filter fun uuid => uuid ≠ alert.uuid) calls

def Change.apply (before : List Nat) (change : Change Args) : List Nat :=
  before.filter (fun uuid => decide (uuid ∉ uuids change.gone)) ++ uuids change.new

def Alert.pairs (gone new : Alert Args) : Bool :=
  decide (gone.klass.name = new.klass.name ∧ gone.key = new.key)

def cancelPairs [DecidableEq Args] : List (Alert Args) → Change Args → Change Args
  | [], change => change
  | gone :: rest, change =>
    match change.new.find? gone.pairs with
    | some new => cancelPairs rest
        ⟨change.gone.eraseP fun other => other.same gone,
          change.new.eraseP fun other => other.same new⟩
    | none => cancelPairs rest change

/-- What is sent to a service that takes the alerts of `takes`. -/
def sentChange [DecidableEq Args] (takes : Alert Args → Bool) (change : Change Args) :
    Change Args :=
  let left := cancelPairs (change.gone.filter takes)
    ⟨change.gone.filter takes, change.new.filter takes⟩
  ⟨left.gone.filter fun alert => !alert.dismissed, left.new.filter fun alert => !alert.dismissed⟩

def Fresh (before : List Nat) : List (Change Args) → Prop
  | [] => True
  | change :: changes =>
    (∀ uuid ∈ uuids change.new, uuid ∉ before) ∧ Fresh (change.apply before) changes

variable {alerts : List (Alert Args)} {uuid : Nat} {before : List Nat}
  {changes : List (Change Args)}

theorem mem_uuids_without {others : List (Alert Args)} :
    uuid ∈ uuids (without alerts others) ↔ uuid ∈ uuids alerts ∧ uuid ∉ uuids others := by
  simp only [uuids, without, mem_map, mem_filter, decide_eq_true_eq]
  constructor
  · rintro ⟨alert, ⟨mem, outside⟩, rfl⟩
    exact ⟨⟨alert, mem, rfl⟩, outside⟩
  · rintro ⟨⟨alert, mem, rfl⟩, outside⟩
    exact ⟨alert, ⟨mem, outside⟩, rfl⟩

omit [DecidableEq κ] in
theorem mem_uuids_deleteAlert {policy : AlertPolicy Args Time κ} {alert : Alert Args} :
    uuid ∈ uuids (policy.deleteAlert alert).lastKeyValueAlerts ↔
      uuid ∈ uuids policy.lastKeyValueAlerts ∧ uuid ≠ alert.uuid := by
  simp only [AlertPolicy.deleteAlert, uuids, mem_map, mem_filter, decide_eq_true_eq]
  constructor
  · rintro ⟨other, ⟨mem, differ⟩, rfl⟩
    exact ⟨⟨other, mem, rfl⟩, differ⟩
  · rintro ⟨⟨other, mem, rfl⟩, differ⟩
    exact ⟨other, ⟨mem, differ⟩, rfl⟩

/-- What one call reports takes the old set to the new one. -/
structure Reported (before : List Nat) (result : AlertPolicy Args Time κ × Change Args) : Prop where
  fresh : ∀ uuid ∈ uuids result.2.new, uuid ∉ before
  gone : (uuids result.2.gone).Nodup
  new : (uuids result.2.new).Nodup
  applied : ∀ uuid, uuid ∈ result.2.apply before ↔ uuid ∈ uuids result.1.lastKeyValueAlerts
  key : result.1.key = policy.key

variable {policy : AlertPolicy Args Time κ}
  (last : ∀ uuid, uuid ∈ before ↔ uuid ∈ uuids policy.lastKeyValueAlerts)
include last

theorem receiveAlerts_reported (now : Time) (alerts : List (Alert Args)) :
    Reported policy before (policy.receiveAlerts now alerts) := by
  rw [AlertPolicy.receiveAlerts]
  split
  · exact ⟨by simp [uuids], nodup_nil, nodup_nil, by simp [uuids, Change.apply, last], rfl⟩
  · refine ⟨fun uuid mem => ?_, policy.distinct.sublist (filter_sublist.map _),
      (nodup_alertsByUuid alerts).sublist (filter_sublist.map _), fun uuid => ?_, rfl⟩
    · rw [last]
      exact (mem_uuids_without.mp mem).2
    · simp only [Change.apply, mem_append, mem_filter, decide_eq_true_eq, mem_uuids_without, last]
      tauto

theorem call_reported (call : PolicyCall Args Time) :
    Reported policy before (policy.call call) := by
  cases call with
  | receive now alerts => exact receiveAlerts_reported last now alerts
  | delete alert =>
    refine ⟨by simp [AlertPolicy.call, uuids], nodup_singleton _, nodup_nil, fun uuid => ?_, rfl⟩
    rw [AlertPolicy.call, mem_uuids_deleteAlert, ← last]
    simp [Change.apply, uuids]

omit last

theorem actedUpon_congr {key : Time → Option κ} {held held' : List Nat}
    (same : ∀ uuid, uuid ∈ held ↔ uuid ∈ held') (lastKey : Option κ)
    (calls : List (PolicyCall Args Time)) :
    uuid ∈ actedUpon key lastKey held calls ↔ uuid ∈ actedUpon key lastKey held' calls := by
  induction calls generalizing lastKey held held' with
  | nil => exact same uuid
  | cons call calls ih =>
    cases call with
    | receive now alerts =>
      refine ih (fun uuid => ?_) _
      split_ifs
      · exact same uuid
      · rfl
    | delete alert => exact ih (fun uuid => by simp [same]) _

theorem actedUpon_call (call : PolicyCall Args Time) (calls : List (PolicyCall Args Time)) :
    uuid ∈ actedUpon policy.key policy.lastKeyValue (uuids policy.lastKeyValueAlerts)
        (call :: calls) ↔
      uuid ∈ actedUpon policy.key (policy.call call).1.lastKeyValue
        (uuids (policy.call call).1.lastKeyValueAlerts) calls := by
  cases call with
  | receive now alerts =>
    rw [actedUpon, AlertPolicy.call, AlertPolicy.receiveAlerts]
    split_ifs with same
    · rw [same]
    · exact actedUpon_congr (fun uuid => mem_uuids_alertsByUuid.symm) _ calls
  | delete alert =>
    refine actedUpon_congr (fun uuid => ?_) _ calls
    rw [AlertPolicy.call, mem_uuids_deleteAlert, mem_filter, decide_eq_true_eq]

include last in
theorem run_spec (calls : List (PolicyCall Args Time)) :
    (∀ uuid, uuid ∈ (policy.run calls).2.foldl Change.apply before ↔
      uuid ∈ actedUpon policy.key policy.lastKeyValue (uuids policy.lastKeyValueAlerts) calls) ∧
    Fresh before (policy.run calls).2 ∧
    ∀ change ∈ (policy.run calls).2, (uuids change.gone).Nodup ∧ (uuids change.new).Nodup := by
  induction calls generalizing policy before with
  | nil => exact ⟨last, trivial, by simp [AlertPolicy.run]⟩
  | cons call calls ih =>
    have reported := call_reported last call
    obtain ⟨final, rest, others⟩ := ih reported.applied
    rw [reported.key] at final
    exact ⟨fun uuid => (final uuid).trans (actedUpon_call call calls).symm,
      ⟨reported.fresh, rest⟩, forall_mem_cons.mpr ⟨⟨reported.gone, reported.new⟩, others⟩⟩

theorem Fresh.append {rest : List (Change Args)}
    (fresh : Fresh before (changes ++ rest)) : Fresh (changes.foldl Change.apply before) rest := by
  induction changes generalizing before with
  | nil => exact fresh
  | cons change changes ih => exact ih fresh.2

theorem mem_foldl_apply
    (mem : uuid ∈ before) (kept : ∀ change ∈ changes, uuid ∉ uuids change.gone) :
    uuid ∈ changes.foldl Change.apply before := by
  induction changes generalizing before with
  | nil => exact mem
  | cons change changes ih =>
    obtain ⟨first, rest⟩ := forall_mem_cons.mp kept
    exact ih (mem_append_left _ (mem_filter.mpr ⟨mem, decide_eq_true first⟩)) rest

section Cancellation

variable [DecidableEq Args] {gone : Alert Args}

/-- Equal alerts of the list are one alert, since no two have one uuid. -/
theorem perm_cons_eraseP (nodup : (uuids alerts).Nodup) (present : gone ∈ alerts) :
    alerts ~ gone :: alerts.eraseP fun alert => alert.same gone := by
  obtain ⟨found, first, rest, before, same, rfl, erased⟩ :=
    exists_of_eraseP (p := fun alert => alert.same gone) present (by simp [Alert.same])
  have equal : found.uuid = gone.uuid := by rw [of_decide_eq_true same]
  obtain rfl : found = gone := inj_on_of_nodup_map nodup (by simp) present equal
  rw [erased]
  exact perm_middle

theorem cancelPairs_spec (todo : List (Alert Args)) (change : Change Args)
    (distinct : (uuids todo).Nodup) (present : todo ⊆ change.gone)
    (nodup : (uuids change.gone).Nodup) (nodupNew : (uuids change.new).Nodup)
    (seen : ∀ gone ∈ change.gone, gone ∈ todo ∨ ∀ new ∈ change.new, gone.pairs new = false) :
    (∀ gone ∈ (cancelPairs todo change).gone, ∀ new ∈ (cancelPairs todo change).new,
      gone.pairs new = false) ∧
    ∃ pairs : List (Alert Args × Alert Args), (∀ pair ∈ pairs, pair.1.pairs pair.2 = true) ∧
      change.gone ~ pairs.map Prod.fst ++ (cancelPairs todo change).gone ∧
      change.new ~ pairs.map Prod.snd ++ (cancelPairs todo change).new := by
  induction todo generalizing change with
  | nil => exact ⟨fun gone mem => (seen gone mem).resolve_left not_mem_nil, [], by simp, .rfl, .rfl⟩
  | cons first rest ih =>
    obtain ⟨single, distinct⟩ := nodup_cons.mp distinct
    obtain ⟨here, present⟩ := cons_subset.mp present
    rw [cancelPairs]
    split
    · rename_i new found
      have goneLeft := perm_cons_eraseP nodup here
      have newLeft := perm_cons_eraseP nodupNew (mem_of_find?_eq_some found)
      have kept : rest ⊆ change.gone.eraseP fun other => other.same first := fun other mem => by
        rcases mem_cons.mp (goneLeft.mem_iff.mp (present mem)) with rfl | left
        · exact absurd (mem_map_of_mem mem) single
        · exact left
      obtain ⟨unpaired, pairs, paired, goneRest, newRest⟩ := ih
        ⟨change.gone.eraseP fun other => other.same first,
          change.new.eraseP fun other => other.same new⟩ distinct kept
        (nodup.sublist (eraseP_sublist.map _)) (nodupNew.sublist (eraseP_sublist.map _))
        fun gone mem => by
          rcases seen gone (mem_of_mem_eraseP mem) with todo | seen
          · rcases mem_cons.mp todo with rfl | later
            · have twice := (goneLeft.map Alert.uuid).nodup_iff.mp nodup
              exact absurd (mem_map_of_mem mem) (nodup_cons.mp twice).1
            · exact .inl later
          · exact .inr fun new mem => seen new (mem_of_mem_eraseP mem)
      exact ⟨unpaired, (first, new) :: pairs, forall_mem_cons.mpr ⟨find?_some found, paired⟩,
        goneLeft.trans (goneRest.cons first), newLeft.trans (newRest.cons new)⟩
    · rename_i unpaired
      refine ih change distinct present nodup nodupNew fun gone mem => ?_
      rcases seen gone mem with todo | seen
      · rcases mem_cons.mp todo with rfl | later
        · exact .inr fun new mem => by simpa using find?_eq_none.mp unpaired new mem
        · exact .inl later
      · exact .inr seen

end Cancellation

end TruenasMiddleware.Alerts
