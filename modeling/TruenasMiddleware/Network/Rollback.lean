import TruenasMiddleware.Foundation.Transition
import TruenasMiddleware.Network.Datastores

/-! `plugins/network.py`: commits that are rolled back unless they are confirmed in time. The
service remembers one timer in `_rollback_timer`; the event loop knows every timer that has been
neither cancelled nor reached, and an expired timer starts `rollback()` as a task of its own. -/

namespace TruenasMiddleware.Network

open Transition List

structure Service where
  pending : Pending
  timer : Option Nat := none
  /-- Timers of the event loop, by the number of the `call_later` that made them. -/
  armed : List Nat := []
  /-- Expired timers whose `rollback()` has not run yet. -/
  tasks : List Nat := []
  timers : Nat := 0
  /-- The number of timers made when a check-in, a cancellation or a commit without rollback last
  returned. -/
  settled : Nat := 0

/-- How a commit goes: its validation fails, `sync` raises, or neither. -/
inductive Outcome
  | refused
  | syncFails
  | applied

inductive Label
  | request (request : Request)
  | commit (rollback : Bool) (checkinTimeout : Int) (outcome : Outcome)
  | checkin
  | cancelRollback
  | rollback
  | expire (timer : Nat)
  | task (timer : Nat)

variable (service : Service)

def Service.cancelTimer : Service :=
  { service with
    timer := none
    armed := service.armed.filter fun timer => decide (service.timer ≠ some timer) }

def Service.rollback (service : Service) : Service :=
  let cancelled := service.cancelTimer
  { cancelled with pending := cancelled.pending.rollback.getD cancelled.pending }

def Service.checkinImpl (clearCache : Bool) : Service :=
  let cancelled := service.cancelTimer
  { cancelled with
    pending := if clearCache then { cancelled.pending with original := none } else cancelled.pending
    settled := cancelled.timers }

def Service.commit (rollback : Bool) (checkinTimeout : Int) : Outcome → Service
  | .refused => service
  | .syncFails => if rollback then service.rollback else service
  | .applied =>
    if rollback ∧ checkinTimeout ≠ 0 then
      { service with
        timer := some service.timers
        armed := service.armed ++ [service.timers]
        timers := service.timers + 1 }
    else
      { service with
        pending := { service.pending with original := none }
        settled := service.timers }

section Steps

variable (inNetwork : String → Int → String → Option Bool)

def step (service : Service) : Label → Option Service
  | .request request =>
    some { service with pending := service.pending.handle inNetwork request }
  | .commit rollback checkinTimeout outcome =>
    some (service.commit rollback checkinTimeout outcome)
  | .checkin => some (service.checkinImpl true)
  | .cancelRollback => some (service.checkinImpl false)
  | .rollback => some service.rollback
  | .expire timer =>
    if timer ∈ service.armed then
      some { service with
        armed := service.armed.erase timer
        tasks := service.tasks ++ [timer] }
    else none
  | .task timer =>
    if timer ∈ service.tasks then
      some { service.rollback with tasks := service.tasks.erase timer }
    else none

/-- A commit takes effect while no automatic rollback is pending, and nothing is confirmed or
cancelled between the expiry of a timer and its rollback. -/
def Quiet : Label → Prop
  | .commit _ _ .applied => service.armed = [] ∧ service.tasks = []
  | .checkin => service.tasks = []
  | .cancelRollback => service.tasks = []
  | _ => True

instance : (label : Label) → Decidable (Quiet service label)
  | .commit _ _ .applied =>
    inferInstanceAs (Decidable (service.armed = [] ∧ service.tasks = []))
  | .checkin => inferInstanceAs (Decidable (service.tasks = []))
  | .cancelRollback => inferInstanceAs (Decidable (service.tasks = []))
  | .request _ | .commit _ _ .refused | .commit _ _ .syncFails | .rollback | .expire _
  | .task _ => .isTrue trivial

structure Inv : Prop where
  one : (service.armed ++ service.tasks).length ≤ 1
  remembered : ∀ timer ∈ service.armed, service.timer = some timer
  settled : ∀ timer ∈ service.armed ++ service.tasks, service.settled ≤ timer
  made : service.settled ≤ service.timers

variable {service next : Service} (inv : Inv service)
include inv

theorem Inv.cancelTimer_armed : service.cancelTimer.armed = [] :=
  filter_eq_nil_iff.mpr fun timer mem => by
    simp [inv.remembered timer mem]

theorem Inv.rollback : Inv service.rollback := by
  have none : service.rollback.armed = [] := inv.cancelTimer_armed
  have tasks : service.rollback.tasks = service.tasks := rfl
  have counted := inv.one
  rw [length_append] at counted
  refine ⟨?_, ?_, ?_, inv.made⟩
  · rw [none, tasks, nil_append]
    omega
  · rw [none]
    nofun
  · rw [none, tasks]
    exact fun timer mem => inv.settled timer (mem_append_right _ mem)

omit inv in
theorem Inv.of_idle (armed : service.armed = []) (tasks : service.tasks = [])
    (made : service.settled ≤ service.timers) : Inv service := by
  refine ⟨?_, ?_, ?_, made⟩
  · rw [armed, tasks]
    exact Nat.zero_le 1
  · rw [armed]
    nofun
  · rw [armed, tasks]
    nofun

theorem Inv.checkinImpl (idle : service.tasks = []) (clearCache : Bool) :
    Inv (service.checkinImpl clearCache) :=
  .of_idle inv.cancelTimer_armed idle (Nat.le_refl _)

theorem Inv.commit {rollback : Bool} {timeout : Int} {outcome : Outcome}
    (quiet : Quiet service (.commit rollback timeout outcome)) :
    Inv (service.commit rollback timeout outcome) := by
  cases outcome with
  | refused => exact inv
  | syncFails =>
    rw [Service.commit]
    split_ifs
    · exact inv.rollback
    · exact inv
  | applied =>
    obtain ⟨armed, tasks⟩ := quiet
    rw [Service.commit]
    split_ifs
    · refine ⟨?_, ?_, ?_, Nat.le_succ_of_le inv.made⟩
      · rw [armed, tasks]
        exact Nat.le_refl 1
      · rw [armed]
        exact fun timer mem => congrArg some (mem_singleton.mp mem).symm
      · rw [armed, tasks]
        intro timer mem
        rw [mem_singleton.mp mem]
        exact inv.made
    · exact .of_idle armed tasks (Nat.le_refl _)

theorem Inv.step {label : Label} (quiet : Quiet service label)
    (taken : step inNetwork service label = some next) : Inv next := by
  cases label with
  | request request =>
    cases taken
    exact { inv with }
  | commit rollback timeout outcome =>
    cases taken
    exact inv.commit quiet
  | checkin =>
    cases taken
    exact inv.checkinImpl quiet true
  | cancelRollback =>
    cases taken
    exact inv.checkinImpl quiet false
  | rollback =>
    cases taken
    exact inv.rollback
  | expire timer =>
    rw [Network.step] at taken
    split_ifs at taken with known
    cases taken
    have eq : (service.armed.erase timer ++ (service.tasks ++ [timer])).Perm
        (service.armed ++ service.tasks) := by
      rw [← append_assoc]
      exact perm_append_comm.trans ((perm_cons_erase known).symm.append_right service.tasks)
    exact ⟨eq.length_eq ▸ inv.one,
      fun other mem => inv.remembered other (mem_of_mem_erase mem),
      fun other mem => inv.settled other (eq.mem_iff.mp mem), inv.made⟩
  | task timer =>
    rw [Network.step] at taken
    split_ifs at taken with known
    cases taken
    have rolled := inv.rollback
    have fewer : (service.rollback.armed ++ service.tasks.erase timer).Sublist
        (service.rollback.armed ++ service.rollback.tasks) :=
      erase_sublist.append_left _
    exact ⟨Nat.le_trans fewer.length_le rolled.one, rolled.remembered,
      fun other mem => rolled.settled other (fewer.subset mem), rolled.made⟩

omit inv

/-- In every run from tables without pending changes whose steps are all quiet, at most one
automatic rollback is pending, and a timer that was armed before a check-in, a cancellation or a
commit without rollback returned neither expires nor rolls anything back. -/
theorem settled_timers_silent (db : Database) {service : Service}
    (reached : Reach (step inNetwork) Quiet { pending := ⟨db, none⟩ } service) :
    (service.armed ++ service.tasks).length ≤ 1 ∧ ∀ timer < service.settled,
        step inNetwork service (.expire timer) = none ∧
        step inNetwork service (.task timer) = none := by
  have inv : Inv service :=
    reached.invariant (.of_idle rfl rfl (Nat.le_refl 0)) fun _ _ _ inv quiet stepped =>
      inv.step inNetwork quiet stepped
  refine ⟨inv.one, fun timer old => ⟨?_, ?_⟩⟩
  · refine if_neg fun inside => ?_
    exact absurd (inv.settled timer (mem_append_left _ inside)) (by omega)
  · refine if_neg fun inside => ?_
    exact absurd (inv.settled timer (mem_append_right _ inside)) (by omega)

end Steps

section Runs

def physical : Database :=
  ⟨{ interfaces := [{ id := 1, interface := "eno1" }] }, {}, by decide⟩

def address (text : String) : Label :=
  .request (.change [.updateInterface { id := 1, interface := "eno1", address := text }])

def addresses (service : Service) : List String :=
  service.pending.db.tables.interfaces.map Interface.address

theorem settled_timers_silent_checkin :
    ∃ service, Reach (step fun _ _ _ => none) Quiet { pending := ⟨physical, none⟩ } service ∧
      addresses service = ["10.0.0.1"] ∧ service.settled = 1 ∧
      step (fun _ _ _ => none) service (.task 0) = none := by
  exact exists_reach_of_run
    (P := fun service => addresses service = ["10.0.0.1"] ∧ service.settled = 1)
    [address "10.0.0.1", .commit true 60 .applied, .checkin, address "10.0.0.2",
      .commit true 60 .applied, .expire 1, .task 1]
    (by decide +kernel) fun service reached ⟨now, settled⟩ =>
      ⟨now, settled, ((settled_timers_silent _ physical reached).2 0 (by omega)).2⟩

/-- A second commit forgets the timer of the first one without cancelling it. Two rollbacks are
pending, and after the check-in the first timer undoes a change that was made later; so does a
timer that a commit without rollback leaves armed. -/
theorem settled_timer_fires :
    (∃ service, Reach (step fun _ _ _ => none) Always { pending := ⟨physical, none⟩ } service ∧
      service.armed = [0, 1]) ∧
    (∃ service, Reach (step fun _ _ _ => none) Always { pending := ⟨physical, none⟩ } service ∧
      service.settled = 2 ∧ addresses service = ["10.0.0.2"] ∧
      (step (fun _ _ _ => none) service (.task 0)).map addresses = some ["10.0.0.1"]) ∧
    ∃ service, Reach (step fun _ _ _ => none) Always { pending := ⟨physical, none⟩ } service ∧
      service.settled = 1 ∧ addresses service = ["10.0.0.2"] ∧
      (step (fun _ _ _ => none) service (.task 0)).map addresses = some ["10.0.0.1"] := by
  refine ⟨?_, ?_, ?_⟩
  · apply exists_reach_of_exec
      [address "10.0.0.1", .commit true 60 .applied, .commit true 60 .applied]
    decide +kernel
  · apply exists_reach_of_exec [address "10.0.0.1", .commit true 60 .applied,
      .commit true 60 .applied, .checkin, address "10.0.0.2", .expire 0]
    decide +kernel
  · apply exists_reach_of_exec [address "10.0.0.1", .commit true 60 .applied,
      .commit false 60 .applied, address "10.0.0.2", .expire 0]
    decide +kernel

end Runs

end TruenasMiddleware.Network
