import TruenasMiddleware.Failover.Events

/-! The threads of `plugins/device_/vrrp_events.py`, which share a queue of one event. -/

namespace TruenasMiddleware.Failover.Vrrp

open Transition List Events

structure Formatted where
  ifname : String
  event : Role
  time : Rat
  deriving DecidableEq

/-- Where the event thread is; `popping` knows whether the event is to be sent. -/
inductive Pc
  | top
  | clearing
  | reading
  | popping (event : Formatted) (send : Bool)
  | sending (event : Formatted)
  | ended

structure State where
  maxWait : Rat := 0
  queue : Option Formatted := none
  fifoPaused : Bool := false
  /-- Formatted by the FIFO thread and not yet appended. -/
  formatted : Option Formatted := none
  paused : Bool := false
  lastEvent : Option Formatted := none
  backoff : Bool := false
  pc : Pc := .ended
  received : List Formatted := []
  sent : List Formatted := []

/-- A `line` is one that is formatted to an event of a critical interface; others are ignored.
`unlicensed` and `start` are from `_start_stop_vrrp_threads`, where a thread that was told to shut
down has ended before the next one. -/
inductive Label
  | pauseFifo (paused : Bool)
  | pause (paused : Bool)
  | line (event : Formatted)
  | append
  | check (shutdown : Bool)
  | clear
  | read
  | pop
  | send
  | unlicensed
  | start (timeout : Nat)

variable (state : State)

/-- The branches for the event that was read. -/
def State.handle (event : Formatted) : State :=
  match state.lastEvent with
  | none => { state with lastEvent := some event, pc := .top }
  | some last =>
    if last = event ∨ state.maxWait.floor ≤ (event.time - last.time).floor then
      { state with lastEvent := none, backoff := false, pc := .popping event true }
    else if state.backoff then
      { state with lastEvent := none, backoff := false, pc := .popping event false }
    else { state with lastEvent := some event, backoff := true, pc := .top }

def step (label : Label) : Option State :=
  match state.pc, label with
  | _, .pauseFifo paused => some { state with fifoPaused := paused }
  | _, .pause paused => some { state with paused }
  | _, .line event =>
    if state.formatted.isSome then none
    else some { state with formatted := if state.fifoPaused then none else some event }
  | _, .append => state.formatted.map fun event =>
    { state with queue := some event, formatted := none, received := state.received ++ [event] }
  | .top, .check true => some { state with pc := .ended }
  | .top, .check false =>
    some (if state.paused then { state with lastEvent := none, pc := .clearing }
      else { state with pc := .reading })
  | .clearing, .clear => some { state with queue := none, pc := .reading }
  | .reading, .read => some (state.queue.elim { state with pc := .top } state.handle)
  | .popping event send, .pop =>
    some (if state.queue.isNone then { state with pc := .ended }
      else { state with queue := none, pc := if send then .sending event else .top })
  | .sending event, .send => some { state with sent := state.sent ++ [event], pc := .top }
  | _, .unlicensed => some { state with queue := none }
  | .ended, .start timeout => some { state with
    maxWait := (if timeout = 0 then 2 else timeout) + 1 / 2, paused := false, lastEvent := none,
    backoff := false, pc := .top }
  | _, _ => none

/-- What has been sent or is about to be. -/
def State.taken : List Formatted :=
  match state.pc with
  | .sending event => state.sent ++ [event]
  | _ => state.sent

/-- Nothing leaves the queue but an event that is sent. -/
def Keeps : Label → Prop
  | .pop => ∃ event, state.pc = .popping event true ∧ state.queue = some event
  | .clear => state.queue = none
  | .unlicensed => state.queue = none
  | _ => True

variable {state} {after : State} {label : Label}

theorem taken_handle (idle : state.pc = .reading) (event : Formatted) :
    (state.handle event).taken = state.taken ∧ (state.handle event).queue = state.queue ∧
      (state.handle event).received = state.received ∧
      ∀ other send, (state.handle event).pc = .popping other send → other = event := by
  unfold State.handle
  grind [State.taken]

theorem step_cases (stepped : step state label = some after) :
    ((after.taken = state.taken ∧ (after.received = state.received ∧
        (after.queue = state.queue ∨ after.queue = none ∧ ¬ Keeps state label) ∨
      ∃ event, after.received = state.received ++ [event] ∧ after.queue = some event)) ∧
      ∀ event send, after.pc = .popping event send →
        state.pc = .popping event send ∨ state.queue = some event) ∨
    ∃ event, state.pc = .popping event true ∧ after.pc = .sending event ∧
      after.taken = state.taken ++ [event] ∧ after.received = state.received ∧
      after.queue = none ∧ (Keeps state label → state.queue = some event) := by
  unfold step at stepped
  split at stepped
  case h_4 =>
    obtain ⟨event, -, rfl⟩ := Option.map_eq_some_iff.mp stepped
    exact .inl ⟨⟨rfl, .inr ⟨event, rfl, rfl⟩⟩, fun _ _ => .inl⟩
  case h_8 here =>
    cases found : state.queue with
    | none => grind [State.taken]
    | some event => grind [taken_handle here event]
  case h_9 event send here =>
    cases found : state.queue <;> cases send <;> grind [State.taken, Keeps]
  all_goals grind [State.taken, Keeps]

structure Inv (state : State) : Prop where
  queue : state.taken ++ state.queue.toList <+ state.received
  popping : ∀ event send, state.pc = .popping event send → state.taken ++ [event] <+ state.received

theorem Inv.step (inv : Inv state) (stepped : Vrrp.step state label = some after) : Inv after := by
  obtain ⟨⟨taken, moved⟩, popping⟩ | ⟨event, here, there, taken, received, queue, -⟩ :=
    step_cases stepped
  · have grown : state.received <+ after.received := by
      obtain ⟨same, -⟩ | ⟨event, more, -⟩ := moved
      · simp [same]
      · simp [more]
    refine ⟨?_, fun event send here => ?_⟩
    · obtain ⟨same, queue | ⟨queue, -⟩⟩ | ⟨event, more, queue⟩ := moved
      · rw [taken, same, queue]
        exact inv.queue
      · simpa [taken, same, queue] using (sublist_append_left _ _).trans inv.queue
      · rw [taken, more, queue]
        exact ((sublist_append_left _ _).trans inv.queue).append (.refl [event])
    · rw [taken]
      obtain before | queued := popping event send here
      · exact (inv.popping event send before).trans grown
      · exact .trans (by simpa [queued] using inv.queue) grown
  · refine ⟨?_, by simp [there]⟩
    rw [taken, received, queue]
    simpa using inv.popping event true here

/-- The last event received is in the queue, about to be sent or the last one sent. -/
def State.LastKept (state : State) : Prop :=
  (state.taken ++ state.queue.toList).getLast? = state.received.getLast?

theorem State.LastKept.step (kept : state.LastKept) (keeps : Keeps state label)
    (stepped : Vrrp.step state label = some after) : after.LastKept := by
  have moved := step_cases stepped
  unfold LastKept at *
  grind

/-- In every interleaving of the threads the hook is called for received events in their order, for
none of them twice; and the last one is not lost if nothing but what is sent leaves the queue. -/
theorem vrrp_events_in_order {ok : State → Label → Prop} (reached : Reach step ok {} state) :
    state.sent <+ state.received ∧
      ((∀ state label, ok state label → Keeps state label) → state.LastKept) := by
  constructor
  · have inv : Inv state := reached.invariant ⟨.refl _, by simp⟩ fun _ _ _ inv _ => inv.step
    refine .trans ?_ ((sublist_append_left _ _).trans inv.queue)
    unfold State.taken
    split <;> simp
  · intro keeps
    have start : State.LastKept {} := rfl
    exact reached.invariant start fun _ _ _ kept met => kept.step (keeps _ _ met)

/-- An event that is the only one in the queue when the thread reads it twice is sent. -/
theorem reach_sent {maxWait : Rat} {received sent : List Formatted} (event : Formatted)
    (reached : Reach step Keeps {} { maxWait, received, sent, pc := .top }) :
    Reach step Keeps {}
      { maxWait, received := received ++ [event], sent := sent ++ [event], pc := .top } := by
  have queued := Reach.next (a := Label.append)
    (reached.next (a := Label.line event) trivial rfl) trivial rfl
  have noted := Reach.next (a := Label.read) (queued.next (a := Label.check false) trivial rfl)
    trivial rfl
  have read := Reach.next (a := Label.read) (noted.next (a := Label.check false) trivial rfl)
    trivial (if_pos (.inl rfl) |> congrArg some)
  exact Reach.next (a := Label.send) (read.next (a := Label.pop) ⟨_, rfl, rfl⟩ rfl) trivial rfl

theorem vrrp_events_in_order_master : ∃ state : State,
    state.sent = [⟨"eno1", .master, 1⟩, ⟨"eno1", .backup, 9⟩] ∧ state.sent <+ state.received ∧
      state.LastKept := by
  have started : Reach step Keeps {} _ := .next (a := .start 2) .start trivial rfl
  have sent := reach_sent ⟨"eno1", .backup, 9⟩ (reach_sent ⟨"eno1", .master, 1⟩ started)
  obtain ⟨order, last⟩ := vrrp_events_in_order sent
  exact ⟨_, rfl, order, last fun _ _ => id⟩

end TruenasMiddleware.Failover.Vrrp
