import TruenasMiddleware.Dlm.Steps
import TruenasMiddleware.Foundation.Transition
import Mathlib.Data.Fintype.Basic

/-! When the lockspaces that an operation stops run again. The steps ahead of each node are followed
to their end: as long as nothing raises, a node that is stopped has its start ahead. -/

namespace TruenasMiddleware.Dlm

open Gather Transition List Lockspace Function

variable {Node : Type}

abbrev Progress (Node : Type) := State Node (Step Node) (Lockspace Node)

section Condition

variable [DecidableEq Node] (caller : Node) (initial : Node → Lockspace Node)

/-- Every node that was running and has not left the lockspace is running. -/
def AllRunning (state : Progress Node) : Prop :=
  ∀ node, (initial node).running = true → (state.nodes node).left = false →
    (state.nodes node).running = true

variable (operation : Operation Node)

/-- When an exception makes the caller start its own lockspace again: while it leaves, not
resetting, once `dlm.create`, the first of the six phases, has returned. An exception in the handler
makes it do nothing more. -/
def Operation.restores (state : Progress Node) : Bool :=
  match operation with
  | .leaveLockspace false _ => !state.raised && decide (state.rest.length < 5)
  | .leaveLockspace true _ | .joinLockspace _ | .localRemovePeer _ => false

/-- The call on `given` raises, or the wait for it ends, and it goes on there if `kept`: every node
that was running is running, or it is the caller and will start it, and no stop is under way for
which nobody will wait. -/
def Covered (state : Progress Node) (given : Node) (kept : Bool) : Prop :=
  ∀ node, (initial node).running = true → (state.nodes node).left = false →
    ((state.nodes node).running = true ∨ node = caller ∧ operation.restores state = true) ∧
      .lockspaceStop ∉ state.stray node ∧
      (.lockspaceStop ∈ state.awaited node → node = given ∧ kept = false)

/-- Steps raise only while the nodes that are stopped are covered, and a call to another node is
skipped only while that node is not stopped. -/
def Contained (state : Progress Node) : Label Node → Prop
  | .fail node => Covered caller initial operation state node false
  | .lose node kept => Covered caller initial operation state node kept
  | .skip node => (initial node).running = true → (state.nodes node).left = false →
      (state.nodes node).running = true
  | .next | .run _ | .runStray _ | .failStray _ => True

instance [Fintype Node] (state : Progress Node) : Decidable (AllRunning initial state) :=
  inferInstanceAs (Decidable (∀ _, _ → _ → _))

instance [Fintype Node] (state : Progress Node) (given : Node) (kept : Bool) :
    Decidable (Covered caller initial operation state given kept) :=
  inferInstanceAs (Decidable (∀ _, _ → _ → _))

instance [Fintype Node] (state : Progress Node) :
    (label : Label Node) → Decidable (Contained caller initial operation state label)
  | .fail node => inferInstanceAs (Decidable (Covered caller initial operation state node false))
  | .lose node kept =>
    inferInstanceAs (Decidable (Covered caller initial operation state node kept))
  | .skip _ => inferInstanceAs (Decidable (_ → _ → _))
  | .next | .run _ | .runStray _ | .failStray _ => .isTrue trivial

end Condition

/-- What keeps the recorded flag right: a lockspace is not marked as stopped once it runs. -/
structure Recorded (view : View (Step Node) (Lockspace Node)) : Prop where
  agrees : view.node.Agrees
  marks : view.node.running = true →
    .lockspaceMarkStopped ∉ view.ahead ∧ .lockspaceMarkStopped ∉ view.stray
  order : view.ahead.Pairwise Before
  strayOrder : view.stray.Pairwise Before
  cross : .lockspaceMarkStopped ∈ view.stray → .lockspaceStart ∉ view.ahead
  handling : view.stray ≠ [] → .lockspaceMarkStopped ∉ view.ahead ∧ .lockspaceStop ∉ view.ahead

/-- A node that was running is running or has its start ahead. -/
structure Restarted (view : View (Step Node) (Lockspace Node)) : Prop where
  written : view.node.control ≠ none
  running : view.node.left = false → view.node.running = true ∨ Restarts view.ahead
  stops : view.node.left = false → .lockspaceStop ∈ view.ahead → Restarts view.ahead
  skips : (view.now :: view.later).Pairwise fun task next =>
    .remoteConnected ∈ task → .lockspaceStop ∉ next
  stray : view.node.left = false → .lockspaceStop ∉ view.stray

section Views

variable {view : View (Step Node) (Lockspace Node)}

theorem Recorded.shrink {next : View (Step Node) (Lockspace Node)} (recorded : Recorded view)
    (agrees : next.node.Agrees)
    (marks : next.node.running = true →
      .lockspaceMarkStopped ∉ next.ahead ∧ .lockspaceMarkStopped ∉ next.stray)
    (ahead : next.ahead.Sublist view.ahead) (stray : next.stray.Sublist view.stray) :
    Recorded next where
  agrees := agrees
  marks := marks
  order := recorded.order.sublist ahead
  strayOrder := recorded.strayOrder.sublist stray
  cross marked starts := recorded.cross (stray.subset marked) (ahead.subset starts)
  handling strays := by
    obtain ⟨marks, stops⟩ := recorded.handling fun none => strays (sublist_nil.mp (none ▸ stray))
    exact ⟨mt (ahead.subset ·) marks, mt (ahead.subset ·) stops⟩

variable {node after : Lockspace Node} {first : Step Node} {steps now stray : List (Step Node)}
  {later : List (List (Step Node))} {goesOn : Bool}

theorem Recorded.run (recorded : Recorded ⟨node, first :: steps, later, stray⟩)
    (effect : Effect first node after) :
    Recorded ⟨after, continuing goesOn steps, later, stray⟩ := by
  have order := pairwise_cons.mp recorded.order
  have unmarked : first = .lockspaceMarkStopped → node.running = false := by
    rintro rfl
    refine Bool.eq_false_iff.mpr fun runs => ?_
    exact (recorded.marks runs).1 mem_cons_self
  have shrinks : (View.ahead ⟨after, continuing goesOn steps, later, stray⟩).Sublist
      (View.ahead ⟨node, first :: steps, later, stray⟩) :=
    ahead_sublist.trans (sublist_cons_self first _)
  refine recorded.shrink (recorded.agrees.effect effect unmarked) (fun runs => ?_) shrinks (.refl _)
  obtain ran | rfl := effect.running runs
  · obtain ⟨ahead, strays⟩ := recorded.marks ran
    exact ⟨fun marked => ahead (shrinks.subset marked), strays⟩
  · refine ⟨fun marked => ?_, fun marked => recorded.cross marked mem_cons_self⟩
    exact (order.1 _ (ahead_sublist.subset marked) (.inl rfl)).2 rfl

theorem Recorded.runStray (recorded : Recorded ⟨node, now, later, first :: steps⟩)
    (effect : Effect first node after) :
    Recorded ⟨after, now, later, continuing goesOn steps⟩ := by
  have order := pairwise_cons.mp recorded.strayOrder
  have unmarked : first = .lockspaceMarkStopped → node.running = false := by
    rintro rfl
    refine Bool.eq_false_iff.mpr fun runs => ?_
    exact (recorded.marks runs).2 mem_cons_self
  have shrinks : (continuing goesOn steps).Sublist (first :: steps) :=
    continuing_sublist.trans (sublist_cons_self first steps)
  refine recorded.shrink (recorded.agrees.effect effect unmarked) (fun runs => ?_) (.refl _) shrinks
  refine ⟨(recorded.handling (cons_ne_nil first steps)).1, fun marked => ?_⟩
  obtain ran | rfl := effect.running runs
  · exact (recorded.marks ran).2 (shrinks.subset marked)
  · exact (order.1 _ (continuing_sublist.subset marked) (.inl rfl)).2 rfl

theorem Restarted.next (restarted : Restarted ⟨node, first :: steps, later, stray⟩)
    (recorded : Recorded ⟨node, first :: steps, later, stray⟩) (effect : Effect first node after)
    (member : after.left = false) :
    (after.running = true ∨ Restarts (steps ++ later.flatten)) ∧
      (.lockspaceStop ∈ steps ++ later.flatten → Restarts (steps ++ later.flatten)) := by
  have stays : node.left = false := effect.member member
  have running := restarted.running stays
  have stops := restarted.stops stays
  have order := (pairwise_cons.mp recorded.order).1
  cases effect with
  | start =>
    refine ⟨.inl (recorded.agrees.running_start restarted.written stays), fun stop => ?_⟩
    exact absurd rfl (order _ stop (.inl rfl)).1
  | stop =>
    have restarts : Restarts (steps ++ later.flatten) :=
      (stops mem_cons_self).tail (by simp) (by simp)
    exact ⟨.inr restarts, fun _ => restarts⟩
  | leave _ _ left =>
    rw [left] at member
    cases member
  | markStopped control =>
    refine ⟨?_, fun stop => (stops (mem_cons_of_mem _ stop)).tail (by simp) (by simp)⟩
    rw [running_iff] at running ⊢
    exact running.imp control.trans fun restarts => restarts.tail (by simp) (by simp)
  | other control _ _ _ _ start leave =>
    refine ⟨?_, fun stop => (stops (mem_cons_of_mem _ stop)).tail start leave⟩
    rw [running_iff] at running ⊢
    exact running.imp control.trans fun restarts => restarts.tail start leave

theorem Restarted.run (restarted : Restarted ⟨node, first :: steps, later, stray⟩)
    (recorded : Recorded ⟨node, first :: steps, later, stray⟩) (effect : Effect first node after)
    (returns : goesOn = false → first = .ensureStopped ∧ node.isStopped = false) :
    Restarted ⟨after, continuing goesOn steps, later, stray⟩ := by
  have skips := pairwise_cons.mp restarted.skips
  have left : after.left = false → (after.running = true ∨
        Restarts (View.ahead ⟨after, continuing goesOn steps, later, stray⟩)) ∧
      (.lockspaceStop ∈ View.ahead ⟨after, continuing goesOn steps, later, stray⟩ →
        Restarts (View.ahead ⟨after, continuing goesOn steps, later, stray⟩)) := by
    intro member
    cases goesOn with
    | true => exact restarted.next recorded effect member
    | false =>
      -- `join_kernel_lockspace` finds the lockspace running and returns
      obtain ⟨rfl, unmarked⟩ := returns rfl
      have runs := recorded.agrees.running restarted.written (effect.member member) unmarked
      have order := (pairwise_cons.mp recorded.order).1
      refine ⟨.inl ?_, fun stop => absurd rfl (order _ (ahead_sublist.subset stop) (.inr rfl)).1⟩
      cases effect with
      | other control =>
        rw [running_iff] at runs ⊢
        exact control.trans runs
  exact
    { written := effect.written restarted.written
      running := fun member => (left member).1
      stops := fun member => (left member).2
      skips := pairwise_cons.mpr ⟨fun task among connects =>
        skips.1 task among (mem_cons_of_mem _ (continuing_sublist.subset connects)), skips.2⟩
      stray := fun member => restarted.stray (effect.member member) }

theorem Restarted.runStray (restarted : Restarted ⟨node, now, later, first :: steps⟩)
    (recorded : Recorded ⟨node, now, later, first :: steps⟩) (effect : Effect first node after) :
    Restarted ⟨after, now, later, continuing goesOn steps⟩ := by
  refine
    { written := effect.written restarted.written
      running := fun member => ?_
      stops := fun member => restarted.stops (effect.member member)
      skips := restarted.skips
      stray := fun member stop => restarted.stray (effect.member member)
        (mem_cons_of_mem _ (continuing_sublist.subset stop)) }
  have stays : node.left = false := effect.member member
  have running := restarted.running stays
  rw [running_iff] at running ⊢
  cases effect with
  | start =>
    left
    exact running_iff.mp (recorded.agrees.running_start restarted.written stays)
  | stop => exact absurd mem_cons_self (restarted.stray stays)
  | markStopped control | leave control | other control => exact running.imp_left control.trans

theorem Recorded.skip (recorded : Recorded view) : Recorded { view with now := [] } := by
  have shrinks : (View.ahead { view with now := [] }).Sublist view.ahead :=
    sublist_append_right view.now _
  refine recorded.shrink recorded.agrees (fun runs => ?_) shrinks (.refl _)
  exact ⟨mt (shrinks.subset ·) (recorded.marks runs).1, (recorded.marks runs).2⟩

theorem Restarted.skip (restarted : Restarted view) (connects : .remoteConnected ∈ view.now)
    (runs : view.node.left = false → view.node.running = true) :
    Restarted { view with now := [] } := by
  have skips := pairwise_cons.mp restarted.skips
  refine
    { written := restarted.written
      running := fun member => .inl (runs member)
      stops := fun _ stop => ?_
      skips := pairwise_cons.mpr ⟨fun _ _ absent => absurd absent not_mem_nil, skips.2⟩
      stray := restarted.stray }
  obtain ⟨task, among, stop⟩ := mem_flatten.mp stop
  exact absurd stop (skips.1 task among connects)

end Views

section Moves

variable [DecidableEq Node] {view next : View (Step Node) (Lockspace Node)}

theorem Recorded.moves (recorded : Recorded view) (moves : Moves runStep view next) :
    Recorded next := by
  cases moves with
  | same => exact recorded
  | next =>
    exact ⟨recorded.agrees, recorded.marks, recorded.order, recorded.strayOrder, recorded.cross,
      recorded.handling⟩
  | run ran => exact recorded.run (effect_of_runStep ran).1
  | runStray ran => exact recorded.runStray (effect_of_runStep ran).1
  | failStray =>
    exact recorded.shrink recorded.agrees (fun runs => ⟨(recorded.marks runs).1, not_mem_nil⟩)
      (.refl _) (nil_sublist _)

theorem Restarted.moves (restarted : Restarted view) (recorded : Recorded view)
    (moves : Moves runStep view next) : Restarted next := by
  cases moves with
  | same => exact restarted
  | next =>
    exact ⟨restarted.written, restarted.running, restarted.stops,
      (pairwise_cons.mp restarted.skips).2, restarted.stray⟩
  | run ran =>
    obtain ⟨effect, returns⟩ := effect_of_runStep ran
    exact restarted.run recorded effect returns
  | runStray ran => exact restarted.runStray recorded (effect_of_runStep ran).1
  | failStray =>
    exact ⟨restarted.written, restarted.running, restarted.stops, restarted.skips,
      fun _ => not_mem_nil⟩

end Moves

section Run

variable [DecidableEq Node] {caller node : Node} {initial : Node → Lockspace Node}

structure Inv (initial : Node → Lockspace Node) (state : Progress Node) : Prop where
  recorded (node : Node) : Recorded (state.view node)
  restarted (node : Node) : (initial node).running = true → Restarted (state.view node)
  handlers : ∀ handler ∈ state.handlers, .lockspaceMarkStopped ∉ handler ∧ .lockspaceStop ∉ handler
  /-- An operation that marks the lockspace as stopped has no handler that starts it. -/
  marking : (∀ handler ∈ state.handlers, .lockspaceStart ∉ handler) ∨
    ∀ node, .lockspaceMarkStopped ∉ (state.view node).ahead ∧
      .lockspaceMarkStopped ∉ (state.view node).stray

variable {state next : Progress Node} {label : Label Node}
  {operation : Operation Node}

theorem Recorded.raised (recorded : Recorded (state.view node))
    (raised : Raised caller node state next)
    (handler : .lockspaceMarkStopped ∉ state.handler ∧ .lockspaceStop ∉ state.handler)
    (marking : .lockspaceStart ∉ state.handler ∨ .lockspaceMarkStopped ∉ (state.view node).ahead ∧
      .lockspaceMarkStopped ∉ (state.view node).stray) :
    Recorded (next.view node) := by
  have mark : .lockspaceMarkStopped ∉ (next.view node).ahead :=
    mt (raised.ahead_subset ·) handler.1
  have stop : .lockspaceStop ∉ (next.view node).ahead := mt (raised.ahead_subset ·) handler.2
  have unmarked (ahead : .lockspaceMarkStopped ∉ (state.view node).ahead)
      (stray : .lockspaceMarkStopped ∉ (state.view node).stray) :
      .lockspaceMarkStopped ∉ (next.view node).stray := fun marked =>
    (mem_append.mp (raised.stray_subset marked)).elim stray ahead
  refine
    { agrees := raised.nodes ▸ recorded.agrees
      marks := fun runs => ?_
      order := pairwise_before mark stop
      strayOrder := ?_
      cross := fun marked starts => ?_
      handling := fun _ => ⟨mark, stop⟩ }
  · rw [raised.nodes] at runs
    exact ⟨mark, unmarked (recorded.marks runs).1 (recorded.marks runs).2⟩
  · obtain eq | more := raised.stray
    · rw [eq]
      exact recorded.strayOrder
    · rw [more]
      have now := recorded.order.sublist (sublist_append_left (state.view node).now _)
      refine pairwise_append.mpr
        ⟨recorded.strayOrder, now, fun first strays second member _ => ?_⟩
      obtain ⟨marks, stops⟩ := recorded.handling (ne_nil_of_mem strays)
      refine ⟨?_, ?_⟩
      · rintro rfl
        exact stops (mem_append_left _ member)
      · rintro rfl
        exact marks (mem_append_left _ member)
  · obtain none | ⟨ahead, stray⟩ := marking
    · exact none (raised.ahead_subset starts)
    · exact unmarked ahead stray marked

theorem Restarted.raised (restarted : Restarted (state.view node))
    (raised : Raised caller node state next) (stop : .lockspaceStop ∉ state.handler)
    (covered : (next.nodes node).left = false →
      ((next.nodes node).running = true ∨ node = caller ∧ .lockspaceStart ∈ next.awaited caller) ∧
        .lockspaceStop ∉ next.stray node) : Restarted (next.view node) where
  written := raised.nodes ▸ restarted.written
  running member := by
    obtain runs | ⟨rfl, starts⟩ := (covered member).1
    · exact .inl runs
    · exact .inr (.inl (mem_append_left _ starts))
  stops _ member := absurd (raised.ahead_subset member) stop
  skips := by
    rw [raised.later]
    exact pairwise_singleton _ _
  stray member := (covered member).2

variable [Fintype Node]

omit [Fintype Node] in
theorem Operation.start_mem_handler (stage : InStage (operation.stages caller) state)
    (restores : operation.restores state = true) : .lockspaceStart ∈ state.handler := by
  cases operation with
  | joinLockspace | localRemovePeer => cases restores
  | leaveLockspace resetting members =>
    cases resetting with
    | true => cases restores
    | false =>
      simp only [Operation.restores, Bool.and_eq_true, Bool.not_eq_true', decide_eq_true_eq]
        at restores
      obtain ⟨begun, split, handler⟩ := stage.begun restores.1
      change leaveMembers caller members = begun ++ state.rest at split
      have all : ∀ stage ∈ (leaveMembers caller members).tail, .lockspaceStart ∈ stage.handler := by
        simp [leaveMembers]
      have phases : begun.length + state.rest.length = 6 := by
        rw [← length_append, ← split]
        rfl
      -- a phase behind the first has begun
      rcases begun with _ | ⟨first, _ | ⟨second, later⟩⟩
      · simp only [length_nil] at phases
        omega
      · simp only [length_cons, length_nil] at phases
        omega
      · rw [handler, getLast?_cons_cons, getLast?_eq_some_getLast (cons_ne_nil second later)]
        refine all _ ?_
        rw [split, cons_append, tail_cons]
        exact mem_append_left _ (getLast_mem _)

/-- What `Covered` leaves for a node once the exception has been received. -/
theorem covered_of_raises (stage : InStage (operation.stages caller) state)
    (contained : Contained caller initial operation state label)
    (taken : step (rules caller) state label = some next) (raises : label.Raises) (node : Node)
    (ran : (initial node).running = true) (member : (next.nodes node).left = false) :
    ((next.nodes node).running = true ∨ node = caller ∧ .lockspaceStart ∈ next.awaited caller) ∧
      .lockspaceStop ∉ next.stray node := by
  have covered : ∀ given kept, Covered caller initial operation state given kept →
      next = state.raise caller given kept → ((next.nodes node).running = true ∨
        node = caller ∧ .lockspaceStart ∈ next.awaited caller) ∧
          .lockspaceStop ∉ next.stray node := by
    rintro given kept covered rfl
    obtain ⟨running, stray, awaited⟩ := covered node ran member
    refine ⟨running.imp_right fun covers => ⟨covers.1, ?_⟩, fun stop => ?_⟩
    · simpa [State.raise] using operation.start_mem_handler stage covers.2
    · rcases mem_append.mp stop with old | new
      · exact stray old
      · split_ifs at new with given
        · cases new
        · exact given (awaited new)
  cases label with
  | fail given | lose given kept =>
    simp only [step] at taken
    split_ifs at taken
    cases taken
    exact covered given _ contained rfl
  | next | run _ | skip _ | runStray _ | failStray _ => exact absurd raises id

theorem unmarked_step (taken : step (rules caller) state label = some next)
    (handler : .lockspaceMarkStopped ∉ state.handler)
    (unmarked : .lockspaceMarkStopped ∉ (state.view node).ahead ∧
      .lockspaceMarkStopped ∉ (state.view node).stray) :
    .lockspaceMarkStopped ∉ (next.view node).ahead ∧
      .lockspaceMarkStopped ∉ (next.view node).stray := by
  obtain ⟨ahead, stray⟩ := unmarked
  obtain moves | ⟨-, -, eq⟩ | ⟨-, raised⟩ := view_step taken node
  · exact ⟨mt (moves.subset.1 ·) ahead, mt (moves.subset.2 ·) stray⟩
  · rw [eq]
    exact ⟨mt (mem_append_right _ ·) ahead, stray⟩
  · refine ⟨mt (raised.ahead_subset ·) handler, fun marked => ?_⟩
    exact (mem_append.mp (raised.stray_subset marked)).elim stray ahead

theorem Inv.step (inv : Inv initial state) (stage : InStage (operation.stages caller) state)
    (contained : Contained caller initial operation state label)
    (taken : step (rules caller) state label = some next) : Inv initial next := by
  have handler := inv.handlers state.handler mem_cons_self
  refine
    { recorded := fun node => ?_
      restarted := fun node ran => ?_
      handlers := fun handler member => ?_
      marking := ?_ }
  · obtain moves | ⟨-, -, eq⟩ | ⟨-, raised⟩ := view_step taken node
    · exact (inv.recorded node).moves moves
    · rw [eq]
      exact (inv.recorded node).skip
    · refine (inv.recorded node).raised raised handler ?_
      exact inv.marking.imp (fun none => none _ mem_cons_self) fun all => all node
  · obtain moves | ⟨rfl, ⟨first, member, connects⟩, eq⟩ | ⟨raises, raised⟩ := view_step taken node
    · exact (inv.restarted node ran).moves (inv.recorded node) moves
    · rw [eq]
      obtain rfl : first = .remoteConnected := of_decide_eq_true connects
      exact (inv.restarted node ran).skip member (contained ran)
    · exact (inv.restarted node ran).raised raised handler.2
        (covered_of_raises stage contained taken raises node ran)
  · obtain before | rfl := handlers_step taken member
    · exact inv.handlers handler before
    · exact ⟨not_mem_nil, not_mem_nil⟩
  · refine inv.marking.imp (fun none handler member => ?_) fun all node =>
      unmarked_step taken handler.1 (all node)
    obtain before | rfl := handlers_step taken member
    · exact none handler before
    · exact not_mem_nil

omit [Fintype Node] [DecidableEq Node] in
theorem Inv.start {stages : List (Stage Node (Step Node))} (proper : Proper stages)
    (agrees : ∀ node, (initial node).Agrees)
    (marks : ∀ node, (initial node).running = true → .lockspaceMarkStopped ∉ steps stages node) :
    Inv initial (Gather.start initial stages) where
  recorded node :=
    { agrees := agrees node
      marks := fun runs => ⟨marks node runs, List.not_mem_nil⟩
      order := proper.order node
      strayOrder := .nil
      cross := fun marked => absurd marked List.not_mem_nil
      handling := fun strays => absurd rfl strays }
  restarted node ran :=
    { written := by
        rw [running_iff] at ran
        exact fun none => by simp [Gather.start, State.view, ran] at none
      running := fun _ => .inl ran
      stops := fun _ => proper.stops node
      skips := pairwise_cons.mpr
        ⟨fun _ _ absent => absurd absent not_mem_nil, proper.skips node⟩
      stray := fun _ => not_mem_nil }
  handlers handler member := by
    obtain rfl | later := mem_cons.mp member
    · exact ⟨not_mem_nil, not_mem_nil⟩
    · obtain ⟨stage, among, rfl⟩ := mem_map.mp later
      exact proper.handlers stage among
  marking := by
    refine proper.marking.imp (fun none handler member => ?_) fun none node =>
      ⟨none node, not_mem_nil⟩
    obtain rfl | later := mem_cons.mp member
    · exact not_mem_nil
    · obtain ⟨stage, among, rfl⟩ := mem_map.mp later
      exact none stage among

/-- In every run in which steps raise only while the handler covers the nodes that are stopped, and
no call to a stopped node is skipped: when the operation has finished, every node that was running
and has not left the lockspace is running, and on every node the recorded flag is the last value
written to `control`. The lockspace of a node that joins is new, so it is not running. -/
theorem lockspaces_restarted (operation : Operation Node)
    (agrees : ∀ node, (initial node).Agrees)
    (joining : ∀ members, operation = .joinLockspace members → (initial caller).running = false)
    (reached : Reach (Gather.step (rules caller)) (Contained caller initial operation)
      (Gather.start initial (operation.stages caller)) state)
    (finished : state.finished = true) :
    AllRunning initial state ∧ ∀ node, (state.nodes node).Agrees := by
  have marks : ∀ node, (initial node).running = true →
      .lockspaceMarkStopped ∉ steps (operation.stages caller) node := by
    intro node runs marked
    obtain ⟨⟨members, joins⟩, rfl⟩ := joins_of_mark marked
    rw [joining members joins] at runs
    cases runs
  have inv := reached.invariant
    (P := fun state => Inv initial state ∧ InStage (operation.stages caller) state)
    ⟨Inv.start (proper_stages caller operation) agrees marks, .start _ _⟩
    fun _ _ _ inv contained taken => ⟨inv.1.step inv.2 contained taken, inv.2.step taken⟩
  replace inv := inv.1
  refine ⟨fun node ran member => ?_, fun node => (inv.recorded node).agrees⟩
  have running := (inv.restarted node ran).running member
  rw [ahead_of_finished finished node] at running
  exact running.resolve_right fun restarts =>
    restarts.elim (absurd · not_mem_nil) (absurd · not_mem_nil)

end Run

section Example

def member (nodes : List (Fin 2)) : Lockspace (Fin 2) where
  stopped := some false
  control := some true
  nodes := nodes
  left := false

def both (_ : Fin 2) : Lockspace (Fin 2) := member [0, 1]

def stopBoth : List (Label (Fin 2)) :=
  [.next, .run 0, .next, .run 0, .next, .run 1, .run 1, .run 0, .run 1]

theorem both_agrees (node : Fin 2) : (both node).Agrees := by
  rintro running control
  cases control
  exact .inl rfl

/-- The first node leaves; or the call to the second one raises when the first is stopped, which its
handler starts again. -/
theorem lockspaces_restarted_leave :
    (∃ state, Reach (Gather.step (rules 0)) (Contained 0 both (.leaveLockspace false [0, 1]))
        (Gather.start both (Operation.stages 0 (.leaveLockspace false [0, 1]))) state ∧
      state.finished = true ∧ (state.nodes 0).left = true ∧ (state.nodes 1).left = false ∧
      (state.nodes 1).running = true) ∧
    ∃ state, Reach (Gather.step (rules 0)) (Contained 0 both (.leaveLockspace false [0, 1]))
        (Gather.start both (Operation.stages 0 (.leaveLockspace false [0, 1]))) state ∧
      state.finished = true ∧ state.raised = true ∧ (state.nodes 0).left = false ∧
      (state.nodes 0).running = true := by
  refine ⟨?_, ?_⟩
  · refine exists_reach_of_run (P := fun state => state.finished = true ∧
        (state.nodes 0).left = true ∧ (state.nodes 1).left = false)
      (stopBoth ++ [.next, .run 0, .run 1, .run 1, .run 0, .run 1, .next, .next, .run 1, .run 1,
        .run 1]) (by decide +kernel) fun state reached ⟨finished, left, stays⟩ => ?_
    have restarted := (lockspaces_restarted (.leaveLockspace false [0, 1]) both_agrees
      (fun _ joins => by cases joins) reached finished).1 1 rfl stays
    exact ⟨finished, left, stays, restarted⟩
  · refine exists_reach_of_run (P := fun state => state.finished = true ∧ state.raised = true ∧
        (state.nodes 0).left = false)
      [.next, .run 0, .next, .run 0, .next, .run 0, .fail 1, .run 0, .run 0]
      (by decide +kernel) fun state reached ⟨finished, raised, stays⟩ => ?_
    have restarted := (lockspaces_restarted (.leaveLockspace false [0, 1]) both_agrees
      (fun _ joins => by cases joins) reached finished).1 0 rfl stays
    exact ⟨finished, raised, stays, restarted⟩

/-- A lockspace stays stopped: that of the peer, where the one that leaves cannot remove its
configuration and starts only its own; that of the peer, where the answer to its stop is lost while
the other controller joins; and the local one, where the peer cannot be removed from it. -/
theorem lockspace_left_stopped : (∃ state, Reach (Gather.step (rules 0)) Always
        (Gather.start both (Operation.stages 0 (.leaveLockspace false [0, 1]))) state ∧
      state.finished = true ∧ (state.nodes 0).running = true ∧ ¬AllRunning both state) ∧
    (∃ state, Reach (Gather.step (rules 0)) Always
        (Gather.start (Function.update both 0 ⟨none, none, [], false⟩)
          (Operation.stages 0 (.joinLockspace [1]))) state ∧
      state.finished = true ∧ ¬AllRunning (Function.update both 0 ⟨none, none, [], false⟩) state) ∧
    ∃ state, Reach (Gather.step (rules 0)) Always
        (Gather.start both (Operation.stages 0 (.localRemovePeer 1))) state ∧
      state.finished = true ∧ ¬AllRunning both state := by
  refine ⟨?_, ?_, ?_⟩
  · apply exists_reach_of_exec (stopBoth ++ [.next, .fail 0, .run 0, .run 0])
    decide +kernel
  · apply exists_reach_of_exec
      [.next, .run 0, .next, .run 0, .run 0, .next, .run 1, .run 1, .lose 1 false, .run 0]
    decide +kernel
  · apply exists_reach_of_exec [.next, .run 0, .fail 0]
    decide +kernel

end Example

end TruenasMiddleware.Dlm
