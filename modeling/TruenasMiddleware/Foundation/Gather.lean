import Mathlib.Data.Fintype.Defs

/-! A coroutine that gathers tasks, one for each node, stage after stage. The first exception ends
the wait: the coroutine goes on with the handler of the stage, and the other tasks of the stage go
on without anybody waiting for them. The wait for a task of another node may also end by itself,
with the task given up or still going on there, and a task whose first step finds the node
disconnected is skipped. -/

namespace Gather

open Function List

variable {Node Step σ : Type}

structure Stage (Node Step : Type) where
  tasks : Node → List Step
  /-- What the coroutine does on its own node when a task of the stage raises. -/
  handler : List Step

structure State (Node Step σ : Type) where
  nodes : Node → σ
  /-- Tasks of the stage in progress. -/
  awaited : Node → List Step
  handler : List Step
  rest : List (Stage Node Step)
  stray : Node → List Step
  /-- The coroutine has received an exception. -/
  raised : Bool

structure Rules (Node Step σ : Type) where
  caller : Node
  /-- A step that returns: the state that it leaves, and whether its task goes on. There is none
  where the step can only raise. -/
  run : Step → σ → Option (σ × Bool)
  /-- The step asks whether the node is connected. -/
  connects : Step → Bool

inductive Label (Node : Type)
  /-- Every task of the stage has returned. -/
  | next
  | run (node : Node)
  /-- A step raises, without effect. -/
  | fail (node : Node)
  /-- The wait for a task of another node ends; `kept` tells whether the task goes on there. -/
  | lose (node : Node) (kept : Bool)
  | skip (node : Node)
  | runStray (node : Node)
  | failStray (node : Node)

variable [DecidableEq Node]

/-- The coroutine receives the exception of the task of `given`. -/
def State.raise (caller : Node) (state : State Node Step σ) (given : Node) (kept : Bool) :
    State Node Step σ where
  nodes := state.nodes
  awaited node := if node = caller then state.handler else []
  handler := []
  rest := []
  stray node :=
    state.stray node ++ if node = given ∧ kept = false then [] else state.awaited node
  raised := true

def continuing (goesOn : Bool) (steps : List Step) : List Step :=
  if goesOn then steps else []

variable [Fintype Node]

def step (rules : Rules Node Step σ) (state : State Node Step σ) :
    Label Node → Option (State Node Step σ)
  | .next =>
    match state.rest with
    | [] => none
    | stage :: rest =>
      if ∀ node, (state.awaited node).isEmpty then
        some { state with awaited := stage.tasks, handler := stage.handler, rest := rest }
      else none
  | .run node =>
    match state.awaited node with
    | [] => none
    | first :: steps =>
      (rules.run first (state.nodes node)).map fun result =>
        { state with
          nodes := update state.nodes node result.1
          awaited := update state.awaited node (continuing result.2 steps) }
  | .fail node =>
    if (state.awaited node).isEmpty then none else some (state.raise rules.caller node false)
  | .lose node kept =>
    if node = rules.caller ∨ (state.awaited node).isEmpty then none
    else some (state.raise rules.caller node kept)
  | .skip node =>
    match state.awaited node with
    | [] => none
    | first :: _ =>
      if rules.connects first then
        some { state with awaited := update state.awaited node [] }
      else none
  | .runStray node =>
    match state.stray node with
    | [] => none
    | first :: steps =>
      (rules.run first (state.nodes node)).map fun result =>
        { state with
          nodes := update state.nodes node result.1
          stray := update state.stray node (continuing result.2 steps) }
  | .failStray node =>
    if (state.stray node).isEmpty then none
    else some { state with stray := update state.stray node [] }

def start (nodes : Node → σ) (stages : List (Stage Node Step)) : State Node Step σ where
  nodes := nodes
  awaited _ := []
  handler := []
  rest := stages
  stray _ := []
  raised := false

def State.finished (state : State Node Step σ) : Bool :=
  state.rest.isEmpty && decide (∀ node, (state.awaited node).isEmpty)

structure View (Step σ : Type) where
  node : σ
  now : List Step
  later : List (List Step)
  stray : List Step

def View.ahead (view : View Step σ) : List Step :=
  view.now ++ view.later.flatten

def State.view (state : State Node Step σ) (node : Node) : View Step σ where
  node := state.nodes node
  now := state.awaited node
  later := state.rest.map fun stage => stage.tasks node
  stray := state.stray node

inductive Moves (run : Step → σ → Option (σ × Bool)) : View Step σ → View Step σ → Prop
  | same (view : View Step σ) : Moves run view view
  | next {node : σ} {task : List Step} {later : List (List Step)} {stray : List Step} :
      Moves run ⟨node, [], task :: later, stray⟩ ⟨node, task, later, stray⟩
  | run {node after : σ} {first : Step} {steps : List Step} {later : List (List Step)}
      {stray : List Step} {goesOn : Bool} (ran : run first node = some (after, goesOn)) :
      Moves run ⟨node, first :: steps, later, stray⟩
        ⟨after, continuing goesOn steps, later, stray⟩
  | runStray {node after : σ} {now : List Step} {later : List (List Step)} {first : Step}
      {steps : List Step} {goesOn : Bool} (ran : run first node = some (after, goesOn)) :
      Moves run ⟨node, now, later, first :: steps⟩
        ⟨after, now, later, continuing goesOn steps⟩
  | failStray {node : σ} {now : List Step} {later : List (List Step)} {stray : List Step} :
      Moves run ⟨node, now, later, stray⟩ ⟨node, now, later, []⟩

section Steps

omit [DecidableEq Node] [Fintype Node]

variable {after : σ} {goesOn : Bool} {steps stray : List Step} {later : List (List Step)}

theorem continuing_sublist : (continuing goesOn steps).Sublist steps := by
  cases goesOn with
  | false => exact nil_sublist steps
  | true => exact List.Sublist.refl steps

theorem ahead_sublist : (View.ahead ⟨after, continuing goesOn steps, later, stray⟩).Sublist
      (steps ++ later.flatten) :=
  continuing_sublist.append (List.Sublist.refl _)

theorem Moves.subset {run : Step → σ → Option (σ × Bool)} {view next : View Step σ}
    (moves : Moves run view next) : next.ahead ⊆ view.ahead ∧ next.stray ⊆ view.stray := by
  cases moves with
  | same | next => exact ⟨List.Subset.refl _, List.Subset.refl _⟩
  | run =>
    exact ⟨(ahead_sublist.trans (sublist_cons_self _ _)).subset, List.Subset.refl _⟩
  | runStray =>
    exact ⟨List.Subset.refl _, (continuing_sublist.trans (sublist_cons_self _ _)).subset⟩
  | failStray => exact ⟨List.Subset.refl _, nil_subset _⟩

end Steps

def Label.Raises : Label Node → Prop
  | .fail _ | .lose _ _ => True
  | _ => False

def State.handlers (state : State Node Step σ) : List (List Step) :=
  state.handler :: state.rest.map Stage.handler

/-- What the exception of a task leaves for a node: the steps of its own task are given up or go
on by themselves. -/
structure Raised (caller node : Node) (state next : State Node Step σ) : Prop where
  nodes : (next.view node).node = (state.view node).node
  now : (next.view node).now = if node = caller then state.handler else []
  later : (next.view node).later = []
  stray : (next.view node).stray = (state.view node).stray ∨
    (next.view node).stray = (state.view node).stray ++ (state.view node).now

section Raised

omit [Fintype Node]

variable {caller node : Node} {state next : State Node Step σ}

theorem Raised.ahead_subset (raised : Raised caller node state next) :
    (next.view node).ahead ⊆ state.handler := by
  rw [View.ahead, raised.now, raised.later, flatten_nil, append_nil]
  split_ifs
  · exact List.Subset.refl _
  · exact nil_subset _

theorem Raised.stray_subset (raised : Raised caller node state next) :
    (next.view node).stray ⊆ (state.view node).stray ++ (state.view node).ahead := by
  obtain eq | more := raised.stray
  · rw [eq]
    exact subset_append_left _ _
  · rw [more]
    refine append_subset.mpr ⟨subset_append_left _ _, fun step mem => ?_⟩
    exact mem_append_right _ (mem_append_left _ mem)

end Raised

section Inversion

variable {rules : Rules Node Step σ} {state next : State Node Step σ} {label : Label Node}

omit [Fintype Node] in
theorem State.raised_raise (given node : Node) (kept : Bool) :
    Raised rules.caller node state (state.raise rules.caller given kept) where
  nodes := rfl
  now := rfl
  later := rfl
  stray := by
    simp only [State.view, State.raise]
    split_ifs
    · exact .inl (append_nil _)
    · exact .inr rfl

theorem view_step (taken : step rules state label = some next) (node : Node) :
    Moves rules.run (state.view node) (next.view node) ∨
      (label = .skip node ∧ (∃ first ∈ (state.view node).now, rules.connects first = true) ∧
        next.view node = { state.view node with now := [] }) ∨
      label.Raises ∧ Raised rules.caller node state next := by
  cases label with simp only [step] at taken
  | next =>
    split at taken
    · cases taken
    · rename_i stage rest ahead
      split_ifs at taken with empty
      cases taken
      left
      have now : state.awaited node = [] := List.isEmpty_iff.mp (empty node)
      simp only [State.view, now, ahead, map_cons]
      exact .next
  | run given =>
    split at taken
    · cases taken
    · rename_i first steps now
      obtain ⟨result, ran, rfl⟩ := Option.map_eq_some_iff.mp taken
      left
      by_cases here : node = given
      · subst here
        simp only [State.view, now, update_self]
        exact .run ran
      · simp only [State.view, update_of_ne here]
        exact .same _
  | fail given | lose given kept =>
    split_ifs at taken
    cases taken
    exact .inr (.inr ⟨trivial, State.raised_raise given node _⟩)
  | skip given =>
    split at taken
    · cases taken
    · rename_i first steps now
      split_ifs at taken with connects
      cases taken
      by_cases here : node = given
      · subst here
        refine .inr (.inl ⟨rfl, ⟨first, ?_, connects⟩, ?_⟩)
        · simp [State.view, now]
        · simp [State.view]
      · left
        simp only [State.view, update_of_ne here]
        exact .same _
  | runStray given =>
    split at taken
    · cases taken
    · rename_i first steps stray
      obtain ⟨result, ran, rfl⟩ := Option.map_eq_some_iff.mp taken
      left
      by_cases here : node = given
      · subst here
        simp only [State.view, stray, update_self]
        exact .runStray ran
      · simp only [State.view, update_of_ne here]
        exact .same _
  | failStray given =>
    split_ifs at taken
    cases taken
    left
    by_cases here : node = given
    · subst here
      simp only [State.view, update_self]
      exact .failStray
    · simp only [State.view, update_of_ne here]
      exact .same _

theorem handlers_step (taken : step rules state label = some next) {handler : List Step}
    (mem : handler ∈ next.handlers) : handler ∈ state.handlers ∨ handler = [] := by
  cases label with simp only [step] at taken
  | next =>
    split at taken
    · cases taken
    · rename_i stage rest ahead
      split_ifs at taken
      cases taken
      left
      rw [State.handlers, ahead]
      exact mem_cons_of_mem _ mem
  | fail given | lose given kept =>
    split_ifs at taken
    cases taken
    exact .inr (mem_singleton.mp mem)
  | run given | runStray given =>
    split at taken
    · cases taken
    · obtain ⟨result, ran, rfl⟩ := Option.map_eq_some_iff.mp taken
      exact .inl mem
  | skip given =>
    split at taken
    · cases taken
    · split_ifs at taken
      cases taken
      exact .inl mem
  | failStray given =>
    split_ifs at taken
    cases taken
    exact .inl mem

/-- Until an exception is received, the handler is that of the last stage begun. -/
structure InStage (stages : List (Stage Node Step)) (state : State Node Step σ) : Prop where
  begun : state.raised = false → ∃ begun, stages = begun ++ state.rest ∧
    state.handler = ((begun.getLast?).map Stage.handler).getD []

omit [DecidableEq Node] [Fintype Node] in
theorem InStage.start (nodes : Node → σ) (stages : List (Stage Node Step)) :
    InStage stages (Gather.start nodes stages) :=
  ⟨fun _ => ⟨[], rfl, rfl⟩⟩

theorem InStage.step {stages : List (Stage Node Step)} (stage : InStage stages state)
    (taken : step rules state label = some next) : InStage stages next := by
  cases label with simp only [Gather.step] at taken
  | next =>
    split at taken
    · cases taken
    · rename_i first rest ahead
      split_ifs at taken
      cases taken
      refine ⟨fun quiet => ?_⟩
      obtain ⟨begun, split, -⟩ := stage.begun quiet
      exact ⟨begun ++ [first], by simp [split, ahead], by simp⟩
  | fail given | lose given kept =>
    split_ifs at taken
    cases taken
    exact ⟨nofun⟩
  | run given | runStray given =>
    split at taken
    · cases taken
    · obtain ⟨result, ran, rfl⟩ := Option.map_eq_some_iff.mp taken
      exact ⟨stage.begun⟩
  | skip given =>
    split at taken
    · cases taken
    · split_ifs at taken
      cases taken
      exact ⟨stage.begun⟩
  | failStray given =>
    split_ifs at taken
    cases taken
    exact ⟨stage.begun⟩

omit [DecidableEq Node] in
theorem ahead_of_finished (finished : state.finished = true) (node : Node) :
    (state.view node).ahead = [] := by
  simp only [State.finished, Bool.and_eq_true, List.isEmpty_iff, decide_eq_true_eq] at finished
  obtain ⟨rest, awaited⟩ := finished
  simp [View.ahead, State.view, rest, awaited node]

end Inversion

end Gather
