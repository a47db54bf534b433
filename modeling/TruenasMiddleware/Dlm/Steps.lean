import TruenasMiddleware.Dlm.Lockspaces
import Mathlib.Data.List.Pairwise

/-! What the steps of an operation do to the lockspace of their node, and the order in which they
stand: everything is stopped before anything is started, and what is stopped is started or left. -/

namespace TruenasMiddleware.Dlm

open Gather List

variable {Node : Type}

/-- The recorded flag is the last value written to `control`. A missing entry counts as not stopped,
unless the node has left the lockspace. -/
def Lockspace.Agrees (lockspace : Lockspace Node) : Prop :=
  ∀ running, lockspace.control = some running → lockspace.stopped = some (!running) ∨
      lockspace.stopped = none ∧ (running = true ∨ lockspace.left = true)

/-- What a step that returns does to the flag, to `control` and to the membership. -/
inductive Effect : Step Node → Lockspace Node → Lockspace Node → Prop
  | markStopped {lockspace after : Lockspace Node} (control : after.control = lockspace.control)
      (stopped : after.stopped = some true) (left : after.left = lockspace.left) :
      Effect .lockspaceMarkStopped lockspace after
  | stop (lockspace : Lockspace Node) : Effect .lockspaceStop lockspace lockspace.stop
  | start (lockspace : Lockspace Node) : Effect .lockspaceStart lockspace lockspace.start
  | leave {lockspace after : Lockspace Node} (control : after.control = lockspace.control)
      (stopped : after.stopped = none) (left : after.left = true) :
      Effect .lockspaceLeave lockspace after
  | other {step : Step Node} {lockspace after : Lockspace Node}
      (control : after.control = lockspace.control) (stopped : after.stopped = lockspace.stopped)
      (left : after.left = lockspace.left) (mark : step ≠ .lockspaceMarkStopped)
      (stop : step ≠ .lockspaceStop) (start : step ≠ .lockspaceStart)
      (leave : step ≠ .lockspaceLeave) : Effect step lockspace after

theorem effect_of_runStep [DecidableEq Node] {step : Step Node}
    {lockspace after : Lockspace Node} {goesOn : Bool}
    (ran : runStep step lockspace = some (after, goesOn)) :
    Effect step lockspace after ∧
      (goesOn = false → step = .ensureStopped ∧ lockspace.isStopped = false) := by
  cases step with
  | keyError => cases ran
  | lockspaceMarkStopped => cases ran; exact ⟨.markStopped rfl rfl rfl, fun h => by cases h⟩
  | lockspaceStop => cases ran; exact ⟨.stop _, fun h => by cases h⟩
  | lockspaceStart => cases ran; exact ⟨.start _, fun h => by cases h⟩
  | lockspaceLeave => cases ran; exact ⟨.leave rfl rfl rfl, fun h => by cases h⟩
  | ensureStopped =>
    obtain ⟨rfl, rfl⟩ := Prod.mk.inj (Option.some.inj ran)
    exact ⟨.other rfl rfl rfl (by simp) (by simp) (by simp) (by simp), fun h => ⟨rfl, h⟩⟩
  | create | lockspaceMembers | remoteConnected | answer | lockspaceSetGlobalId
  | lockspaceAddNode | lockspaceRemoveNode | setSysfsEventDone =>
    cases ran
    exact ⟨.other rfl rfl rfl (by simp) (by simp) (by simp) (by simp), fun h => by cases h⟩

section Lockspace

variable {lockspace after : Lockspace Node} {step : Step Node}

theorem Lockspace.running_iff : lockspace.running = true ↔ lockspace.control = some true :=
  beq_iff_eq

theorem Lockspace.Agrees.running (agrees : lockspace.Agrees) (written : lockspace.control ≠ none)
    (member : lockspace.left = false) (unmarked : lockspace.isStopped = false) :
    lockspace.running = true := by
  obtain ⟨running, control⟩ := Option.ne_none_iff_exists'.mp written
  rw [Lockspace.running_iff, control]
  obtain recorded | ⟨-, runs | left⟩ := agrees running control
  · rw [Lockspace.isStopped, recorded] at unmarked
    cases running
    · cases unmarked
    · rfl
  · rw [runs]
  · rw [member] at left
    cases left

theorem Lockspace.Agrees.running_start (agrees : lockspace.Agrees)
    (written : lockspace.control ≠ none) (member : lockspace.left = false) :
    lockspace.start.running = true := by
  unfold Lockspace.start
  by_cases stopped : lockspace.isStopped = true
  · rw [if_pos stopped]
    rfl
  · rw [if_neg stopped]
    exact agrees.running written member (Bool.eq_false_iff.mpr stopped)

theorem Lockspace.left_stop : lockspace.stop.left = lockspace.left := by
  unfold Lockspace.stop
  split_ifs <;> rfl

theorem Lockspace.left_start : lockspace.start.left = lockspace.left := by
  unfold Lockspace.start
  split_ifs <;> rfl

theorem Lockspace.Agrees.effect (agrees : lockspace.Agrees) (effect : Effect step lockspace after)
    (unmarked : step = .lockspaceMarkStopped → lockspace.running = false) : after.Agrees := by
  intro running control
  cases effect with
  | markStopped eq stopped left =>
    left
    rw [stopped]
    cases running with
    | false => rfl
    | true =>
      have halted := unmarked rfl
      rw [eq, ← Lockspace.running_iff, halted] at control
      cases control
  | stop =>
    unfold Lockspace.stop at control ⊢
    split_ifs at control ⊢ with stopped
    · exact agrees running control
    · cases control
      exact .inl rfl
  | start =>
    unfold Lockspace.start at control ⊢
    split_ifs at control ⊢ with stopped
    · cases control
      exact .inl rfl
    · exact agrees running control
  | leave _ stopped left => exact .inr ⟨stopped, .inr left⟩
  | other eq stopped left =>
    rw [stopped, left]
    exact agrees running (eq ▸ control)

variable (effect : Effect step lockspace after)
include effect

theorem Effect.running (runs : after.running = true) :
    lockspace.running = true ∨ step = .lockspaceStart := by
  rw [Lockspace.running_iff] at runs ⊢
  cases effect with
  | markStopped control | leave control | other control => exact .inl (control ▸ runs)
  | stop =>
    unfold Lockspace.stop at runs
    split_ifs at runs with stopped
    · exact .inl runs
    · cases runs
  | start => exact .inr rfl

theorem Effect.written (written : lockspace.control ≠ none) :
    after.control ≠ none := by
  cases effect with
  | markStopped control | leave control | other control => exact control ▸ written
  | stop =>
    unfold Lockspace.stop
    split_ifs
    · exact written
    · simp
  | start =>
    unfold Lockspace.start
    split_ifs
    · simp
    · exact written

theorem Effect.member (member : after.left = false) :
    lockspace.left = false := by
  cases effect with
  | markStopped _ _ left | other _ _ left => exact left ▸ member
  | stop => exact Lockspace.left_stop ▸ member
  | start => exact Lockspace.left_start ▸ member
  | leave _ _ left =>
    rw [left] at member
    cases member

end Lockspace

def Before (first second : Step Node) : Prop :=
  first = .lockspaceStart ∨ first = .ensureStopped →
    second ≠ .lockspaceStop ∧ second ≠ .lockspaceMarkStopped

theorem pairwise_before {steps : List (Step Node)} (mark : .lockspaceMarkStopped ∉ steps)
    (stop : .lockspaceStop ∉ steps) : steps.Pairwise Before := by
  refine pairwise_of_forall_mem_list fun first _ second member _ => ⟨?_, ?_⟩
  · rintro rfl
    exact stop member
  · rintro rfl
    exact mark member

theorem pairwise_before_append {first second : List (Step Node)}
    (stopping : ∀ step ∈ first, step ≠ .lockspaceStart ∧ step ≠ .ensureStopped)
    (starting : ∀ step ∈ second, step ≠ .lockspaceStop ∧ step ≠ .lockspaceMarkStopped) :
    (first ++ second).Pairwise Before := by
  refine pairwise_append.mpr ⟨?_, ?_, ?_⟩
  · exact pairwise_of_forall_mem_list fun step member _ _ starts =>
      absurd starts (not_or.mpr (stopping step member))
  · exact pairwise_of_forall_mem_list fun _ _ step member _ => starting step member
  · exact fun _ _ step member _ => starting step member

def Restarts (steps : List (Step Node)) : Prop :=
  .lockspaceStart ∈ steps ∨ .lockspaceLeave ∈ steps

theorem Restarts.tail {first : Step Node} {steps : List (Step Node)}
    (restarts : Restarts (first :: steps)) (start : first ≠ .lockspaceStart)
    (leave : first ≠ .lockspaceLeave) : Restarts steps := by
  obtain starts | leaves := restarts
  · exact .inl ((mem_cons.mp starts).resolve_left start.symm)
  · exact .inr ((mem_cons.mp leaves).resolve_left leave.symm)

section Operations

variable [DecidableEq Node] {caller : Node}

def steps (stages : List (Stage Node (Step Node))) (node : Node) : List (Step Node) :=
  (stages.map fun stage => stage.tasks node).flatten

structure Proper (stages : List (Stage Node (Step Node))) : Prop where
  order (node : Node) : (steps stages node).Pairwise Before
  stops (node : Node) : .lockspaceStop ∈ steps stages node → Restarts (steps stages node)
  skips (node : Node) : (stages.map fun stage => stage.tasks node).Pairwise fun task next =>
    .remoteConnected ∈ task → .lockspaceStop ∉ next
  handlers : ∀ stage ∈ stages,
    .lockspaceMarkStopped ∉ stage.handler ∧ .lockspaceStop ∉ stage.handler
  marking : (∀ stage ∈ stages, .lockspaceStart ∉ stage.handler) ∨
    ∀ node, .lockspaceMarkStopped ∉ steps stages node

variable {node : Node} {step : Step Node} {members nodeIDs : List Node}

theorem mem_alone {task : List (Step Node)} :
    step ∈ alone caller task node ↔ node = caller ∧ step ∈ task := by
  unfold alone
  split_ifs with here <;> simp [here]

theorem mem_gathered {call : Node → List (Step Node)} :
    step ∈ gathered caller members call node ↔ node ∈ members ∧ (step ∈ call node ∨
      node ≠ caller ∧ (step = .remoteConnected ∨ step = .answer)) := by
  unfold gathered
  by_cases member : node ∈ members
  · rw [if_pos member, and_iff_right member]
    by_cases here : node = caller
    · simp [here]
    · rw [if_neg here]
      simp only [cons_append, mem_cons, mem_append, not_mem_nil, or_false,
        ne_eq, here, not_false_eq_true, true_and]
      tauto
  · rw [if_neg member]
    simp [member]

theorem mem_addCaller : node ∈ addCaller caller members ↔ node = caller ∨ node ∈ members := by
  unfold addCaller
  split_ifs with member
  · refine ⟨.inr, ?_⟩
    rintro (rfl | among)
    · exact member
    · exact among
  · exact mem_cons

theorem mem_joinKernelLockspace :
    .lockspaceStart ∈ joinKernelLockspace caller nodeIDs node ∧
      .lockspaceStop ∉ joinKernelLockspace caller nodeIDs node ∧
      .lockspaceMarkStopped ∉ joinKernelLockspace caller nodeIDs node := by
  unfold joinKernelLockspace
  split_ifs <;> simp

theorem proper_joinLockspace (caller : Node) (members : List Node) :
    Proper (joinLockspace caller members) where
  order node := by
    have split : steps (joinLockspace caller members) node = (alone caller [.create] node ++
          (alone caller [.lockspaceMarkStopped, .lockspaceMembers] node ++
            gathered caller members stopKernelLockspace node)) ++
          gathered caller (addCaller caller members)
            (joinKernelLockspace caller (addCaller caller members)) node := by
      simp [steps, joinLockspace]
    rw [split]
    apply pairwise_before_append
    · intro step member
      constructor <;> rintro rfl <;> simp [mem_alone, mem_gathered, stopKernelLockspace] at member
    · intro step member
      constructor <;> rintro rfl <;> simp [mem_gathered, mem_joinKernelLockspace] at member
  stops node stop := by
    have member : node ∈ members := by
      simpa [steps, joinLockspace, mem_alone, mem_gathered, stopKernelLockspace,
        mem_joinKernelLockspace] using stop
    left
    simp [steps, joinLockspace, mem_gathered, mem_addCaller, member, mem_joinKernelLockspace]
  skips node := by
    simp [joinLockspace, mem_alone, mem_gathered, mem_joinKernelLockspace]
  handlers := by simp [joinLockspace]
  marking := .inl (by simp [joinLockspace])

theorem proper_leaveResetting (caller : Node) : Proper (leaveResetting caller) where
  order node := by
    simp only [steps, leaveResetting, alone, map_cons, map_nil, flatten_singleton]
    split_ifs <;> simp [Before]
  stops node stop := by
    right
    simpa [steps, leaveResetting, mem_alone] using stop
  skips node := by simp [leaveResetting]
  handlers := by simp [leaveResetting]
  marking := .inl (by simp [leaveResetting])

theorem mem_leaveKernelLockspace : .lockspaceStart ∉ leaveKernelLockspace caller node ∧
      .ensureStopped ∉ leaveKernelLockspace caller node ∧
      .lockspaceStop ∉ leaveKernelLockspace caller node ∧
      .lockspaceMarkStopped ∉ leaveKernelLockspace caller node := by
  unfold leaveKernelLockspace
  split_ifs <;> simp

theorem proper_leaveMembers (caller : Node) (members : List Node) :
    Proper (leaveMembers caller members) where
  order node := by
    have split : steps (leaveMembers caller members) node =
        (alone caller [.create] node ++ (alone caller [.lockspaceMembers] node ++
          (gathered caller members stopKernelLockspace node ++
            (gathered caller members (leaveKernelLockspace caller) node ++
              alone caller (if caller ∈ members then [] else [.keyError]) node)))) ++
          gathered caller (members.filter (· ≠ caller)) startKernelLockspace node := by
      simp [steps, leaveMembers]
    rw [split]
    apply pairwise_before_append
    · intro step member
      constructor <;> rintro rfl <;>
        simp [mem_alone, mem_gathered, stopKernelLockspace, mem_leaveKernelLockspace] at member
    · intro step member
      constructor <;> rintro rfl <;> simp [mem_gathered, startKernelLockspace] at member
  stops node stop := by
    have member : node ∈ members := by
      simpa [steps, leaveMembers, mem_alone, mem_gathered, stopKernelLockspace,
        mem_leaveKernelLockspace, startKernelLockspace] using stop
    by_cases here : node = caller
    · right
      subst here
      simp [steps, leaveMembers, mem_gathered, member, leaveKernelLockspace]
    · left
      simp [steps, leaveMembers, mem_gathered, member, here, startKernelLockspace]
  skips node := by
    simp [leaveMembers, mem_alone, mem_gathered, mem_leaveKernelLockspace, startKernelLockspace]
  handlers := by simp [leaveMembers]
  marking := .inr fun node => by
    simp [steps, leaveMembers, mem_alone, mem_gathered, mem_leaveKernelLockspace,
      startKernelLockspace, stopKernelLockspace]

theorem proper_localRemovePeer (caller peer : Node) : Proper (localRemovePeer caller peer) where
  order node := by
    simp only [steps, localRemovePeer, alone, map_cons, map_nil, flatten_singleton]
    split_ifs <;> simp [Before]
  stops node stop := by
    left
    simpa [steps, localRemovePeer, mem_alone] using stop
  skips node := by simp [localRemovePeer]
  handlers := by simp [localRemovePeer]
  marking := .inl (by simp [localRemovePeer])

theorem proper_stages (caller : Node) (operation : Operation Node) :
    Proper (operation.stages caller) := by
  cases operation with
  | joinLockspace members => exact proper_joinLockspace caller members
  | leaveLockspace resetting members =>
    cases resetting with
    | false => exact proper_leaveMembers caller members
    | true => exact proper_leaveResetting caller
  | localRemovePeer peer => exact proper_localRemovePeer caller peer

theorem joins_of_mark {operation : Operation Node}
    (marked : .lockspaceMarkStopped ∈ steps (operation.stages caller) node) :
    (∃ members, operation = .joinLockspace members) ∧ node = caller := by
  cases operation with
  | joinLockspace members =>
    refine ⟨⟨members, rfl⟩, ?_⟩
    simpa [steps, Operation.stages, joinLockspace, mem_alone, mem_gathered, stopKernelLockspace,
      mem_joinKernelLockspace] using marked
  | leaveLockspace resetting members =>
    cases resetting <;>
      simp [steps, Operation.stages, leaveLockspace, leaveMembers, leaveResetting, mem_alone,
        mem_gathered, stopKernelLockspace, mem_leaveKernelLockspace, startKernelLockspace] at marked
  | localRemovePeer peer => simp [steps, Operation.stages, localRemovePeer, mem_alone] at marked

end Operations

end TruenasMiddleware.Dlm
