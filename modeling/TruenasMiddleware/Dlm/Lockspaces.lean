import TruenasMiddleware.Foundation.Gather

/-! `plugins/dlm.py` and `plugins/dlm_/kernel.py`: one lockspace on any number of controllers. An
operation stops the kernel lockspace on the members, changes the membership and starts it again,
with the calls to the nodes gathered. -/

namespace TruenasMiddleware.Dlm

open Gather

variable {Node : Type}

structure Lockspace (Node : Type) where
  /-- Its entry in `self.stopped`. -/
  stopped : Option Bool
  /-- Whether the last value written to `control` is 1; `none` for a lockspace to which nothing has
  been written. -/
  control : Option Bool
  /-- The directories under `nodes` of its configuration. -/
  nodes : List Node
  /-- `lockspace_leave` has removed the configuration. -/
  left : Bool

def Lockspace.isStopped (lockspace : Lockspace Node) : Bool :=
  lockspace.stopped.getD false

def Lockspace.running (lockspace : Lockspace Node) : Bool :=
  lockspace.control == some true

/-- The calls of which the tasks of an operation are made, on the node on which they run. -/
inductive Step (Node : Type)
  | create
  | lockspaceMarkStopped
  | lockspaceMembers
  /-- `failover.remote_connected`, before a call to another node. -/
  | remoteConnected
  | answer
  | lockspaceStop
  | lockspaceStart
  /-- "Ensure kernel lockspace is stopped". -/
  | ensureStopped
  | lockspaceSetGlobalId
  | lockspaceAddNode (node : Node)
  | lockspaceRemoveNode (node : Node)
  | lockspaceLeave
  | setSysfsEventDone (value : Nat)
  /-- `nodeIDs.remove` of a node that is not in the set. -/
  | keyError
  deriving DecidableEq

def Lockspace.stop (lockspace : Lockspace Node) : Lockspace Node :=
  if lockspace.isStopped then lockspace
  else { lockspace with control := some false, stopped := some true }

def Lockspace.start (lockspace : Lockspace Node) : Lockspace Node :=
  if lockspace.isStopped then { lockspace with control := some true, stopped := some false }
  else lockspace

variable [DecidableEq Node]

def runStep : Step Node → Lockspace Node → Option (Lockspace Node × Bool)
  | .lockspaceMarkStopped, lockspace => some ({ lockspace with stopped := some true }, true)
  | .lockspaceStop, lockspace => some (lockspace.stop, true)
  | .lockspaceStart, lockspace => some (lockspace.start, true)
  | .ensureStopped, lockspace => some (lockspace, lockspace.isStopped)
  | .lockspaceAddNode node, lockspace =>
    some ({ lockspace with nodes := node :: lockspace.nodes.filter (· ≠ node) }, true)
  | .lockspaceRemoveNode node, lockspace =>
    some ({ lockspace with nodes := lockspace.nodes.filter (· ≠ node) }, true)
  | .lockspaceLeave, lockspace =>
    some ({ lockspace with nodes := [], stopped := none, left := true }, true)
  | .keyError, _ => none
  | .create, lockspace | .lockspaceMembers, lockspace | .remoteConnected, lockspace
  | .answer, lockspace | .lockspaceSetGlobalId, lockspace | .setSysfsEventDone _, lockspace =>
    some (lockspace, true)

/-- The rules of the calls that the node `caller` gathers. -/
def rules (caller : Node) : Rules Node (Step Node) (Lockspace Node) where
  caller := caller
  run := runStep
  connects step := step = .remoteConnected

section Operations

variable (caller : Node)

def alone (steps : List (Step Node)) (node : Node) : List (Step Node) :=
  if node = caller then steps else []

def gathered (members : List Node) (call : Node → List (Step Node)) (node : Node) :
    List (Step Node) :=
  if node ∈ members then
    if node = caller then call node else .remoteConnected :: call node ++ [.answer]
  else []

def stopKernelLockspace (_ : Node) : List (Step Node) := [.lockspaceStop]

def startKernelLockspace (_ : Node) : List (Step Node) := [.lockspaceStart]

def joinKernelLockspace (joining : Node) (nodeIDs : List Node) (node : Node) : List (Step Node) :=
  if node = joining then
    .ensureStopped :: .lockspaceSetGlobalId :: nodeIDs.map .lockspaceAddNode ++
      [.lockspaceStart, .setSysfsEventDone 0]
  else [.ensureStopped, .lockspaceAddNode joining, .lockspaceStart]

def leaveKernelLockspace (leaving node : Node) : List (Step Node) :=
  if node = leaving then [.lockspaceLeave, .setSysfsEventDone 0]
  else [.lockspaceRemoveNode leaving]

def addCaller (members : List Node) : List Node :=
  if caller ∈ members then members else caller :: members

/-- `join_lockspace`, where `dlm.lockspace_members` returns `members`. -/
def joinLockspace (members : List Node) : List (Stage Node (Step Node)) :=
  let nodeIDs := addCaller caller members
  let handler := [.setSysfsEventDone 1]
  [⟨alone caller [.create], []⟩, ⟨alone caller [.lockspaceMarkStopped, .lockspaceMembers], handler⟩,
    ⟨gathered caller members stopKernelLockspace, handler⟩,
    ⟨gathered caller nodeIDs (joinKernelLockspace caller nodeIDs), handler⟩]

def leaveResetting : List (Stage Node (Step Node)) :=
  [⟨alone caller [.create, .lockspaceStop, .lockspaceLeave, .setSysfsEventDone 0], []⟩]

def leaveMembers (members : List Node) : List (Stage Node (Step Node)) :=
  let handler := [.lockspaceStart, .setSysfsEventDone 1]
  [⟨alone caller [.create], []⟩, ⟨alone caller [.lockspaceMembers], handler⟩,
    ⟨gathered caller members stopKernelLockspace, handler⟩,
    ⟨gathered caller members (leaveKernelLockspace caller), handler⟩,
    ⟨alone caller (if caller ∈ members then [] else [.keyError]), handler⟩,
    ⟨gathered caller (members.filter (· ≠ caller)) startKernelLockspace, handler⟩]

def leaveLockspace (resetting : Bool) (members : List Node) : List (Stage Node (Step Node)) :=
  if resetting then leaveResetting caller else leaveMembers caller members

def localRemovePeer (peer : Node) : List (Stage Node (Step Node)) :=
  [⟨alone caller [.lockspaceStop, .lockspaceRemoveNode peer, .lockspaceStart], []⟩]

inductive Operation (Node : Type)
  | joinLockspace (members : List Node)
  | leaveLockspace (resetting : Bool) (members : List Node)
  | localRemovePeer (peer : Node)

def Operation.stages : Operation Node → List (Stage Node (Step Node))
  | .joinLockspace members => Dlm.joinLockspace caller members
  | .leaveLockspace resetting members => Dlm.leaveLockspace caller resetting members
  | .localRemovePeer peer => Dlm.localRemovePeer caller peer

end Operations

end TruenasMiddleware.Dlm
