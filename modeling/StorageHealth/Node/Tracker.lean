import StorageHealth.Table
import StorageHealth.Cluster.Object

/-!
# Tracking broken nodes

A node that is terminated, or that was seen not ready for longer than a threshold, is broken.  The
tracker remembers since when each node is not ready and which nodes were marked as failed, and
says after each observation what has to be done.

A terminated node needs no waiting and leaves no trace by being observed; only a successful
marking is remembered.  A clock that runs backwards counts as standing still.
-/

namespace StorageHealth

/-- What has to be done after a node was observed. -/
inductive NodeAction where
  | nothing
  | markFailed
  | notifyRecovered
  deriving DecidableEq, Repr

/-- The word for an action. -/
def NodeAction.label : NodeAction → String
  | .nothing => "Nothing"
  | .markFailed => "MarkFailed"
  | .notifyRecovered => "NotifyRecovered"

/-- When nodes were first seen not ready, and the nodes that were marked as failed.  Times and the
threshold are in the same unit. -/
structure NodeTracker where
  threshold : Nat
  notReadySince : Table String Nat
  down : List String

namespace NodeTracker

/-- A tracker that has seen no node. -/
def fresh (threshold : Nat) : NodeTracker := ⟨threshold, Table.empty, []⟩

instance : Inhabited NodeTracker := ⟨fresh 0⟩

/-- Whether a node was marked as failed. -/
def isMarkedDown (t : NodeTracker) (node : String) : Bool := t.down.contains node

/-- Whether a node is being waited for. -/
def isPending (t : NodeTracker) (node : String) : Bool := t.notReadySince.contains node

/-- Takes note of a node at a time, and says what to do. -/
def observe (t : NodeTracker) (node : Node) (now : Nat) : NodeTracker × NodeAction :=
  let name := nameOf node
  if node.isReady then
    ({ t with notReadySince := t.notReadySince.erase name },
      if t.isMarkedDown name then .notifyRecovered else .nothing)
  else if node.isTerminated then (t, .markFailed)
  else
    match t.notReadySince.get? name with
    | some since => (t, if t.threshold < now - since then .markFailed else .nothing)
    | none => ({ t with notReadySince := t.notReadySince.insert name now }, .nothing)

/-- Remembers that a node was marked as failed. -/
def marked (t : NodeTracker) (node : String) : NodeTracker :=
  { t with notReadySince := t.notReadySince.erase node, down := t.down.insert node }

/-- Remembers that the recovery of a node was announced. -/
def recovered (t : NodeTracker) (node : String) : NodeTracker :=
  { t with down := t.down.filter (fun n => n ≠ node) }

/-- Forgets a node altogether. -/
def forget (t : NodeTracker) (node : String) : NodeTracker :=
  { t with
    notReadySince := t.notReadySince.erase node, down := t.down.filter (fun n => n ≠ node) }

end NodeTracker

end StorageHealth
