import StorageHealth.Node.Outage
import StorageHealth.Schedule

/-!
# Looking after a node

Each observation of a node goes through the tracker, which says whether its claims have to be warned
or told that the node is back.  Warning is tried several times in one go; only when a pass succeeds
completely does the tracker take note of it.

A node that was deleted is warned about in rounds until one succeeds, and is then forgotten
(`Node.deletionRound`).
-/

namespace StorageHealth

namespace Node

/-- Warns the claims on a node and tries again up to `retries` times, with a pause before each. -/
def markWithRetries (c : Conduct) (node : String) : Nat → Attempt NodeError Unit
  | 0 => markFailed c node
  | retries + 1 => do
    let result ← ExceptT.lift (markFailed c node).run
    match result with
    | .ok () => return ()
    | .error _ =>
      Process.perform (.pause c.retryDelay)
      markWithRetries c node retries

/-- Warns the claims on a node as persistently as agreed; there is always one attempt. -/
def mark (c : Conduct) (node : String) : Attempt NodeError Unit :=
  markWithRetries c node (c.markAttempts - 1)

/-- Looks after a node. -/
def cycle (c : Conduct) (now : Nat) (n : Node) : Attempt NodeError Schedule := do
  let before ← Process.perform (.update (fun m =>
    { m with tracker := (m.tracker.observe n now).1 }))
  match (before.tracker.observe n now).2 with
  | .nothing => pure ()
  | .markFailed =>
    mark c (nameOf n)
    Process.change (fun m => { m with tracker := m.tracker.marked (nameOf n) })
  | .notifyRecovered =>
    notifyRecovered c (nameOf n)
    Process.change (fun m => { m with tracker := m.tracker.recovered (nameOf n) })
  return .after c.monitorInterval

/-- When to look again after a failure. -/
def afterFailure (c : Conduct) : Schedule := .after c.retryDelay

/-- One round of warning the claims on a deleted node; after a success the node is forgotten.  The
answer is whether the round succeeded. -/
def deletionRound (c : Conduct) (node : String) : Process Bool := do
  match ← (mark c node).run with
  | .ok () =>
    Process.change (fun m => { m with tracker := m.tracker.forget node })
    return true
  | .error _ => return false

end Node

end StorageHealth
