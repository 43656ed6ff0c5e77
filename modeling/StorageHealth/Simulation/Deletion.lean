import StorageHealth.Simulation.Stage
import StorageHealth.Node.Cycle

/-!
# Deleted nodes

The claims on a deleted node are warned in rounds until a round succeeds.  Between rounds there is a
rest; being told to stop ends the rest for good, but not a round that has begun.
-/

namespace StorageHealth

namespace Simulation

/-- What the handling of a deleted node does: start a round, go on with it, rest, or nothing
more. -/
inductive Deletion.Phase where
  | starting
  | inRound (wakes : Nat) (rest : Rest Bool)
  | resting (wakes : Nat)
  | ended

/-- The handling of a deleted node. -/
structure Deletion where
  node : String
  phase : Deletion.Phase

namespace Deletion

/-- Goes on with a round. -/
def goOn (c : Conduct) (cancelled : Bool) (p : Process Bool) (s : Stage) : Stage × Phase :=
  match settle p s with
  | (s, .waiting wakes rest) => (s, .inRound wakes rest)
  | (s, .finished true) => (s, .ended)
  | (s, .finished false) => (s, if cancelled then .ended else .resting (again s.now c.retryDelay))

/-- Serves the handling of a deleted node. -/
def wake (c : Conduct) (cancelled : Bool) (d : Deletion) (s : Stage) : Stage × Deletion :=
  let (s, phase) := match d.phase with
    | .starting => goOn c cancelled (Node.deletionRound c d.node) s
    | .inRound wakes rest =>
      if wakes ≤ s.now then goOn c cancelled (rest s) s else (s, d.phase)
    | .resting wakes =>
      if cancelled then (s, .ended)
      else if wakes ≤ s.now then goOn c cancelled (Node.deletionRound c d.node) s
      else (s, d.phase)
    | .ended => (s, .ended)
  (s, { d with phase })

/-- When it has to be served. -/
def due (d : Deletion) : List Nat :=
  match d.phase with
  | .inRound wakes _ => [wakes]
  | .resting wakes => [wakes]
  | _ => []

end Deletion

end Simulation

end StorageHealth
