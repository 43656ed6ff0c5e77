import StorageHealth.Duty
import StorageHealth.Volume.Cycle
import StorageHealth.Pod.Cycle
import StorageHealth.Node.Cycle

/-!
# How objects are looked after

The rules for each kind of care: how many objects at once, how often all of them, which caches have
to be complete before it begins, and what is done with a single object.
-/

namespace StorageHealth

namespace Care

/-- How many objects are looked after at once; zero stands for any number. -/
def workers (c : Conduct) : Care → Nat
  | volumes => c.workers
  | pods _ => c.workers
  | nodes => 1

/-- The interval at which every object is looked after. -/
def resync (c : Conduct) : Care → Option Span
  | volumes => some c.volumeResync
  | pods _ => none
  | nodes => some c.nodeResync

/-- The caches that have to be complete before it begins: one group after the other, those of a
group at the same time. -/
def needs : Care → List (List Kind)
  | volumes => [[.claim]]
  | pods _ => [[.volume, .claim]]
  | nodes => [[.volume], [.claim]]

/-- The schedule an attempt ends with. -/
def scheduled {ε : Type} (failure : Schedule) (a : Attempt ε Schedule) : Process Schedule := do
  match ← a.run with
  | .ok s => return s
  | .error _ => return failure

/-- Looks after an object. -/
def cycle (c : Conduct) (now : Nat) : (care : Care) → care.kind.Object → Process Schedule
  | volumes, v => scheduled (Volume.afterFailure c) (Volume.cycle c now v)
  | pods _, p => scheduled (Pod.afterFailure c) (Pod.cycle c p)
  | nodes, n => scheduled (Node.afterFailure c) (Node.cycle c now n)

end Care

end StorageHealth
