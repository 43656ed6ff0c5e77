import StorageHealth.Simulation.Readiness
import StorageHealth.Check

/-!
# The sweeper

The sweeper waits until the caches of volumes and claims are complete and then sweeps all cached
volumes, at once and after every interval.  A sweep that takes longer than the interval does not
make ticks disappear: they are made up for one after the other.
-/

namespace StorageHealth

namespace Simulation

/-- What the sweeper does: wait for the caches, wait for the next tick, or sweep. -/
inductive Sweeper where
  | waiting (needs : List (List Kind))
  | ticking (next : Nat)
  | sweeping (next wakes : Nat) (rest : Rest (Except CheckError Nat))
  | ended

namespace Sweeper

/-- A sweeper that has just been started.  It needs the volumes first and then the claims. -/
def start : Sweeper := .waiting [[.volume], [.claim]]

/-- Sweeps for ticks that are due, the first of them at `next`. -/
def sweepFor (c : Conduct) : Nat → Nat → Stage → Stage × Sweeper
  | 0, next, s => (s, .ticking next)
  | ticks + 1, next, s =>
    let next := next + c.sweepInterval.nanos
    match settle (Check.sweepCached c).run s with
    | (s, .finished _) => sweepFor c ticks next s
    | (s, .waiting wakes rest) => (s, .sweeping next wakes rest)

/-- Sweeps for all ticks that are due. -/
def sweepDue (c : Conduct) (next : Nat) (s : Stage) : Stage × Sweeper :=
  if next ≤ s.now then sweepFor c ((s.now - next) / c.sweepInterval.nanos + 1) next s
  else (s, .ticking next)

/-- Serves the sweeper, which has this number as a task.  It does not get far without a positive
interval. -/
def wake (c : Conduct) (task : Nat) (called cancelled : Bool) (sweeper : Sweeper) (s : Stage) :
    Stage × Sweeper :=
  match sweeper with
  | .ended => (s, .ended)
  | .waiting needs =>
    if called then
      match askAll task needs s with
      | (s, .hopeless) => (s, .ended)
      | (s, .waiting needs) => (s, .waiting needs)
      | (s, .complete) =>
        if cancelled || c.sweepInterval.nanos = 0 then (s, .ended) else sweepDue c s.now s
    else (s, .waiting needs)
  | .ticking next => if cancelled then (s, .ended) else sweepDue c next s
  | .sweeping next wakes rest =>
    if wakes ≤ s.now then
      match settle (rest s) s with
      | (s, .waiting wakes rest) => (s, .sweeping next wakes rest)
      | (s, .finished _) => if cancelled then (s, .ended) else sweepDue c next s
    else (s, .sweeping next wakes rest)

/-- When the sweeper has to be served. -/
def due : Sweeper → List Nat
  | .ticking next => [next]
  | .sweeping _ wakes _ => [wakes]
  | _ => []

end Sweeper

end Simulation

end StorageHealth
