import StorageHealth.Simulation.Script
import StorageHealth.Simulation.Server

/-!
# Processes on a virtual clock

The `Stage` is what processes act on: the clock, the monitor, the scripts of the driver and the
sink, and a record of what happened.  `settle` runs a process until it is finished or has to wait;
an effect that takes no time does not make it wait.  What a process goes on with may depend on the
stage it finds after the wait (`Rest`).

Times are in nanoseconds since the start.
-/

namespace StorageHealth

namespace Simulation

/-! ### The record -/

/-- What the driver was asked. -/
inductive Asked where
  | listing
  | probe (call : Call)
  deriving DecidableEq, Repr

/-- The changes of one kind that a single watch event made. -/
structure Batch where
  kind : Kind
  changes : List (Change kind.Object)

/-- What happened, each in order. -/
structure Record where
  asked : Array Asked
  published : Array Notice
  refused : Nat
  batches : Array Batch
  reads : Array Read

/-- The record of nothing. -/
def Record.blank : Record := ⟨#[], #[], 0, #[], #[]⟩

/-! ### The stage -/

/-- What processes act on.  `dropped` has the kinds whose caches nobody fills any more, `callbacks`
the task that each incomplete cache calls when that changes. -/
structure Stage where
  now : Nat
  monitor : Monitor
  dropped : List Kind
  callbacks : Table Kind Nat
  driver : DriverScript
  sink : Sink
  record : Record

namespace Stage

/-- Takes note of a call. -/
def noteCall (s : Stage) (a : Asked) : Stage :=
  { s with record := { s.record with asked := s.record.asked.push a } }

/-- Takes note of a read. -/
def noteRead (s : Stage) (r : Read) : Stage :=
  { s with record := { s.record with reads := s.record.reads.push r } }

/-- Hands an event to the sink. -/
def publish (s : Stage) (n : Notice) : Stage × Except PublishError Unit :=
  let (sink, result) := s.sink.receive
  let record := match result with
    | .ok () => { s.record with published := s.record.published.push n }
    | .error _ => { s.record with refused := s.record.refused + 1 }
  ({ s with sink, record }, result)

/-- Lets the monitor take in watch events in the background. -/
def observe (s : Stage) (k : Kind) (events : List (WatchEvent k.Object)) : Stage :=
  let (monitor, changes) := s.monitor.observeAll k events
  let batches := if changes.isEmpty then s.record.batches else s.record.batches.push ⟨k, changes⟩
  { s with monitor, record := { s.record with batches } }

/-- Answers an effect: the stage afterwards, how long the answer takes, and what it is on the stage
on which it arrives. -/
def answer (s : Stage) : (e : Effect) → Stage × Span × (Stage → e.Answer)
  | .update change => ({ s with monitor := change s.monitor }, ⟨0⟩, fun _ => s.monitor)
  | .listing deadline =>
    let t := s.driver.listing.within deadline
    (s.noteCall .listing, t.wait, fun later => t.outcome.map (fun list => list later.driver))
  | .probe call deadline =>
    let t := (s.driver.probe call.handle).within deadline
    (s.noteCall (.probe call), t.wait, fun _ => t.outcome)
  | .publish notice =>
    let (s, result) := s.publish notice
    (s, ⟨0⟩, fun _ => result)
  | .pause length => (s, length, fun _ => ())

/-- Whether the cache of a kind is complete. -/
def isReady (s : Stage) (k : Kind) : Bool := (s.monitor.caches.get k).ready

end Stage

/-! ### Running -/

/-- What is left of a process that waits. -/
abbrev Rest (α : Type) := Stage → Process α

/-- How far a process has come. -/
inductive Status (α : Type) where
  | finished (result : α)
  | waiting (wakes : Nat) (rest : Rest α)

/-- Runs a process until it is finished or has to wait. -/
def settle {α : Type} : Process α → Stage → Stage × Status α
  | .done a, s => (s, .finished a)
  | .ask e next, s =>
    let (s, wait, answer) := s.answer e
    if wait.nanos = 0 then settle (next (answer s)) s
    else (s, .waiting (s.now + wait.nanos) (fun later => next (answer later)))

/-- The clock of timers ticks once a millisecond, so nothing is repeated sooner. -/
def tick : Nat := (Span.ofMillis 1).nanos

/-- The time at which something is repeated after a delay. -/
def again (now : Nat) (delay : Span) : Nat := now + max delay.nanos tick

end Simulation

end StorageHealth
