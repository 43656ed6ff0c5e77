import StorageHealth.Process

/-!
# A scripted driver and a scripted sink

In a simulation the driver answers from a script: for each handle a condition, a delay and whether
the call fails, and a delay and a failure that count for every call.  What a call comes to is
decided when it is made.  A listing ignores the handles' own delays and failures; when it arrives it
has all conditions that are set by then.

The sink takes events until it is told to refuse them, all or the next few.
-/

namespace StorageHealth

namespace Simulation

/-! ### The driver -/

/-- What the driver says about a handle. -/
structure Scripted where
  condition : Option Condition
  delay : Span
  fails : Bool
  deriving Repr

/-- A driver that follows a script. -/
structure DriverScript where
  known : Table String Scripted
  delay : Span
  fails : Bool

namespace DriverScript

/-- A driver that was told nothing. -/
def silent : DriverScript := ⟨Table.empty, ⟨0⟩, false⟩

/-- The name the driver gives its calls. -/
def callName : String := "fake"

/-- The error of a call that fails. -/
def failure : DriverError := .failedCall callName unknownCode none

/-- The conditions that are set. -/
def conditions (d : DriverScript) : Conditions :=
  d.known.entries.foldl (fun (known : Conditions) e =>
    match e.2.condition with
    | some c => Table.insert known e.1 c
    | none => known) Table.empty

/-- What a listing comes to; an answer has the conditions that are set when it arrives. -/
def listing (d : DriverScript) : Timed (DriverScript → Conditions) :=
  ⟨d.delay, if d.fails then .failed failure else .answered conditions⟩

/-- What a call about a handle comes to. -/
def probe (d : DriverScript) (handle : String) : Timed Condition :=
  let entry := (d.known.get? handle).getD ⟨none, ⟨0⟩, false⟩
  let outcome : Outcome Condition :=
    if d.fails || entry.fails then .failed failure
    else
      match entry.condition with
      | some c => .answered c
      | none => .failed (.missingCondition callName)
  ⟨⟨d.delay.nanos + entry.delay.nanos⟩, outcome⟩

end DriverScript

/-! ### The sink -/

/-- Where events go. -/
structure Sink where
  refusesAll : Bool
  refusals : Nat
  deriving Repr

namespace Sink

/-- A sink that takes everything. -/
def willing : Sink := ⟨false, 0⟩

/-- The error of a refused event. -/
def refusal : PublishError := ⟨"ServiceError: event sink unavailable"⟩

/-- Hands an event to the sink: the sink afterwards, and whether it took the event. -/
def receive (s : Sink) : Sink × Except PublishError Unit :=
  if s.refusesAll then (s, .error refusal)
  else if 0 < s.refusals then ({ s with refusals := s.refusals - 1 }, .error refusal)
  else (s, .ok ())

end Sink

end Simulation

end StorageHealth
