import StorageHealth.Plan

/-!
# Timers

A clock shows moments up to a last one, so a moment that lies too far ahead cannot be named, and a
timer that is to tick again and again needs a period.  Whoever sets a timer against these rules does
not get any further: there is no other way out than a `TimerFault`.

The sweeper ticks for the first time as soon as its timer is set.  Whatever looks after objects sets
a timer that ticks for the first time after one period, and the slot of a volume that is checked
opens again one interval later.
-/

namespace StorageHealth

/-- How far a clock reaches: the last moment that it can show, in nanoseconds. -/
structure Clock where
  last : Nat
  deriving DecidableEq, Repr

/-- Why a timer cannot be set. -/
inductive TimerFault where
  | noPeriod
  | beyondClock
  deriving DecidableEq, Repr

namespace Clock

/-- A clock that counts seconds in a signed word of 64 bits, and nanoseconds within the second. -/
def signed64 : Clock := ⟨9223372036854775807 * Span.nanosPerSecond + 999999999⟩

/-- The moment that lies a span ahead of another. -/
def ahead (k : Clock) (now : Nat) (length : Span) : Except TimerFault Nat :=
  if now + length.nanos ≤ k.last then .ok (now + length.nanos) else .error .beyondClock

end Clock

/-- A timer that ticks at a first moment and after every further period. -/
structure Ticker where
  first : Nat
  period : Span
  deriving DecidableEq, Repr

namespace Ticker

/-- Sets a timer that ticks for the first time at a moment. -/
def startingAt (first : Nat) (period : Span) : Except TimerFault Ticker :=
  if period.nanos = 0 then .error .noPeriod else .ok ⟨first, period⟩

/-- Sets a timer that ticks for the first time after one period. -/
def startingAfter (k : Clock) (now : Nat) (period : Span) : Except TimerFault Ticker := do
  startingAt (← k.ahead now period) period

end Ticker

/-- Sets the timer of a duty, if the duty has one. -/
def Duty.ticker (k : Clock) (c : Conduct) (now : Nat) : Duty → Except TimerFault (Option Ticker)
  | .feed _ => .ok none
  | .sweep => (Ticker.startingAt now c.sweepInterval).map some
  | .care objects =>
    match objects.resync c with
    | none => .ok none
    | some period => (Ticker.startingAfter k now period).map some

/-- Takes the slot of a volume if it is open, on a clock that may not reach the moment at which the
slot opens again. -/
def Slots.claimOn (k : Clock) (s : Slots) (v : Volume) (now : Nat) (interval : Span) :
    Except TimerFault (Slots × Option Span) :=
  match s.closedFor v now with
  | some left => .ok (s, some left)
  | none => do
    let opens ← k.ahead now interval
    return (Table.insert s (nameOf v) ⟨uidOf v, opens⟩, none)

end StorageHealth
