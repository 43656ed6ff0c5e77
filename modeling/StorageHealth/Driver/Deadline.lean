import StorageHealth.Span
import StorageHealth.Driver.Session

/-!
# Deadlines

A driver takes its time.  `Timed` says what something comes to and how long that takes;
`Timed.within` is what is left of it under a deadline.  A part of a session takes as long as the
replies it uses (`Talk.timed`), so several calls under one deadline share it.
-/

namespace StorageHealth

/-- How something with a deadline ends. -/
inductive Outcome (α : Type) where
  | late
  | failed (cause : DriverError)
  | answered (answer : α)
  deriving Repr

/-- An outcome with another answer. -/
def Outcome.map {α β : Type} (f : α → β) : Outcome α → Outcome β
  | late => late
  | failed cause => failed cause
  | answered answer => answered (f answer)

/-- An outcome and how long it takes. -/
structure Timed (α : Type) where
  wait : Span
  outcome : Outcome α
  deriving Repr

namespace Timed

variable {α : Type}

/-- What is left of an outcome under a deadline.  Ending exactly at the deadline is in time. -/
def within (t : Timed α) (deadline : Span) : Timed α :=
  if t.wait.nanos ≤ deadline.nanos then t else ⟨deadline, .late⟩

/-- Nothing takes longer than its deadline. -/
theorem wait_within_le (t : Timed α) (deadline : Span) :
    (t.within deadline).wait.nanos ≤ deadline.nanos := by
  unfold within
  split
  · assumption
  · exact Nat.le_refl _

end Timed

/-- A reply and how long the driver takes for it. -/
structure TimedReply where
  wait : Span
  reply : Reply

/-- The outcome for a result. -/
def Outcome.ofResult {α : Type} : Except DriverError α → Outcome α
  | .ok a => answered a
  | .error e => failed e

/-- A part of a session with a driver that takes its time: one reply is waited for per request. -/
def Talk.timed {α : Type} (t : Talk α) (replies : List TimedReply) : Timed α :=
  let x := t (replies.map TimedReply.reply)
  let wait := (replies.take x.sent.length).foldl (fun n r => n + r.wait.nanos) 0
  ⟨⟨wait⟩, .ofResult x.result⟩

end StorageHealth
