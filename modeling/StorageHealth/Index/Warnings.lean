import StorageHealth.Condition
import StorageHealth.Cluster.Informer

/-!
# The index of recent events

The events of the cluster, grouped by the object they are about, their type and their reason.  A
group is there as long as some event belongs to it.  A warning can be answered by a recovery; the
mark that remembers the answer hangs on the group of the warning and goes away with it.

Groups are named by the plain text `uid:type:reason`, events by `namespace/name`.
-/

namespace StorageHealth

/-- The name of a group of events. -/
def eventGroup (uid kind reason : String) : String := uid ++ ":" ++ kind ++ ":" ++ reason

namespace Event

/-- The group an event belongs to.  Events without a subject, a type or a reason belong to none. -/
def group? (e : Event) : Option String := do
  let uid ← e.subjectUid.filter (fun u => u ≠ "")
  return eventGroup uid (← e.kind) (← e.reason)

/-- The name of an event inside its group. -/
def member (e : Event) : String := (namespaceOf e).getD "" ++ "/" ++ nameOf e

end Event

/-- The groups with their events, as pairs, and the groups that were answered. -/
structure WarningIndex where
  entries : List (String × String)
  answered : List String
  deriving Repr

namespace WarningIndex

/-- The index without events. -/
def empty : WarningIndex := ⟨[], []⟩

instance : Inhabited WarningIndex := ⟨empty⟩

/-- Whether a group has an event. -/
def hasGroup (x : WarningIndex) (group : String) : Bool := x.entries.any (fun e => e.1 == group)

/-- Adds an event. -/
def insert (x : WarningIndex) (e : Event) : WarningIndex :=
  match e.group? with
  | none => x
  | some group => { x with entries := x.entries.insert (group, e.member) }

/-- Removes an event; a group that loses its last event loses its mark too. -/
def remove (x : WarningIndex) (e : Event) : WarningIndex :=
  match e.group? with
  | none => x
  | some group =>
    if x.hasGroup group then
      let x := { x with entries := x.entries.filter (fun p => p ≠ (group, e.member)) }
      if x.hasGroup group then x
      else { x with answered := x.answered.filter (fun g => g ≠ group) }
    else x

/-- Follows a change of an event; an update is a removal and an addition. -/
def follow (x : WarningIndex) : Change Event → WarningIndex
  | .added e => x.insert e
  | .updated old new => (x.remove old).insert new
  | .deleted e => x.remove e

/-- Whether an event of this severity and reason is there for a subject. -/
def contains (x : WarningIndex) (uid : String) (severity : Severity) (reason : Reason) : Bool :=
  x.hasGroup (eventGroup uid severity.label reason.label)

/-- The group of the warnings of a subject. -/
def warningGroup (uid : String) (reason : Reason) : String :=
  eventGroup uid Severity.warning.label reason.label

/-- Whether a warning is there for a subject that no recovery has answered. -/
def needsRecovery (x : WarningIndex) (uid : String) (reason : Reason) : Bool :=
  x.hasGroup (warningGroup uid reason) && !x.answered.contains (warningGroup uid reason)

/-- Remembers that the warning of a subject was answered; without a warning nothing happens. -/
def markRecovered (x : WarningIndex) (uid : String) (reason : Reason) : WarningIndex :=
  if x.hasGroup (warningGroup uid reason) then
    { x with answered := x.answered.insert (warningGroup uid reason) }
  else x

/-- Forgets that the warning of a subject was answered. -/
def clearRecovered (x : WarningIndex) (uid : String) (reason : Reason) : WarningIndex :=
  { x with answered := x.answered.filter (fun g => g ≠ warningGroup uid reason) }

end WarningIndex

end StorageHealth
