import StorageHealth.Table
import StorageHealth.Url
import StorageHealth.Condition
import StorageHealth.Cluster.Object

/-!
# Publishing events

Health events are written to the cluster by a publisher that remembers what it has written.  The
first event of a severity and a reason about a subject is created; publishing the same again
patches the event that was created, with a count of how often it was seen.  The note is not part of
what makes two events the same, so a patch repeats the first note.

A write needs a path that can stand in a URL (`Publisher.sends`); without one nothing is sent.
What is not sent, or what the cluster refuses, is not remembered.
-/

namespace StorageHealth

/-! ### Events and writes -/

/-- An event as it is written. -/
structure WrittenEvent where
  name : String
  ns : Option String
  severity : Severity
  reason : Reason
  note : String
  regarding : Subject
  controller : String
  host : String
  count : Option Nat
  deriving DecidableEq, Repr

namespace WrittenEvent

/-- What the monitor is doing when it publishes an event. -/
def action : String := "HealthCheck"

/-- The interface of the cluster that events belong to. -/
def apiVersion : String := "events.k8s.io/v1"

end WrittenEvent

/-- How an event is written. -/
inductive WriteKind where
  | create
  | patch
  deriving DecidableEq, Repr

/-- The verb for a way of writing. -/
def WriteKind.verb : WriteKind → String
  | .create => "POST"
  | .patch => "PATCH"

/-- A write to the cluster. -/
structure Write where
  kind : WriteKind
  path : String
  event : WrittenEvent
  deriving DecidableEq, Repr

/-! ### Publishing -/

/-- Which events count as the same. -/
structure EventClass where
  severity : Severity
  reason : Reason
  subject : Subject
  deriving DecidableEq, Repr

/-- What is to be published. -/
structure Notice where
  subject : Subject
  severity : Severity
  reason : Reason
  note : String
  deriving DecidableEq, Repr

/-- The class of the event that a notice asks for. -/
def Notice.eventClass (n : Notice) : EventClass := ⟨n.severity, n.reason, n.subject⟩

/-- The names under which events are published, and the last event of each class. -/
structure Publisher where
  controller : String
  host : String
  kept : Table EventClass WrittenEvent

namespace Publisher

/-- The name of the controller as it reports events. -/
def controllerTitle : String := "csi-pv-monitor-controller"

/-- The name of the node agent as it reports events. -/
def agentTitle : String := "csi-pv-monitor-agent"

/-- A publisher for a driver.  Without a host name it is its own host. -/
def start (title driver : String) (host : Option String) : Publisher :=
  let controller := title ++ "-" ++ driver
  ⟨controller, host.getD controller, Table.empty⟩

/-- Where the events about a subject are kept; subjects without a namespace use the default one. -/
def collection (s : Subject) : String :=
  "/apis/" ++ WrittenEvent.apiVersion ++ "/namespaces/" ++ s.ns.getD "default" ++ "/events"

/-- A new event for a notice.  It is named after its subject, or after the controller when the
subject has no name. -/
def newEvent (p : Publisher) (n : Notice) : WrittenEvent :=
  { name := n.subject.name.getD p.controller
    ns := n.subject.ns
    severity := n.severity
    reason := n.reason
    note := n.note
    regarding := n.subject
    controller := p.controller
    host := p.host
    count := none }

/-- An event that was seen once more. -/
def repeated (e : WrittenEvent) : WrittenEvent := { e with count := some (e.count.getD 1 + 1) }

/-- The event to write for a notice. -/
def nextEvent (p : Publisher) (n : Notice) : WrittenEvent :=
  match p.kept.get? n.eventClass with
  | some e => repeated e
  | none => p.newEvent n

/-- The path at which an event is written, as it is asked for: an event that was seen before stands
under its own name. -/
def target (s : Subject) (e : WrittenEvent) : String :=
  match e.count with
  | some _ => collection s ++ "/" ++ e.name
  | none => collection s

/-- How long the mark of the time is that every name ends with at the cluster: a point and sixteen
digits. -/
def markLength : Nat := 17

/-- Whether an event can be written at `target`: that must be a path, and short enough with the
mark of the time after a name and the `?` that every request ends with. -/
def sends (target : String) (e : WrittenEvent) : Bool :=
  let mark := if e.count.isSome then markLength else 0
  Url.isPathAndQuery target.toList && decide (target.utf8ByteSize + mark < Url.maxLength)

/-- The write for a notice.  A `?` or a `#` in a name cuts the path off. -/
def nextWrite (p : Publisher) (n : Notice) : Option Write :=
  let e := p.nextEvent n
  let target := target n.subject e
  if sends target e then
    some ⟨if e.count.isSome then .patch else .create, String.ofList (Url.path target.toList), e⟩
  else none

/-- Publishes a notice; `accepted` says what the cluster makes of the write.  The answer is the
write that was sent. -/
def publish (p : Publisher) (n : Notice) (accepted : Bool) : Publisher × Option Write :=
  match p.nextWrite n with
  | some w =>
    (if accepted then { p with kept := p.kept.insert n.eventClass w.event } else p, some w)
  | none => (p, none)

end Publisher

end StorageHealth
