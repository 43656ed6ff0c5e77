import StorageHealth.Cluster.Object

/-!
# Queries to the cluster

What a monitor asks the cluster for: all objects of a kind, or only those that a selector lets
through.  Two selectors are in use, one for the pods of a node and one for the events about objects
of a kind.
-/

namespace StorageHealth

/-- A condition on the objects that are asked for. -/
inductive Selector where
  | onNode (node : String)
  | about (kind : String)
  deriving DecidableEq, Repr

namespace Selector

/-- A selector as text. -/
def shown : Selector → String
  | onNode node => "spec.nodeName=" ++ node
  | about kind => "involvedObject.kind=" ++ kind

/-- Whether an object is selected.  An absent field counts as empty, and a field that the kind does
not have selects nothing. -/
def selects (x : Selector) (k : Kind) (a : k.Object) : Bool :=
  match x, k with
  | onNode node, .pod => (Pod.nodeName a).getD "" == node
  | about kind, .event => (Event.subjectKind a).getD "" == kind
  | _, _ => false

end Selector

/-- What is asked for. -/
structure Query where
  kind : Kind
  selector : Option Selector
  deriving DecidableEq, Repr

namespace Query

/-- Everything of a kind. -/
def all (k : Kind) : Query := ⟨k, none⟩

/-- The pods of a node. -/
def podsOn (node : String) : Query := ⟨.pod, some (.onNode node)⟩

/-- The events about objects of a kind. -/
def eventsAbout (kind : String) : Query := ⟨.event, some (.about kind)⟩

/-- Whether an object is asked for. -/
def selects (q : Query) (k : Kind) (a : k.Object) : Bool :=
  q.kind = k && q.selector.all (fun x => x.selects k a)

/-- A query as text. -/
def shown (q : Query) : String :=
  match q.selector with
  | some x => q.kind.path ++ "?" ++ x.shown
  | none => q.kind.path

end Query

end StorageHealth
