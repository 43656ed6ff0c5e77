import StorageHealth.Cluster.Query

/-!
# Duties

What a monitor does all the time: it feeds caches from the cluster, sweeps over all volumes, or
takes care of the objects of one kind, each on its own schedule.
-/

namespace StorageHealth

/-- What is looked after one by one. -/
inductive Care where
  | volumes
  | pods (node : String)
  | nodes
  deriving DecidableEq, Repr

namespace Care

/-- The kind of the objects. -/
@[reducible] def kind : Care → Kind
  | volumes => .volume
  | pods _ => .pod
  | nodes => .node

/-- What is read from the cluster. -/
def query : Care → Query
  | volumes => .all .volume
  | pods node => .podsOn node
  | nodes => .all .node

/-- Only objects of the kind are asked for. -/
theorem kind_query (care : Care) : care.query.kind = care.kind := by
  cases care <;> rfl

end Care

/-- What a monitor does all the time. -/
inductive Duty where
  | feed (query : Query)
  | sweep
  | care (objects : Care)
  deriving DecidableEq, Repr

end StorageHealth
