/-!
# Capabilities of a driver

What a storage driver says it can do, as far as the monitor cares, and what follows for the way in
which volumes are checked.
-/

namespace StorageHealth

/-- What a driver can do. -/
structure Capabilities where
  controllerService : Bool
  listVolumes : Bool
  getVolume : Bool
  controllerCondition : Bool
  nodeCondition : Bool
  stageUnstage : Bool
  deriving DecidableEq, Repr

namespace Capabilities

/-- A driver that can do nothing. -/
def none : Capabilities := ⟨false, false, false, false, false, false⟩

instance : Inhabited Capabilities := ⟨none⟩

/-- Whether volumes can be monitored from the controller: the driver needs a controller service,
conditions in its answers, and one of the two calls that carry them. -/
def supportsController (c : Capabilities) : Bool :=
  c.controllerService && (c.listVolumes || c.getVolume) && c.controllerCondition

/-- Whether volumes can be monitored on their node. -/
def supportsNode (c : Capabilities) : Bool := c.nodeCondition

end Capabilities

/-- How the controller checks volumes: one sweep over a listing, or one call for each volume. -/
inductive CheckMode where
  | batch
  | perVolume
  deriving DecidableEq, Repr

namespace CheckMode

/-- The word for a mode. -/
def label : CheckMode → String
  | batch => "Batch"
  | perVolume => "PerVolume"

/-- Listings are preferred. -/
def ofCapabilities (c : Capabilities) : CheckMode := if c.listVolumes then batch else perVolume

end CheckMode

end StorageHealth
