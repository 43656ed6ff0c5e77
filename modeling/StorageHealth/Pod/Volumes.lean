import StorageHealth.Monitor

/-!
# The volumes of a pod

A pod names claims, a bound claim names a volume.  `Pod.volumes` follows both steps through the
caches and keeps the volumes of the driver, in the order of the pod's own list.
-/

namespace StorageHealth

/-- A volume as one pod mounts it. -/
structure PodVolume where
  ns : String
  pod : String
  volume : String
  deriving DecidableEq, Repr

namespace PodVolume

/-- A pod's volume as text. -/
def display (x : PodVolume) : String := x.ns ++ "/" ++ x.pod ++ ":" ++ x.volume

/-- Whether all parts are named. -/
def isValid (x : PodVolume) : Bool := x.ns ≠ "" && x.pod ≠ "" && x.volume ≠ ""

end PodVolume

namespace Pod

/-- The namespace of a pod; a pod without one lives in the empty namespace. -/
def home (p : Pod) : String := (namespaceOf p).getD ""

/-- The volume behind a claim, if the claim is bound and the driver serves the volume. -/
def volumeBehind (c : Conduct) (m : Monitor) (ns claim : String) : Option String := do
  let claim ← m.claim? ⟨ns, claim⟩
  if claim.isBound then
    let name ← claim.boundVolume
    let volume ← m.volume? name
    if volume.isManagedBy c.driver then some name else none
  else none

/-- The volumes of the driver that a pod mounts. -/
def volumes (c : Conduct) (m : Monitor) (p : Pod) : List PodVolume :=
  p.claimNames.filterMap (fun claim =>
    (volumeBehind c m p.home claim).map (fun volume => ⟨p.home, nameOf p, volume⟩))

end Pod

end StorageHealth
