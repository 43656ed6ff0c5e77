import StorageHealth.Care
import StorageHealth.Startup
import StorageHealth.Publisher

/-!
# What a started monitor does

When a monitor has met its driver, its settings and the driver's capabilities decide how it works:
the name it reports under, its conduct, and its duties.  A controller sweeps if the driver can list
and looks after volumes one by one otherwise; it looks after nodes only if it was told to.

`Plan.periods` has the intervals at which the duties tick.
-/

namespace StorageHealth

/-- What a started monitor does. -/
structure Plan where
  title : String
  conduct : Conduct
  duties : List Duty
  deriving DecidableEq, Repr

namespace Plan

/-- How often marking the claims on a broken node is tried in one go. -/
def markAttempts : Nat := 3

/-- The pause between two attempts. -/
def retryDelay : Span := .ofSeconds 1

/-- The duties of a controller that checks volumes in a mode. -/
def volumeDuties : CheckMode → List Duty
  | .perVolume => [.care .volumes]
  | .batch => [.feed (.all .volume), .sweep]

/-- The duties of a controller that also looks after nodes. -/
def nodeDuties : List Duty := [.feed (.all .pod), .care .nodes]

/-- What a controller does. -/
def controller (s : ControllerSettings) (known : KnownDriver) : Plan :=
  { title := Publisher.controllerTitle
    conduct :=
      { driver := known.name
        timeout := s.common.timeout
        kubeletRoot := MountPath.defaultRoot
        stages := false
        monitorInterval := s.common.monitorInterval
        sweepInterval := s.sweepInterval
        volumeResync := s.volumeResync
        nodeResync := s.nodeResync
        notReadyThreshold := s.notReadyThreshold
        markAttempts := markAttempts
        retryDelay := retryDelay
        workers := s.common.workers }
    duties :=
      [.feed (.all .claim), .feed (.eventsAbout "PersistentVolumeClaim")] ++
        volumeDuties (.ofCapabilities known.capabilities) ++
        (if s.watchNodes then nodeDuties else []) }

/-- What an agent does. -/
def agent (s : AgentSettings) (known : KnownDriver) : Plan :=
  { title := Publisher.agentTitle
    conduct :=
      { driver := known.name
        timeout := s.common.timeout
        kubeletRoot := s.kubeletRoot
        stages := known.capabilities.stageUnstage
        monitorInterval := s.common.monitorInterval
        sweepInterval := ⟨0⟩
        volumeResync := ⟨0⟩
        nodeResync := ⟨0⟩
        notReadyThreshold := ⟨0⟩
        markAttempts := markAttempts
        retryDelay := retryDelay
        workers := s.common.workers }
    duties :=
      [.feed (.all .volume), .feed (.all .claim), .feed (.eventsAbout "Pod"),
        .care (.pods s.nodeName)] }

/-- The interval at which a duty ticks, if it does. -/
def period (c : Conduct) : Duty → Option Span
  | .feed _ => none
  | .sweep => some c.sweepInterval
  | .care objects => objects.resync c

/-- The intervals at which the duties tick. -/
def periods (p : Plan) : List Span := p.duties.filterMap (period p.conduct)

/-- The calls a duty makes about volumes. -/
def calls : Duty → List Method
  | .feed _ => []
  | .sweep => [.listVolumes]
  | .care .volumes => [.getVolume]
  | .care (.pods _) => [.volumeStats]
  | .care .nodes => []

end Plan

end StorageHealth
