import StorageHealth.Cluster.Informer
import StorageHealth.Cluster.Caches
import StorageHealth.Index.Warnings
import StorageHealth.Index.Consumers
import StorageHealth.Node.Tracker
import StorageHealth.Volume.Slots
import StorageHealth.MountPath

/-!
# What a monitor knows

A monitor keeps a cache of every kind of object, two indices that follow the caches of events and
of pods, the check slots of volumes and the tracker of nodes.  `Monitor.observe` takes a watch event
in: the cache of its kind reports what changed, and the index that depends on it follows every
change at once.
-/

namespace StorageHealth

/-- How a monitor works.  `markAttempts` is how often marking the claims on a broken node is tried
in one go, `retryDelay` the pause in between. -/
structure Conduct where
  driver : String
  timeout : Span
  kubeletRoot : String
  stages : Bool
  monitorInterval : Span
  sweepInterval : Span
  volumeResync : Span
  nodeResync : Span
  notReadyThreshold : Span
  markAttempts : Nat
  retryDelay : Span
  workers : Nat
  deriving DecidableEq, Repr

/-- The conduct of a monitor that was told its driver and nothing else. -/
def Conduct.usual (driver : String) : Conduct where
  driver := driver
  timeout := .ofSeconds 15
  kubeletRoot := MountPath.defaultRoot
  stages := true
  monitorInterval := .ofSeconds 60
  sweepInterval := .ofSeconds 300
  volumeResync := .ofSeconds 300
  nodeResync := .ofSeconds 300
  notReadyThreshold := .ofSeconds 300
  markAttempts := 3
  retryDelay := .ofSeconds 1
  workers := 10

/-- Everything a monitor remembers. -/
structure Monitor where
  caches : ByKind Informer
  warnings : WarningIndex
  consumers : ConsumerIndex
  slots : Slots
  tracker : NodeTracker

namespace Monitor

/-- A monitor that has not seen anything. -/
def fresh (c : Conduct) : Monitor :=
  { caches := ⟨.fresh, .fresh, .fresh, .fresh, .fresh⟩
    warnings := .empty
    consumers := .empty
    slots := Table.empty
    tracker := .fresh c.notReadyThreshold.nanos }

instance : Inhabited Monitor := ⟨fresh ⟨"", ⟨0⟩, "", false, ⟨0⟩, ⟨0⟩, ⟨0⟩, ⟨0⟩, ⟨0⟩, 0, ⟨0⟩, 0⟩⟩

/-- The cached objects of a kind. -/
def cached (m : Monitor) (k : Kind) : Store k.Object := (m.caches.get k).store

/-- Lets the index that depends on a kind follow a change. -/
def follow (m : Monitor) : (k : Kind) → Change k.Object → Monitor
  | .event, change => { m with warnings := m.warnings.follow change }
  | .pod, change => { m with consumers := m.consumers.follow change }
  | _, _ => m

/-- Takes in a watch event about a kind: the monitor afterwards and what changed. -/
def observe (m : Monitor) (k : Kind) (e : WatchEvent k.Object) :
    Monitor × List (Change k.Object) :=
  let (informer, changes) := (m.caches.get k).observe e
  let m := { m with caches := m.caches.set k informer }
  (changes.foldl (fun m change => m.follow k change) m, changes)

/-- Takes in several watch events about a kind. -/
def observeAll (m : Monitor) (k : Kind) : List (WatchEvent k.Object) →
    Monitor × List (Change k.Object)
  | [] => (m, [])
  | e :: rest =>
    let (m, changes) := m.observe k e
    let (m, more) := m.observeAll k rest
    (m, changes ++ more)

/-! ### What watch events do to the indices -/

theorem foldl_follow_event (m : Monitor) (changes : List (Change Event)) :
    changes.foldl (fun m change => m.follow .event change) m =
      { m with warnings := changes.foldl WarningIndex.follow m.warnings } := by
  induction changes generalizing m with
  | nil => rfl
  | cons c rest ih => exact ih _

theorem foldl_follow_pod (m : Monitor) (changes : List (Change Pod)) :
    changes.foldl (fun m change => m.follow .pod change) m =
      { m with consumers := changes.foldl ConsumerIndex.follow m.consumers } := by
  induction changes generalizing m with
  | nil => rfl
  | cons c rest ih => exact ih _

/-- A watch event about an event: its cache takes it in, and the warnings follow. -/
theorem observe_event (m : Monitor) (e : WatchEvent Event) :
    m.observe .event e =
      ({ m with
          caches := m.caches.set .event (m.caches.events.observe e).1
          warnings := (m.caches.events.observe e).2.foldl WarningIndex.follow m.warnings },
        (m.caches.events.observe e).2) := by
  simp only [observe, foldl_follow_event]
  rfl

/-- A watch event about a pod: its cache takes it in, and the consumers follow. -/
theorem observe_pod (m : Monitor) (e : WatchEvent Pod) :
    m.observe .pod e =
      ({ m with
          caches := m.caches.set .pod (m.caches.pods.observe e).1
          consumers := (m.caches.pods.observe e).2.foldl ConsumerIndex.follow m.consumers },
        (m.caches.pods.observe e).2) := by
  simp only [observe, foldl_follow_pod]
  rfl

/-- The claim with this key. -/
def claim? (m : Monitor) (k : ClaimKey) : Option Claim :=
  m.caches.claims.store.lookup? (.within k.ns k.name)

/-- The volume of this name. -/
def volume? (m : Monitor) (name : String) : Option Volume :=
  m.caches.volumes.store.lookup? (.unscoped name)

end Monitor

end StorageHealth
