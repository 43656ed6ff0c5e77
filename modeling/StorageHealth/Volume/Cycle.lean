import StorageHealth.Check
import StorageHealth.Schedule

/-!
# Looking after a volume

A volume that is bound, belongs to the driver and is not being deleted is checked once per interval.
Every other volume is dropped until it changes.  A volume that is triggered while its slot is closed
is looked at again when the slot opens.
-/

namespace StorageHealth

namespace Volume

/-- Whether a volume is to be monitored. -/
def isMonitored (c : Conduct) (v : Volume) : Bool :=
  !isDeleting v && v.isManagedBy c.driver && v.isBound

/-- Looks after a volume. -/
def cycle (c : Conduct) (now : Nat) (v : Volume) : Attempt CheckError Schedule := do
  if v.isMonitored c then
    let before ← Process.perform (.update (fun m =>
      { m with slots := (m.slots.claim v now c.monitorInterval).1 }))
    match before.slots.closedFor v now with
    | some left => return .after left
    | none =>
      let _ ← Check.controller c v
      return .after c.monitorInterval
  else
    Process.change (fun m => { m with slots := m.slots.forget (nameOf v) })
    return .onChange

/-- When to look again after a failure. -/
def afterFailure (c : Conduct) : Schedule := .after c.monitorInterval

/-- A volume is gone for good. -/
def vanished (name : String) : Process Unit :=
  Process.change (fun m => { m with slots := m.slots.forget name })

end Volume

end StorageHealth
