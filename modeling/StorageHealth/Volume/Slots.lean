import StorageHealth.Span
import StorageHealth.Table
import StorageHealth.Cluster.Object

/-!
# Check slots

However often a volume is triggered, it is checked at most once per interval.  The slot of a volume
remembers when its next check may start.  A slot belongs to one incarnation of the volume: another
volume of the same name starts fresh.

`Slots.claim` either takes the slot, so that the check may start, or says how long it stays closed.
-/

namespace StorageHealth

/-- When the next check of a volume may start.  Times are in nanoseconds. -/
structure Slot where
  uid : Option String
  opens : Nat
  deriving DecidableEq, Repr

/-- The slots of the volumes under monitoring, by name. -/
abbrev Slots := Table String Slot

namespace Slots

/-- Whether a volume of this name is under monitoring. -/
def isTracked (s : Slots) (name : String) : Bool := Table.contains s name

/-- Ends the monitoring of a name. -/
def forget (s : Slots) (name : String) : Slots := Table.erase s name

/-- How long the slot of a volume stays closed, if it is closed. -/
def closedFor (s : Slots) (v : Volume) (now : Nat) : Option Span :=
  match Table.get? s (nameOf v) with
  | some slot => if slot.uid = uidOf v ∧ now < slot.opens then some ⟨slot.opens - now⟩ else none
  | none => none

/-- Takes the slot of a volume for an interval. -/
def take (s : Slots) (v : Volume) (now : Nat) (interval : Span) : Slots :=
  Table.insert s (nameOf v) ⟨uidOf v, now + interval.nanos⟩

/-- Takes the slot of a volume if it is open; the answer is how long it stays closed otherwise. -/
def claim (s : Slots) (v : Volume) (now : Nat) (interval : Span) : Slots × Option Span :=
  match s.closedFor v now with
  | some left => (s, some left)
  | none => (s.take v now interval, none)

/-- A slot that is closed stays closed for some time. -/
theorem closedFor_pos {s : Slots} {v : Volume} {now : Nat} {left : Span}
    (h : s.closedFor v now = some left) : 0 < left.nanos := by
  unfold closedFor at h
  split at h
  · split at h
    · rename_i hs
      cases h
      exact Nat.sub_pos_of_lt hs.2
    · cases h
  · cases h

end Slots

end StorageHealth
