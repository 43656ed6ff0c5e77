/-!
# Health conditions and the vocabulary of health events

A driver answers a probe with a `Condition`.  What the monitor makes of it is published as an
event that has a `Severity` and a `Reason`; both are written as fixed words.
-/

namespace StorageHealth

/-- What a driver says about one volume. -/
structure Condition where
  abnormal : Bool
  message : String
  deriving DecidableEq, Repr

namespace Condition

/-- The condition of a volume nobody complained about. -/
def silent : Condition := ⟨false, ""⟩

instance : Inhabited Condition := ⟨silent⟩

/-- Whether nothing at all is said. -/
def isSilent (c : Condition) : Bool := c == silent

/-- The note of every recovery event. -/
def recoveryMessage : String := "The Volume returns to the healthy state"

end Condition

/-- How serious an event is. -/
inductive Severity where
  | normal
  | warning
  deriving DecidableEq, Repr

/-- The word for a severity. -/
def Severity.label : Severity → String
  | .normal => "Normal"
  | .warning => "Warning"

/-- What an event is about. -/
inductive Reason where
  | volumeAbnormal
  | volumeNormal
  | nodeFailed
  | nodeRecovered
  deriving DecidableEq, Repr

/-- The word for a reason. -/
def Reason.label : Reason → String
  | .volumeAbnormal => "VolumeConditionAbnormal"
  | .volumeNormal => "VolumeConditionNormal"
  | .nodeFailed => "NodeFailed"
  | .nodeRecovered => "NodeRecovered"

/-- All severities. -/
def Severity.all : List Severity := [.normal, .warning]

/-- All reasons. -/
def Reason.all : List Reason := [.volumeAbnormal, .volumeNormal, .nodeFailed, .nodeRecovered]

/-- The severity that a word stands for. -/
def Severity.ofLabel? (s : String) : Option Severity := all.find? (fun x => x.label = s)

/-- The reason that a word stands for. -/
def Reason.ofLabel? (s : String) : Option Reason := all.find? (fun x => x.label = s)

theorem Severity.label_injective {a b : Severity} (h : a.label = b.label) : a = b := by
  cases a <;> cases b <;> first | rfl | exact absurd h (by decide)

theorem Reason.label_injective {a b : Reason} (h : a.label = b.label) : a = b := by
  cases a <;> cases b <;> first | rfl | exact absurd h (by decide)

theorem Severity.ofLabel?_label (a : Severity) : Severity.ofLabel? a.label = some a := by
  cases a <;> decide

theorem Reason.ofLabel?_label (a : Reason) : Reason.ofLabel? a.label = some a := by
  cases a <;> decide

end StorageHealth
