import StorageHealth.Settings
import StorageHealth.Driver.Session
import StorageHealth.Driver.Address

/-!
# Starting up

A monitor judges its settings, connects to the driver, asks for the driver's name and for what it
can do, and only then turns to the cluster.  It goes no further than the first step that fails.

`Capabilities.controllerGap` and `Capabilities.nodeGap` name the first thing a driver lacks; without
a gap the role can do its work.
-/

namespace StorageHealth

/-! ### Gaps -/

/-- What a driver can lack. -/
inductive Gap where
  | controllerService
  | controllerCondition
  | volumeCalls
  | nodeCondition
  deriving DecidableEq, Repr

/-- The words for a gap. -/
def Gap.label : Gap → String
  | controllerService => "CONTROLLER_SERVICE"
  | controllerCondition => "controller VOLUME_CONDITION"
  | volumeCalls => "LIST_VOLUMES or GET_VOLUME"
  | nodeCondition => "node VOLUME_CONDITION"

namespace Capabilities

/-- The first thing a controller misses in a driver. -/
def controllerGap (c : Capabilities) : Option Gap :=
  if !c.controllerService then some .controllerService
  else if !c.controllerCondition then some .controllerCondition
  else if !c.supportsController then some .volumeCalls
  else Option.none

/-- What an agent misses in a driver. -/
def nodeGap (c : Capabilities) : Option Gap :=
  if c.supportsNode then Option.none else some .nodeCondition

/-- A controller can work exactly with the drivers that support monitoring. -/
theorem controllerGap_eq_none_iff (c : Capabilities) :
    c.controllerGap = Option.none ↔ c.supportsController = true := by
  rcases c with ⟨a, b, d, e, f, g⟩
  revert a b d e f g
  decide

end Capabilities

/-! ### Steps -/

/-- What can go wrong before a monitor works. -/
inductive StartupError where
  | settings (cause : SettingsError)
  | driver (cause : DriverError)
  | missingCapability (gap : Gap)
  | kubeconfig
  deriving DecidableEq, Repr

/-- The text of an error at start-up, where there is one. -/
def StartupError.message : StartupError → Option String
  | settings cause => some cause.message
  | driver cause => cause.message
  | missingCapability gap => some ("driver does not support " ++ gap.label)
  | kubeconfig => none

/-- A driver as a starting monitor learns to know it. -/
structure KnownDriver where
  name : String
  capabilities : Capabilities
  deriving DecidableEq, Repr

/-- Asks a driver for its name and then for what it can do. -/
def Talk.introduce (ask : Talk Capabilities) : Talk KnownDriver := do
  let name ← driverName
  return ⟨name, ← ask⟩

/-- What starting up comes to, and the requests it sent. -/
structure Startup where
  result : Except StartupError KnownDriver
  sent : List Request

namespace Startup

/-- The world a monitor starts in: where a driver listens, what it replies, and which
configurations of the cluster can be read. -/
structure Surroundings where
  socket : String
  replies : List Reply
  readable : Option String → Bool

/-- The steps after the settings were judged. -/
def meet (world : Surroundings) (common : CommonSettings) (ask : Talk Capabilities)
    (gap : Capabilities → Option Gap) : Startup :=
  match Address.connect world.socket common.address with
  | .error e => ⟨.error (.driver e), []⟩
  | .ok () =>
    let x := Talk.introduce ask world.replies
    let result := match x.result with
      | .error e => .error (.driver e)
      | .ok known =>
        match gap known.capabilities with
        | some g => .error (.missingCapability g)
        | none => if world.readable common.kubeconfig then .ok known else .error .kubeconfig
    ⟨result, x.sent⟩

/-- Starts a controller. -/
def controller (world : Surroundings) (s : ControllerSettings) : Startup :=
  match s.check with
  | .error e => ⟨.error (.settings e), []⟩
  | .ok () => meet world s.common Talk.controllerCapabilities Capabilities.controllerGap

/-- Starts an agent. -/
def agent (world : Surroundings) (s : AgentSettings) : Startup :=
  match s.check with
  | .error e => ⟨.error (.settings e), []⟩
  | .ok () => meet world s.common Talk.nodeCapabilities Capabilities.nodeGap

end Startup

end StorageHealth
