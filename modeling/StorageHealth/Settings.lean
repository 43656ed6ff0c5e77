import StorageHealth.Span
import StorageHealth.Text.Blank
import StorageHealth.MountPath

/-!
# Settings

What a monitor can be told.  There are two roles: the controller watches the volumes of a whole
cluster, the agent those that are mounted on its own node.  `ControllerSettings.check` and
`AgentSettings.check` say whether settings can be worked with.
-/

namespace StorageHealth

/-- What both roles are told. -/
structure CommonSettings where
  address : String
  timeout : Span
  monitorInterval : Span
  workers : Nat
  kubeconfig : Option String
  deriving DecidableEq, Repr

/-- What the controller is told. -/
structure ControllerSettings where
  common : CommonSettings
  sweepInterval : Span
  volumeResync : Span
  nodeResync : Span
  notReadyThreshold : Span
  watchNodes : Bool
  deriving DecidableEq, Repr

/-- What an agent is told. -/
structure AgentSettings where
  common : CommonSettings
  kubeletRoot : String
  nodeName : String
  deriving DecidableEq, Repr

/-- What can be wrong with settings. -/
inductive SettingsError where
  | noWorkers
  | missingNodeName
  deriving DecidableEq, Repr

/-- The text of a settings error. -/
def SettingsError.message : SettingsError → String
  | noWorkers => "--worker-threads must be greater than zero"
  | missingNodeName => "node name is required, set --node-name or NODE_NAME"

namespace CommonSettings

/-- What both roles do when nothing is said. -/
def default : CommonSettings :=
  ⟨"/run/csi/socket", .ofSeconds 15, .ofSeconds 60, 10, none⟩

instance : Inhabited CommonSettings := ⟨default⟩

/-- Somebody has to do the work. -/
def check (s : CommonSettings) : Except SettingsError Unit :=
  if s.workers = 0 then .error .noWorkers else .ok ()

end CommonSettings

namespace ControllerSettings

/-- What the controller does when nothing is said. -/
def default : ControllerSettings :=
  ⟨.default, .ofSeconds 300, .ofSeconds 300, .ofSeconds 300, .ofSeconds 300, false⟩

instance : Inhabited ControllerSettings := ⟨default⟩

/-- Whether a controller can work with the settings. -/
def check (s : ControllerSettings) : Except SettingsError Unit := s.common.check

end ControllerSettings

namespace AgentSettings

/-- What an agent does when nothing is said; only its surroundings may have named the node. -/
def default (nodeName : Option String) : AgentSettings :=
  ⟨.default, MountPath.defaultRoot, nodeName.getD ""⟩

instance : Inhabited AgentSettings := ⟨default none⟩

/-- Whether an agent can work with the settings; it has to know its node. -/
def check (s : AgentSettings) : Except SettingsError Unit := do
  s.common.check
  if Text.allBlank s.nodeName then .error .missingNodeName else .ok ()

end AgentSettings

end StorageHealth
