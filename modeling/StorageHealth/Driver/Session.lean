import StorageHealth.Table
import StorageHealth.Wire.Schema
import StorageHealth.Driver.Capabilities
import StorageHealth.Driver.Error

/-!
# Sessions with a driver

A session sends requests one after the other; each takes the next of the driver's replies.  A
reply is the body of a message or a status that is not success; a driver with nothing more to say
answers that the call is not implemented.

`Talk α` is a part of a session with the result `α`: what it makes of the replies, the requests it
sends, and the replies it leaves.  A part that fails ends there, but what it sent stays sent.
-/

namespace StorageHealth

open Wire

/-! ### Requests and replies -/

/-- The calls a monitor makes. -/
inductive Method where
  | pluginInfo
  | pluginCapabilities
  | controllerCapabilities
  | listVolumes
  | getVolume
  | nodeCapabilities
  | volumeStats
  deriving DecidableEq, Repr

/-- The path of a call. -/
def Method.path : Method → String
  | .pluginInfo => "/csi.v1.Identity/GetPluginInfo"
  | .pluginCapabilities => "/csi.v1.Identity/GetPluginCapabilities"
  | .controllerCapabilities => "/csi.v1.Controller/ControllerGetCapabilities"
  | .listVolumes => "/csi.v1.Controller/ListVolumes"
  | .getVolume => "/csi.v1.Controller/ControllerGetVolume"
  | .nodeCapabilities => "/csi.v1.Node/NodeGetCapabilities"
  | .volumeStats => "/csi.v1.Node/NodeGetVolumeStats"

/-- A request as it was sent. -/
structure Request where
  method : Method
  body : Bytes
  deriving DecidableEq, Repr

/-- What a driver answers.  A status of success without a message is no answer to a call. -/
inductive Reply where
  | body (content : Bytes)
  | status (code : Nat) (detail : String)
  deriving DecidableEq, Repr

/-- The answer of a driver with nothing more to say. -/
def Reply.exhausted : Reply := .status 12 "script exhausted"

/-- The code of a reply that holds no message. -/
def internalCode : Nat := 13

/-- The text for a status of success that came without a message. -/
def missingReply : String := "Missing response message."

/-- The code of a status that no other code fits. -/
def unknownCode : Nat := 2

/-- The message in a reply to `method`. -/
def Reply.decode {α : Type} [Message α] (method : Method) : Reply → Except DriverError α
  | .body content =>
    match Message.decode content with
    | some v => .ok v
    | none => .error (.failedCall method.path internalCode none)
  | .status 0 _ => .error (.failedCall method.path internalCode (some missingReply))
  | .status code detail =>
    .error (.failedCall method.path (if code < statusNames.length then code else unknownCode)
      (some detail))

/-! ### Talking -/

/-- What a part of a session comes to. -/
structure Exchange (α : Type) where
  result : Except DriverError α
  sent : List Request
  rest : List Reply

/-- A part of a session. -/
def Talk (α : Type) : Type := List Reply → Exchange α

namespace Talk

variable {α β : Type}

/-- Says nothing. -/
def pure (a : α) : Talk α := fun replies => ⟨.ok a, [], replies⟩

/-- Fails without saying anything. -/
def fail (e : DriverError) : Talk α := fun replies => ⟨.error e, [], replies⟩

/-- Goes on with what the first part found. -/
def bind (t : Talk α) (next : α → Talk β) : Talk β := fun replies =>
  let x := t replies
  match x.result with
  | .error e => ⟨.error e, x.sent, x.rest⟩
  | .ok a =>
    let y := next a x.rest
    ⟨y.result, x.sent ++ y.sent, y.rest⟩

instance : Monad Talk where
  pure := pure
  bind := bind

/-- Sends a request and opens the reply. -/
def call (method : Method) {req : Type} [Message req] (request : req) {α : Type} [Message α] :
    Talk α := fun replies =>
  ⟨(replies.headD .exhausted).decode method, [⟨method, Message.encode request⟩], replies.tail⟩

/-! ### What the monitor asks -/

/-- The name of the driver. -/
def driverName : Talk String := do
  let info : PluginInfo ← call .pluginInfo ({} : EmptyRequest)
  return info.name

/-- The feature that says that there is a controller service. -/
def controllerServiceFeature : Int32 := 1

/-- The features of a controller that matter. -/
def listVolumesFeature : Int32 := 3

@[inherit_doc listVolumesFeature]
def controllerConditionFeature : Int32 := 11

@[inherit_doc listVolumesFeature]
def getVolumeFeature : Int32 := 12

/-- The features of a node service that matter. -/
def stageUnstageFeature : Int32 := 1

@[inherit_doc stageUnstageFeature]
def nodeConditionFeature : Int32 := 4

/-- What the controller side can do.  A driver without a controller service is not asked further. -/
def controllerCapabilities : Talk Capabilities := do
  let plugin : CapabilityList ← call .pluginCapabilities ({} : EmptyRequest)
  if plugin.has controllerServiceFeature then
    let controller : CapabilityList ← call .controllerCapabilities ({} : EmptyRequest)
    return { Capabilities.none with
      controllerService := true
      listVolumes := controller.has listVolumesFeature
      getVolume := controller.has getVolumeFeature
      controllerCondition := controller.has controllerConditionFeature }
  else return Capabilities.none

/-- What the node side can do. -/
def nodeCapabilities : Talk Capabilities := do
  let node : CapabilityList ← call .nodeCapabilities ({} : EmptyRequest)
  return { Capabilities.none with
    stageUnstage := node.has stageUnstageFeature
    nodeCondition := node.has nodeConditionFeature }

/-- The condition in a reply, which must have one. -/
def requireCondition (method : Method) : Option Condition → Talk Condition
  | some c => pure c
  | none => fail (.missingCondition method.path)

/-- How a volume is, seen from the controller. -/
def controllerCondition (handle : String) : Talk Condition := do
  let reply : VolumeEntry ← call .getVolume (⟨handle⟩ : VolumeRequest)
  requireCondition .getVolume reply.condition

/-- How a volume is where it is mounted. -/
def nodeCondition (handle path staging : String) : Talk Condition := do
  let reply : StatsReply ← call .volumeStats (⟨handle, path, staging⟩ : StatsRequest)
  requireCondition .volumeStats reply.condition

end Talk

/-! ### Listings -/

/-- The conditions of volumes by handle. -/
abbrev Conditions := Table String Condition

namespace Conditions

/-- Takes up an entry of a listing.  Entries without a volume or a condition say nothing; later
entries overrule earlier ones. -/
def take (known : Conditions) (e : VolumeEntry) : Conditions :=
  match e.volume, e.condition with
  | some v, some c => Table.insert known v.id c
  | _, _ => known

/-- Takes up all entries of a page. -/
def takePage (known : Conditions) (p : ListPage) : Conditions := p.entries.foldl take known

end Conditions

namespace Talk

/-- The request for the page that starts with `token`. -/
def pageRequest (token : String) : Request :=
  ⟨.listVolumes, Message.encode (⟨0, token⟩ : ListRequest)⟩

/-- Asks for pages until one has no next token.  Every page takes a reply, so the replies bound
their number. -/
def pagesFrom (token : String) (known : Conditions) : Talk Conditions
  | [] => ⟨(Reply.exhausted.decode .listVolumes).map known.takePage, [pageRequest token], []⟩
  | reply :: rest =>
    match reply.decode .listVolumes with
    | .error e => ⟨.error e, [pageRequest token], rest⟩
    | .ok page =>
      let known := known.takePage page
      if page.nextToken = "" then ⟨.ok known, [pageRequest token], rest⟩
      else
        let x := pagesFrom page.nextToken known rest
        ⟨x.result, pageRequest token :: x.sent, x.rest⟩

/-- The conditions of all volumes the driver knows. -/
def listConditions : Talk Conditions := pagesFrom "" Table.empty

end Talk

end StorageHealth
