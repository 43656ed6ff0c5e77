import StorageHealth.Wire.Length

/-!
# The catalog of messages

All messages of the driver interface that the monitor speaks, by name: what a value of each is, and
which tags each declares.  A declared tag may hold a message, which the catalog names too.
-/

namespace StorageHealth

namespace Wire

/-- The messages that the monitor speaks. -/
inductive MessageKind where
  | pluginInfoRequest
  | pluginInfoReply
  | pluginCapabilitiesRequest
  | pluginCapabilitiesReply
  | pluginCapability
  | pluginService
  | controllerCapabilitiesRequest
  | controllerCapabilitiesReply
  | controllerCapability
  | controllerCall
  | volume
  | volumeCondition
  | listRequest
  | listReply
  | listStatus
  | listEntry
  | volumeRequest
  | volumeReply
  | volumeStatus
  | nodeCapabilitiesRequest
  | nodeCapabilitiesReply
  | nodeCapability
  | nodeCall
  | statsRequest
  | statsReply
  deriving DecidableEq, Repr

namespace MessageKind

/-- The values of a message. -/
def Value : MessageKind → Type
  | pluginInfoRequest | pluginCapabilitiesRequest | controllerCapabilitiesRequest
  | nodeCapabilitiesRequest => EmptyRequest
  | pluginInfoReply => PluginInfo
  | pluginCapabilitiesReply | controllerCapabilitiesReply | nodeCapabilitiesReply => CapabilityList
  | pluginCapability | controllerCapability | nodeCapability => Capability
  | pluginService | controllerCall | nodeCall => Feature
  | volume => VolumeInfo
  | volumeCondition => Condition
  | listRequest => ListRequest
  | listReply => ListPage
  | listStatus | volumeStatus => VolumeStatus
  | listEntry | volumeReply => VolumeEntry
  | volumeRequest => VolumeRequest
  | statsRequest => StatsRequest
  | statsReply => StatsReply

instance : (k : MessageKind) → Message k.Value
  | pluginInfoRequest | pluginCapabilitiesRequest | controllerCapabilitiesRequest
  | nodeCapabilitiesRequest => inferInstanceAs (Message EmptyRequest)
  | pluginInfoReply => inferInstanceAs (Message PluginInfo)
  | pluginCapabilitiesReply | controllerCapabilitiesReply | nodeCapabilitiesReply =>
    inferInstanceAs (Message CapabilityList)
  | pluginCapability | controllerCapability | nodeCapability => inferInstanceAs (Message Capability)
  | pluginService | controllerCall | nodeCall => inferInstanceAs (Message Feature)
  | volume => inferInstanceAs (Message VolumeInfo)
  | volumeCondition => inferInstanceAs (Message Condition)
  | listRequest => inferInstanceAs (Message ListRequest)
  | listReply => inferInstanceAs (Message ListPage)
  | listStatus | volumeStatus => inferInstanceAs (Message VolumeStatus)
  | listEntry | volumeReply => inferInstanceAs (Message VolumeEntry)
  | volumeRequest => inferInstanceAs (Message VolumeRequest)
  | statsRequest => inferInstanceAs (Message StatsRequest)
  | statsReply => inferInstanceAs (Message StatsReply)

instance : (k : MessageKind) → Measured k.Value
  | pluginInfoRequest | pluginCapabilitiesRequest | controllerCapabilitiesRequest
  | nodeCapabilitiesRequest => inferInstanceAs (Measured EmptyRequest)
  | pluginInfoReply => inferInstanceAs (Measured PluginInfo)
  | pluginCapabilitiesReply | controllerCapabilitiesReply | nodeCapabilitiesReply =>
    inferInstanceAs (Measured CapabilityList)
  | pluginCapability | controllerCapability | nodeCapability =>
    inferInstanceAs (Measured Capability)
  | pluginService | controllerCall | nodeCall => inferInstanceAs (Measured Feature)
  | volume => inferInstanceAs (Measured VolumeInfo)
  | volumeCondition => inferInstanceAs (Measured Condition)
  | listRequest => inferInstanceAs (Measured ListRequest)
  | listReply => inferInstanceAs (Measured ListPage)
  | listStatus | volumeStatus => inferInstanceAs (Measured VolumeStatus)
  | listEntry | volumeReply => inferInstanceAs (Measured VolumeEntry)
  | volumeRequest => inferInstanceAs (Measured VolumeRequest)
  | statsRequest => inferInstanceAs (Measured StatsRequest)
  | statsReply => inferInstanceAs (Measured StatsReply)

/-- The tags that a message declares, each with the message that it holds, if it holds one. -/
def declared : MessageKind → List (Nat × Option MessageKind)
  | pluginInfoRequest | pluginCapabilitiesRequest | controllerCapabilitiesRequest
  | nodeCapabilitiesRequest => []
  | pluginInfoReply => [(1, none), (2, none)]
  | pluginCapabilitiesReply => [(1, some pluginCapability)]
  | pluginCapability => [(1, some pluginService)]
  | pluginService | controllerCall | nodeCall => [(1, none)]
  | controllerCapabilitiesReply => [(1, some controllerCapability)]
  | controllerCapability => [(1, some controllerCall)]
  | volume => [(1, none), (2, none)]
  | volumeCondition => [(1, none), (2, none)]
  | listRequest => [(1, none), (2, none)]
  | listReply => [(1, some listEntry), (2, none)]
  | listStatus => [(1, none), (2, some volumeCondition)]
  | listEntry => [(1, some volume), (2, some listStatus)]
  | volumeRequest => [(1, none)]
  | volumeReply => [(1, some volume), (2, some volumeStatus)]
  | volumeStatus => [(1, none), (2, some volumeCondition)]
  | nodeCapabilitiesReply => [(1, some nodeCapability)]
  | nodeCapability => [(1, some nodeCall)]
  | statsRequest => [(1, none), (2, none), (3, none)]
  | statsReply => [(2, some volumeCondition)]

/-- A tag is declared. -/
def Declares (k : MessageKind) (tag : Nat) : Prop := tag ∈ k.declared.map Prod.fst

instance (k : MessageKind) (tag : Nat) : Decidable (k.Declares tag) :=
  List.instDecidableMemOfLawfulBEq _ _

end MessageKind

end Wire

end StorageHealth
