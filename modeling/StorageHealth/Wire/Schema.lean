import StorageHealth.Wire.Message
import StorageHealth.Condition

/-!
# The messages of a storage driver

The part of the driver interface that the monitor speaks: who the driver is, what it can do, and
how its volumes are.  Each structure is followed by its tags.  The three replies about
capabilities have one layout, `CapabilityList`, and differ in what their numbers mean.
-/

namespace StorageHealth

namespace Wire

open StorageHealth.Wire.Field StorageHealth.Wire.Message

/-! ### Identity -/

/-- A request without content. -/
structure EmptyRequest where
  deriving DecidableEq, Repr

instance : Message EmptyRequest where
  blank := {}
  fields _ := []
  merge _ v _ := some v

/-- Who the driver is. -/
structure PluginInfo where
  name : String
  vendorVersion : String
  deriving DecidableEq, Repr

instance : Message PluginInfo where
  blank := ⟨"", ""⟩
  fields v := ofText 1 v.name ++ ofText 2 v.vendorVersion
  merge _ v f :=
    match f.tag with
    | 1 => f.text?.map (fun s => { v with name := s })
    | 2 => f.text?.map (fun s => { v with vendorVersion := s })
    | _ => some v

/-! ### Capabilities -/

/-- One thing a driver can do, by number. -/
structure Feature where
  number : Int32
  deriving DecidableEq, Repr

instance : Message Feature where
  blank := ⟨0⟩
  fields v := ofInt32 1 v.number
  merge _ v f :=
    match f.tag with
    | 1 => f.int32?.map (fun n => { v with number := n })
    | _ => some v

/-- An entry of a list of capabilities; entries of a kind the monitor does not know have no
feature. -/
structure Capability where
  feature : Option Feature
  deriving DecidableEq, Repr

instance : Message Capability where
  blank := ⟨none⟩
  fields v := optionalPart 1 v.feature
  merge depth v f :=
    match f.tag with
    | 1 => (readPart depth (v.feature.getD blank) f).map (fun x => { v with feature := some x })
    | _ => some v

/-- What a driver can do. -/
structure CapabilityList where
  capabilities : List Capability
  deriving DecidableEq, Repr

instance : Message CapabilityList where
  blank := ⟨[]⟩
  fields v := v.capabilities.map (part 1)
  merge depth v f :=
    match f.tag with
    | 1 => (readPart depth blank f).map (fun x => { v with capabilities := v.capabilities ++ [x] })
    | _ => some v

/-- Whether a feature is in the list. -/
def CapabilityList.has (l : CapabilityList) (number : Int32) : Bool :=
  l.capabilities.any (fun c => c.feature == some ⟨number⟩)

/-- The word for a number in a list of words that start with that for zero. -/
def featureName (names : List String) (n : Int32) : String :=
  if n < 0 then "Unknown" else names.getD n.toNatClampNeg "Unknown"

/-- The services of a plugin. -/
def pluginServices : List String :=
  ["Unknown", "ControllerService", "VolumeAccessibilityConstraints", "GroupControllerService"]

/-- The calls of a controller service. -/
def controllerCalls : List String :=
  ["Unknown", "CreateDeleteVolume", "PublishUnpublishVolume", "ListVolumes", "GetCapacity",
    "CreateDeleteSnapshot", "ListSnapshots", "CloneVolume", "PublishReadonly", "ExpandVolume",
    "ListVolumesPublishedNodes", "VolumeCondition", "GetVolume", "SingleNodeMultiWriter",
    "ModifyVolume"]

/-- The calls of a node service. -/
def nodeCalls : List String :=
  ["Unknown", "StageUnstageVolume", "GetVolumeStats", "ExpandVolume", "VolumeCondition",
    "SingleNodeMultiWriter", "VolumeMountGroup"]

/-! ### Volumes -/

/-- A volume as the driver names it. -/
structure VolumeInfo where
  capacity : Int64
  id : String
  deriving DecidableEq, Repr

instance : Message VolumeInfo where
  blank := ⟨0, ""⟩
  fields v := ofInt64 1 v.capacity ++ ofText 2 v.id
  merge _ v f :=
    match f.tag with
    | 1 => f.int64?.map (fun n => { v with capacity := n })
    | 2 => f.text?.map (fun s => { v with id := s })
    | _ => some v

instance : Message Condition where
  blank := Condition.silent
  fields v := ofBool 1 v.abnormal ++ ofText 2 v.message
  merge _ v f :=
    match f.tag with
    | 1 => f.bool?.map (fun b => { v with abnormal := b })
    | 2 => f.text?.map (fun s => { v with message := s })
    | _ => some v

/-- Where a volume is published and how it is. -/
structure VolumeStatus where
  publishedNodes : List String
  condition : Option Condition
  deriving DecidableEq, Repr

instance : Message VolumeStatus where
  blank := ⟨[], none⟩
  fields v := v.publishedNodes.map (ofMember 1) ++ optionalPart 2 v.condition
  merge depth v f :=
    match f.tag with
    | 1 => f.text?.map (fun s => { v with publishedNodes := v.publishedNodes ++ [s] })
    | 2 =>
      (readPart depth (v.condition.getD blank) f).map (fun x => { v with condition := some x })
    | _ => some v

/-- A volume with its status.  Both the entries of a listing and the reply about one volume have
this form. -/
structure VolumeEntry where
  volume : Option VolumeInfo
  status : Option VolumeStatus
  deriving DecidableEq, Repr

instance : Message VolumeEntry where
  blank := ⟨none, none⟩
  fields v := optionalPart 1 v.volume ++ optionalPart 2 v.status
  merge depth v f :=
    match f.tag with
    | 1 => (readPart depth (v.volume.getD blank) f).map (fun x => { v with volume := some x })
    | 2 => (readPart depth (v.status.getD blank) f).map (fun x => { v with status := some x })
    | _ => some v

/-- The condition in an entry, if the driver gave one. -/
def VolumeEntry.condition (e : VolumeEntry) : Option Condition :=
  e.status.bind VolumeStatus.condition

/-- Asks for a page of the listing. -/
structure ListRequest where
  maxEntries : Int32
  startingToken : String
  deriving DecidableEq, Repr

instance : Message ListRequest where
  blank := ⟨0, ""⟩
  fields v := ofInt32 1 v.maxEntries ++ ofText 2 v.startingToken
  merge _ v f :=
    match f.tag with
    | 1 => f.int32?.map (fun n => { v with maxEntries := n })
    | 2 => f.text?.map (fun s => { v with startingToken := s })
    | _ => some v

/-- A page of the listing, and the token that the next page starts with. -/
structure ListPage where
  entries : List VolumeEntry
  nextToken : String
  deriving DecidableEq, Repr

instance : Message ListPage where
  blank := ⟨[], ""⟩
  fields v := v.entries.map (part 1) ++ ofText 2 v.nextToken
  merge depth v f :=
    match f.tag with
    | 1 => (readPart depth blank f).map (fun x => { v with entries := v.entries ++ [x] })
    | 2 => f.text?.map (fun s => { v with nextToken := s })
    | _ => some v

/-- Asks for one volume. -/
structure VolumeRequest where
  volumeId : String
  deriving DecidableEq, Repr

instance : Message VolumeRequest where
  blank := ⟨""⟩
  fields v := ofText 1 v.volumeId
  merge _ v f :=
    match f.tag with
    | 1 => f.text?.map (fun s => { v with volumeId := s })
    | _ => some v

/-- Asks for a volume as it is mounted on the node. -/
structure StatsRequest where
  volumeId : String
  volumePath : String
  stagingPath : String
  deriving DecidableEq, Repr

instance : Message StatsRequest where
  blank := ⟨"", "", ""⟩
  fields v := ofText 1 v.volumeId ++ ofText 2 v.volumePath ++ ofText 3 v.stagingPath
  merge _ v f :=
    match f.tag with
    | 1 => f.text?.map (fun s => { v with volumeId := s })
    | 2 => f.text?.map (fun s => { v with volumePath := s })
    | 3 => f.text?.map (fun s => { v with stagingPath := s })
    | _ => some v

/-- How a mounted volume is. -/
structure StatsReply where
  condition : Option Condition
  deriving DecidableEq, Repr

instance : Message StatsReply where
  blank := ⟨none⟩
  fields v := optionalPart 2 v.condition
  merge depth v f :=
    match f.tag with
    | 2 =>
      (readPart depth (v.condition.getD blank) f).map (fun x => { v with condition := some x })
    | _ => some v

end Wire

end StorageHealth
