/-!
# Cluster objects

The five kinds of objects the monitor watches, reduced to what it reads: volumes, claims, pods,
nodes and events.  Everything in an object may be absent, so every field is optional, and a field
of an absent part counts as absent.

The predicates here (`Volume.isBound`, `Pod.isScheduled`, `Node.isReady`, …) are the only places
that look at phases, conditions and references.
-/

namespace StorageHealth

/-! ### Identity -/

/-- The part every object has in common.  `isDeleting` says that the object carries a deletion
timestamp; when it was set does not matter. -/
structure Identity where
  name : Option String
  generateName : Option String
  ns : Option String
  uid : Option String
  version : Option String
  isDeleting : Bool
  deriving DecidableEq, Repr

/-- The name of an object: its own, else the one it was generated from, else none at all. -/
def Identity.displayName (i : Identity) : String := i.name.getD (i.generateName.getD "")

instance : Inhabited Identity := ⟨⟨none, none, none, none, none, false⟩⟩

/-- Objects that have an identity. -/
class Identified (α : Type) where
  identity : α → Identity
  withIdentity : α → Identity → α

export Identified (identity withIdentity)

/-- The name of an object. -/
def nameOf {α : Type} [Identified α] (a : α) : String := (identity a).displayName

/-- The namespace of an object, if it has one. -/
def namespaceOf {α : Type} [Identified α] (a : α) : Option String := (identity a).ns

/-- The unique id of an object, if it has one. -/
def uidOf {α : Type} [Identified α] (a : α) : Option String := (identity a).uid

/-- Whether an object is being deleted. -/
def isDeleting {α : Type} [Identified α] (a : α) : Bool := (identity a).isDeleting

/-! ### Claim keys -/

/-- The namespace and the name of a claim. -/
structure ClaimKey where
  ns : String
  name : String
  deriving DecidableEq, Repr

namespace ClaimKey

/-- A claim key as text. -/
def display (k : ClaimKey) : String := k.ns ++ "/" ++ k.name

/-- Claim keys are ordered by namespace, then by name. -/
def le (a b : ClaimKey) : Bool := decide (a.ns < b.ns) || (a.ns == b.ns && decide (a.name ≤ b.name))

/-- A list of claim keys in ascending order. -/
def sort (ks : List ClaimKey) : List ClaimKey := ks.mergeSort le

end ClaimKey

/-! ### Volumes -/

/-- The driver of a volume and the driver's own name for it. -/
structure VolumeSource where
  driver : String
  handle : String
  deriving DecidableEq, Repr

/-- The claim a volume points back to. -/
structure ClaimReference where
  ns : Option String
  name : Option String
  deriving DecidableEq, Repr

/-- A persistent volume. -/
structure Volume where
  identity : Identity
  source : Option VolumeSource
  claimRef : Option ClaimReference
  mode : Option String
  phase : Option String
  deriving DecidableEq, Repr

namespace Volume

instance : Identified Volume := ⟨Volume.identity, fun v i => { v with identity := i }⟩

/-- The driver that serves the volume. -/
def driver (v : Volume) : Option String := v.source.map VolumeSource.driver

/-- The driver's name for the volume. -/
def handle (v : Volume) : Option String := v.source.map VolumeSource.handle

/-- The claim the volume is bound to; both parts of its name must be there. -/
def claim (v : Volume) : Option ClaimKey := do
  let r ← v.claimRef
  return ⟨← r.ns, ← r.name⟩

/-- Whether the volume is a raw block device. -/
def isBlock (v : Volume) : Bool := v.mode == some "Block"

/-- Whether the volume is bound. -/
def isBound (v : Volume) : Bool := v.phase == some "Bound"

/-- Whether `driver` serves the volume. -/
def isManagedBy (v : Volume) (driver : String) : Bool := v.driver == some driver

end Volume

/-! ### Claims -/

/-- A claim on a persistent volume. -/
structure Claim where
  identity : Identity
  volumeName : Option String
  phase : Option String
  deriving DecidableEq, Repr

namespace Claim

instance : Identified Claim := ⟨Claim.identity, fun c i => { c with identity := i }⟩

/-- Whether the claim is bound. -/
def isBound (c : Claim) : Bool := c.phase == some "Bound"

/-- The volume the claim is bound to; an empty name names no volume. -/
def boundVolume (c : Claim) : Option String := c.volumeName.filter (fun n => n ≠ "")

/-- The key of a claim object; an absent namespace counts as the empty one. -/
def key (c : Claim) : ClaimKey := ⟨(namespaceOf c).getD "", nameOf c⟩

end Claim

/-! ### Pods -/

/-- A pod.  `mounts` has an entry per volume of the pod: the name of the claim behind it, or
nothing when the volume is not backed by a claim. -/
structure Pod where
  identity : Identity
  nodeName : Option String
  mounts : List (Option String)
  deriving DecidableEq, Repr

namespace Pod

instance : Identified Pod := ⟨Pod.identity, fun p i => { p with identity := i }⟩

/-- The claims the pod mounts, in the order of its volumes; repetitions are kept. -/
def claimNames (p : Pod) : List String := p.mounts.filterMap id

/-- Whether the pod has a node to run on. -/
def isScheduled (p : Pod) : Bool := p.nodeName.any (fun n => n ≠ "")

end Pod

/-! ### Nodes -/

/-- One condition of a node. -/
structure NodeCondition where
  kind : String
  status : String
  deriving DecidableEq, Repr

/-- A node of the cluster. -/
structure Node where
  identity : Identity
  phase : Option String
  conditions : List NodeCondition
  deriving DecidableEq, Repr

namespace Node

instance : Identified Node := ⟨Node.identity, fun n i => { n with identity := i }⟩

/-- Whether some condition says that the node is ready. -/
def isReady (n : Node) : Bool := n.conditions.any (fun c => c.kind == "Ready" && c.status == "True")

/-- Whether the node was terminated. -/
def isTerminated (n : Node) : Bool := n.phase == some "Terminated"

end Node

/-! ### Events -/

/-- An event of the cluster: the object it is about, its type and its reason. -/
structure Event where
  identity : Identity
  subjectKind : Option String
  subjectUid : Option String
  kind : Option String
  reason : Option String
  deriving DecidableEq, Repr

instance : Identified Event := ⟨Event.identity, fun e i => { e with identity := i }⟩

/-! ### Kinds -/

/-- The kinds of objects the monitor watches. -/
inductive Kind where
  | volume
  | claim
  | pod
  | node
  | event
  deriving DecidableEq, Repr

namespace Kind

/-- The objects of a kind. -/
@[reducible] def Object : Kind → Type
  | .volume => Volume
  | .claim => Claim
  | .pod => Pod
  | .node => Node
  | .event => Event

instance (k : Kind) : Identified k.Object :=
  match k with
  | .volume => inferInstanceAs (Identified Volume)
  | .claim => inferInstanceAs (Identified Claim)
  | .pod => inferInstanceAs (Identified Pod)
  | .node => inferInstanceAs (Identified Node)
  | .event => inferInstanceAs (Identified Event)

/-- Where the cluster serves all objects of a kind. -/
def path : Kind → String
  | .volume => "/api/v1/persistentvolumes"
  | .claim => "/api/v1/persistentvolumeclaims"
  | .pod => "/api/v1/pods"
  | .node => "/api/v1/nodes"
  | .event => "/api/v1/events"

end Kind

/-! ### Subjects of events -/

/-- A reference to the object an event is published about. -/
structure Subject where
  apiVersion : Option String
  kind : Option String
  ns : Option String
  name : Option String
  uid : Option String
  version : Option String
  fieldPath : Option String
  deriving DecidableEq, Repr

/-- The reference to an object of the core group. -/
def Subject.ofIdentity (kind : String) (i : Identity) : Subject :=
  ⟨some "v1", some kind, i.ns, i.name, i.uid, none, none⟩

/-- The reference to a claim. -/
def Claim.subject (c : Claim) : Subject := .ofIdentity "PersistentVolumeClaim" c.identity

/-- The reference to a pod. -/
def Pod.subject (p : Pod) : Subject := .ofIdentity "Pod" p.identity

end StorageHealth
