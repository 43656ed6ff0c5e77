import StorageHealth.Cluster.Informer

/-!
# The index from claims to pods

For every claim the pods that mount it.  A pod is known by the text `namespace/name`, so adding a
pod again replaces it under the claims it mounts now; pods without a namespace are left out.
-/

namespace StorageHealth

/-- The name of a pod inside the index. -/
def podName (ns : String) (p : Pod) : String := ns ++ "/" ++ nameOf p

/-- The pods under the claims they mount. -/
structure ConsumerIndex where
  entries : Table (ClaimKey × String) Pod

namespace ConsumerIndex

/-- The index without pods. -/
def empty : ConsumerIndex := ⟨Table.empty⟩

instance : Inhabited ConsumerIndex := ⟨empty⟩

/-- The entries a pod has: one for each claim it mounts. -/
def slots (p : Pod) : List (ClaimKey × String) :=
  match namespaceOf p with
  | none => []
  | some ns => p.claimNames.map (fun claim => (⟨ns, claim⟩, podName ns p))

/-- Adds a pod under every claim it mounts. -/
def add (x : ConsumerIndex) (p : Pod) : ConsumerIndex :=
  ⟨(slots p).foldl (fun t k => t.insert k p) x.entries⟩

/-- Removes a pod from every claim it mounts. -/
def remove (x : ConsumerIndex) (p : Pod) : ConsumerIndex :=
  ⟨(slots p).foldl (fun t k => t.erase k) x.entries⟩

/-- Replaces a pod, so that it leaves the claims it no longer mounts. -/
def replace (x : ConsumerIndex) (old new : Pod) : ConsumerIndex := (x.remove old).add new

/-- Follows a change of a pod. -/
def follow (x : ConsumerIndex) : Change Pod → ConsumerIndex
  | .added p => x.add p
  | .updated old new => x.replace old new
  | .deleted p => x.remove p

/-- The pods that mount a claim. -/
def lookup (x : ConsumerIndex) (claim : ClaimKey) : List Pod :=
  (x.entries.entries.filter (fun e => e.1.1 = claim)).map Prod.snd

/-- Whether any pod mounts a claim. -/
def containsClaim (x : ConsumerIndex) (claim : ClaimKey) : Bool :=
  x.entries.entries.any (fun e => e.1.1 = claim)

/-- A claim is contained exactly when some pod mounts it. -/
theorem containsClaim_eq (x : ConsumerIndex) (claim : ClaimKey) :
    x.containsClaim claim = !(x.lookup claim).isEmpty := by
  unfold containsClaim lookup
  induction x.entries.entries with
  | nil => rfl
  | cons e rest ih =>
    by_cases h : e.1.1 = claim
    · simp [h]
    · simpa [h] using ih

end ConsumerIndex

end StorageHealth
