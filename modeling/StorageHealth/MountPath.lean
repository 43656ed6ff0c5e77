/-!
# Mount paths

Where the node agent finds a volume: the path at which it is published to one pod, and the
global staging path of drivers that stage volumes before they publish them.

Paths are texts that are joined component by component.  A component that starts with a slash
replaces what stands before it, a slash is put between two components unless the left one is empty
or ends in one already, and nothing is normalised.
-/

namespace StorageHealth

namespace MountPath

/-! ### Joining -/

/-- One path followed by another. -/
def join (left right : List Char) : List Char :=
  if right.head? = some '/' then right
  else if left = [] ∨ left.getLast? = some '/' then left ++ right
  else left ++ '/' :: right

/-- A path with further components, from left to right. -/
def joinAll (root : List Char) (parts : List (List Char)) : List Char := parts.foldl join root

/-- A qualified name as a single path component: its slashes become tildes. -/
def escape (name : List Char) : List Char := name.map (fun c => if c = '/' then '~' else c)

/-! ### The two layouts -/

/-- The plugin that serves the volumes of all external drivers. -/
def pluginName : String := "kubernetes.io/csi"

/-- The directory under which the node agent works unless it is told otherwise. -/
def defaultRoot : String := "/var/lib/kubelet"

/-- The directory in which the volumes of a pod appear; block devices have one of their own. -/
def kindDirectory (block : Bool) : String := if block then "volumeDevices" else "volumes"

/-- The components between the root and the volume of one pod. -/
def volumeParts (podUid volume : String) (block : Bool) : List (List Char) :=
  ["pods".toList, podUid.toList, (kindDirectory block).toList, escape pluginName.toList,
    escape volume.toList] ++ (if block then [] else ["mount".toList])

/-- The path at which a volume is published to a pod. -/
def volumePath (root podUid volume : String) (block : Bool) : String :=
  String.ofList (joinAll root.toList (volumeParts podUid volume block))

/-- What can be wrong with a path. -/
inductive Error where
  | emptyVolumeName
  deriving DecidableEq, Repr

/-- The text of a path error. -/
def Error.message : Error → String
  | .emptyVolumeName => "cannot build staging path: volume name is empty"

/-- The path at which a volume is staged for a whole node.  The name of the volume is not escaped
here. -/
def stagingPath (root volume : String) : Except Error String :=
  if volume = "" then .error .emptyVolumeName
  else .ok (String.ofList (joinAll root.toList
    ["plugins".toList, pluginName.toList, "pv".toList, volume.toList, "globalmount".toList]))

/-! ### Escaped names are single components -/

/-- An escaped name holds no slash. -/
theorem slash_notMem_escape (name : List Char) : '/' ∉ escape name := by
  unfold escape
  intro h
  obtain ⟨c, _, hc⟩ := List.mem_map.1 h
  by_cases hs : c = '/'
  · simp [hs] at hc
  · simp [hs] at hc

@[simp] theorem length_escape (name : List Char) : (escape name).length = name.length := by
  simp [escape]

/-- A name without slashes is its own escaped form. -/
theorem escape_eq_self {name : List Char} (h : '/' ∉ name) : escape name = name := by
  unfold escape
  induction name with
  | nil => rfl
  | cons c r ih =>
    simp only [List.mem_cons, not_or] at h
    simp [Ne.symm h.1, ih h.2]

end MountPath

end StorageHealth
