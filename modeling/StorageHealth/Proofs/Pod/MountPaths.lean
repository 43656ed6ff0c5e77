import StorageHealth.MountPath
import StorageHealth.Proofs.Text.Joined

/-!
# Where volumes are mounted

The path of a mounted volume is joined from a root, the uid of the pod and an escaped name.  Joining
is treacherous, since a component with a slash in front replaces all that stands before it, and an
empty one leaves a slash behind.  A `Segment` is neither, so segments follow one another with single
slashes in between (`joinAll_segments`).

Only the name of the volume may be no segment, when it is empty.  `toList_volumePath` has the text
of the path in all cases, and `volumePath_apart` what follows from it: the path lies in the
directory of the pod, it has the segments that are expected there, and nothing else has the same
one.
-/

namespace StorageHealth

namespace MountPath

/-! ## Segments -/

/-- A text that can stand between two slashes. -/
structure Segment (s : List Char) : Prop where
  nonempty : s ≠ []
  slashless : '/' ∉ s

/-- A path as the beginning of longer ones: with a slash at its end, unless it is empty. -/
def opened (path : List Char) : List Char :=
  if path = [] ∨ path.getLast? = some '/' then path else path ++ ['/']

lemma opened_of_slash {path : List Char} (h : path.getLast? = some '/') : opened path = path := by
  unfold opened
  rw [if_pos (Or.inr h)]

lemma getLast?_opened {path : List Char} (h : path ≠ []) : (opened path).getLast? = some '/' := by
  unfold opened
  split
  · rename_i hopen
    exact hopen.resolve_left h
  · exact List.getLast?_concat

lemma opened_append_segment (path : List Char) {s : List Char} (hs : Segment s) :
    opened (path ++ s) = path ++ s ++ ['/'] := by
  have hlast : (path ++ s).getLast? = s.getLast? := List.getLast?_append_of_ne_nil path hs.nonempty
  have hopen : ¬ (path ++ s = [] ∨ (path ++ s).getLast? = some '/') := by
    rintro (hnil | hslash)
    · exact hs.nonempty (List.append_eq_nil_iff.mp hnil).2
    · rw [hlast] at hslash
      exact hs.slashless (List.mem_of_getLast? hslash)
  unfold opened
  rw [if_neg hopen]

/-- What has no slash in front goes behind the path. -/
lemma join_eq (path : List Char) {s : List Char} (hs : '/' ∉ s) :
    join path s = opened path ++ s := by
  have hhead : ¬ s.head? = some '/' := fun h => hs (List.mem_of_head? h)
  unfold join opened
  rw [if_neg hhead]
  split
  · rfl
  · rw [List.append_assoc, List.singleton_append]

lemma joinAll_append (path : List Char) (parts more : List (List Char)) :
    joinAll path (parts ++ more) = joinAll (joinAll path parts) more := List.foldl_append

/-- Segments follow one another with single slashes in between. -/
lemma joinAll_segments (path : List Char) {parts : List (List Char)} (hne : parts ≠ [])
    (h : ∀ s ∈ parts, Segment s) : joinAll path parts = opened path ++ ['/'].intercalate parts := by
  induction parts generalizing path with
  | nil => exact absurd rfl hne
  | cons s rest ih =>
    have hs : Segment s := h s List.mem_cons_self
    have hfirst : join path s = opened path ++ s := join_eq path hs.slashless
    cases rest with
    | nil => rw [List.intercalate_singleton, ← hfirst, joinAll, List.foldl_cons, List.foldl_nil]
    | cons t rest =>
      have hrest := ih (join path s) (List.cons_ne_nil t rest)
        fun u hu => h u (List.mem_cons_of_mem s hu)
      calc joinAll path (s :: t :: rest)
          = joinAll (join path s) (t :: rest) := rfl
        _ = opened (opened path ++ s) ++ ['/'].intercalate (t :: rest) := by rw [hrest, hfirst]
        _ = opened path ++ (s ++ ['/'] ++ ['/'].intercalate (t :: rest)) := by
          rw [opened_append_segment _ hs, List.append_assoc, List.append_assoc, List.append_assoc]
        _ = opened path ++ ['/'].intercalate (s :: t :: rest) := by rw [List.intercalate_cons_cons]

/-- The last of several segments is what the path ends with. -/
lemma opened_joinAll (path : List Char) (parts : List (List Char)) {s : List Char}
    (hs : Segment s) :
    opened (joinAll path (parts ++ [s])) = joinAll path (parts ++ [s]) ++ ['/'] := by
  have hlast : joinAll path (parts ++ [s]) = opened (joinAll path parts) ++ s := by
    rw [joinAll_append]
    exact join_eq _ hs.slashless
  rw [hlast, opened_append_segment _ hs]

/-! ## Escaped names -/

/-- A name without a tilde is read back from its escaped form. -/
lemma map_escape {name : List Char} (h : '~' ∉ name) :
    (escape name).map (fun c => if c = '~' then '/' else c) = name := by
  unfold escape
  rw [List.map_map]
  conv_rhs => rw [← List.map_id name]
  refine List.map_congr_left fun c hc => ?_
  have hc' : c ≠ '~' := fun e => h (e ▸ hc)
  by_cases hslash : c = '/'
  · simp [hslash]
  · simp [hslash, hc']

/-- Names without a tilde are told apart by their escaped forms. -/
lemma escape_inj {name name' : List Char} (h : '~' ∉ name) (h' : '~' ∉ name') :
    escape name = escape name' ↔ name = name' := by
  constructor
  · intro heq
    rw [← map_escape h, heq, map_escape h']
  · intro heq
    rw [heq]

/-- The escaped form of a name is a segment, unless the name is empty. -/
lemma segment_escape {name : List Char} (h : name ≠ []) : Segment (escape name) where
  nonempty := fun hnil => h (List.map_eq_nil_iff.mp hnil)
  slashless := slash_notMem_escape name

/-! ## The path of a mounted volume -/

/-- The directory of a pod. -/
def podPath (root podUid : String) : String :=
  String.ofList (joinAll root.toList ["pods".toList, podUid.toList])

/-- The name of the plugin as a segment. -/
def pluginSegment : String := "kubernetes.io~csi"

/-- What a path ends with: the volume itself, and for a file system the place of the mount. -/
def ownPart (block : Bool) (own : List Char) : List Char :=
  if block then own else if own = [] then "mount".toList else own ++ '/' :: "mount".toList

lemma segment_pods : Segment "pods".toList := ⟨by decide, by decide⟩

lemma segment_kindDirectory (block : Bool) : Segment (kindDirectory block).toList := by
  cases block
  · exact ⟨by decide, by decide⟩
  · exact ⟨by decide, by decide⟩

lemma segment_plugin : Segment pluginSegment.toList := ⟨by decide, by decide⟩

lemma segment_mount : Segment "mount".toList := ⟨by decide, by decide⟩

lemma escape_pluginName : escape pluginName.toList = pluginSegment.toList := by decide

/-- A pod whose uid can stand between slashes has its directory below the root. -/
lemma toList_podPath (root : String) {uid : String} (huid : Segment uid.toList) :
    (podPath root uid).toList =
      opened root.toList ++ ['/'].intercalate ["pods".toList, uid.toList] := by
  unfold podPath
  rw [String.toList_ofList]
  refine joinAll_segments _ (List.cons_ne_nil _ _) ?_
  intro s hs
  rcases List.mem_pair.mp hs with rfl | rfl
  · exact segment_pods
  · exact huid

/-- What a path ends with goes behind the directory of the plugin. -/
lemma joinAll_ownPart {path : List Char} (hpath : path ≠ []) {own : List Char} (hown : '/' ∉ own)
    (block : Bool) : joinAll path (own :: if block then [] else ["mount".toList]) =
      opened path ++ ownPart block own := by
  have hfirst : join path own = opened path ++ own := join_eq path hown
  unfold ownPart
  cases block with
  | true => exact hfirst
  | false =>
    have hmount : joinAll path [own, "mount".toList] =
        opened (opened path ++ own) ++ "mount".toList := by
      rw [← hfirst]
      exact join_eq _ segment_mount.slashless
    by_cases hnil : own = []
    · -- The empty name has left a slash, and joining does not put a second one there.
      rw [hnil, List.append_nil, opened_of_slash (getLast?_opened hpath)] at hmount
      simpa [hnil] using hmount
    · rw [opened_append_segment _ ⟨hnil, hown⟩] at hmount
      simpa [hnil] using hmount

/-- The text of the path of a volume, whatever the name of the volume is. -/
lemma toList_volumePath (root : String) {uid : String} (huid : Segment uid.toList) (volume : String)
    (block : Bool) : (volumePath root uid volume block).toList =
      (podPath root uid).toList ++ '/' :: ((kindDirectory block).toList ++
        '/' :: (pluginSegment.toList ++ '/' :: ownPart block (escape volume.toList))) := by
  have hpod : (podPath root uid).toList = joinAll root.toList ["pods".toList, uid.toList] :=
    String.toList_ofList
  have hplugin : joinAll (podPath root uid).toList
      [(kindDirectory block).toList, pluginSegment.toList] = (podPath root uid).toList ++
        '/' :: ((kindDirectory block).toList ++ '/' :: pluginSegment.toList) := by
    have hopened : opened (podPath root uid).toList = (podPath root uid).toList ++ ['/'] := by
      rw [hpod]
      exact opened_joinAll root.toList ["pods".toList] huid
    rw [joinAll_segments _ (List.cons_ne_nil _ _) ?_, hopened, List.intercalate_cons_cons,
      List.intercalate_singleton]
    · simp
    · intro s hs
      rcases List.mem_pair.mp hs with rfl | rfl
      · exact segment_kindDirectory block
      · exact segment_plugin
  have hopened := opened_joinAll (podPath root uid).toList [(kindDirectory block).toList]
    segment_plugin
  have hnonempty : joinAll (podPath root uid).toList
      [(kindDirectory block).toList, pluginSegment.toList] ≠ [] := by
    rw [hplugin]
    simp
  have hsplit : (volumePath root uid volume block).toList =
      joinAll (joinAll (podPath root uid).toList
        [(kindDirectory block).toList, pluginSegment.toList])
          (escape volume.toList :: if block then [] else ["mount".toList]) := by
    rw [hpod, ← joinAll_append, ← joinAll_append]
    unfold volumePath volumeParts
    rw [String.toList_ofList, escape_pluginName]
    rfl
  rw [hsplit, joinAll_ownPart hnonempty (slash_notMem_escape _)]
  rw [List.singleton_append, hplugin] at hopened
  rw [hplugin, hopened]
  simp

/-! ## Telling paths apart -/

lemma kindDirectory_inj {block block' : Bool}
    (h : (kindDirectory block).toList = (kindDirectory block').toList) : block = block' := by
  revert h
  cases block <;> cases block' <;> decide

/-- Paths of one kind that end in the same way end with the same volume. -/
lemma ownPart_inj {block : Bool} {own own' : List Char}
    (heq : ownPart block own = ownPart block own') : own = own' := by
  have hmount : ∀ {x : List Char}, ¬ "mount".toList = x ++ '/' :: "mount".toList := by
    intro x hx
    have hslash : '/' ∈ "mount".toList := by
      rw [hx]
      simp
    exact segment_mount.slashless hslash
  unfold ownPart at heq
  cases block with
  | true => exact heq
  | false =>
    rw [if_neg Bool.false_ne_true, if_neg Bool.false_ne_true] at heq
    split at heq
    · rename_i hnil
      split at heq
      · rename_i hnil'
        rw [hnil, hnil']
      · exact absurd heq hmount
    · split at heq
      · exact absurd heq.symm hmount
      · exact List.append_cancel_right heq

/-- Below one root a path tells the pod, the kind and the escaped name of the volume. -/
lemma volumePath_eq_iff (root : String) {uid uid' : String} (huid : Segment uid.toList)
    (huid' : Segment uid'.toList) (volume volume' : String) (block block' : Bool) :
    volumePath root uid volume block = volumePath root uid' volume' block' ↔
      uid = uid' ∧ block = block' ∧ escape volume.toList = escape volume'.toList := by
  constructor
  · intro heq
    have hlist := congrArg String.toList heq
    rw [toList_volumePath root huid, toList_volumePath root huid', toList_podPath root huid,
      toList_podPath root huid', List.intercalate_cons_cons, List.intercalate_cons_cons,
      List.intercalate_singleton, List.intercalate_singleton] at hlist
    simp only [List.append_assoc, List.append_cancel_left_eq] at hlist
    obtain ⟨hu, hbelow⟩ := append_cons_inj huid.slashless huid'.slashless hlist
    obtain ⟨hkind, hplugin⟩ := append_cons_inj (segment_kindDirectory block).slashless
      (segment_kindDirectory block').slashless hbelow
    have hblock : block = block' := kindDirectory_inj hkind
    subst hblock
    have hend := (List.cons.inj (List.append_cancel_left hplugin)).2
    exact ⟨String.toList_injective hu, rfl, ownPart_inj hend⟩
  · rintro ⟨rfl, rfl, hvolume⟩
    refine String.toList_injective ?_
    rw [toList_volumePath root huid, toList_volumePath root huid, hvolume]

/-- The path of a volume lies in the directory of the pod.  A volume with a name has exactly the
segments there that are expected: the kind, the plugin, one for itself, and for a file system the
place where it is mounted.  Under one root only the same pod, kind and escaped name lead to the same
path, so volumes are told apart by their names as long as these have no tilde. -/
theorem volumePath_apart (root : String) {uid : String} (hne : uid ≠ "")
    (hslash : '/' ∉ uid.toList) :
    (∀ volume block, ∃ below,
      volumePath root uid volume block = podPath root uid ++ "/" ++ below) ∧
    (∀ volume block, volume ≠ "" → ∃ own : String, own.toList = escape volume.toList ∧
      own ≠ "" ∧ '/' ∉ own.toList ∧
      volumePath root uid volume block = podPath root uid ++ "/" ++ "/".intercalate
        ([kindDirectory block, "kubernetes.io~csi", own] ++ if block then [] else ["mount"])) ∧
    ∀ uid' volume volume' block block', uid' ≠ "" → '/' ∉ uid'.toList →
      (volumePath root uid volume block = volumePath root uid' volume' block' ↔
        uid = uid' ∧ block = block' ∧ escape volume.toList = escape volume'.toList) ∧
      ('~' ∉ volume.toList → '~' ∉ volume'.toList →
        (escape volume.toList = escape volume'.toList ↔ volume = volume')) := by
  have hsegment : ∀ {u : String}, u ≠ "" → '/' ∉ u.toList → Segment u.toList := by
    intro u hu hu'
    exact ⟨fun hnil => hu (String.toList_injective hnil), hu'⟩
  have huid : Segment uid.toList := hsegment hne hslash
  refine ⟨fun volume block => ?_, fun volume block hvolume => ?_, ?_⟩
  · refine ⟨String.ofList ((kindDirectory block).toList ++ '/' :: (pluginSegment.toList ++
      '/' :: ownPart block (escape volume.toList))), String.toList_injective ?_⟩
    rw [toList_volumePath root huid]
    simp
  · have hname : volume.toList ≠ [] := fun hnil => hvolume (String.toList_injective hnil)
    have hown : Segment (escape volume.toList) := segment_escape hname
    refine ⟨String.ofList (escape volume.toList), String.toList_ofList, ?_, ?_, ?_⟩
    · intro hempty
      have hnil := congrArg String.toList hempty
      rw [String.toList_ofList] at hnil
      exact hown.nonempty hnil
    · rw [String.toList_ofList]
      exact hown.slashless
    · refine String.toList_injective ?_
      rw [toList_volumePath root huid]
      unfold ownPart pluginSegment
      cases block with
      | true => simp
      | false => simp [hown.nonempty]
  · intro uid' volume volume' block block' hne' hslash'
    refine ⟨volumePath_eq_iff root huid (hsegment hne' hslash') volume volume' block block', ?_⟩
    intro htilde htilde'
    rw [escape_inj htilde htilde']
    exact ⟨fun h => String.toList_injective h, congrArg String.toList⟩

/-- The names of two volumes that differ in a tilde only: one path, but not for another pod. -/
theorem volumePath_apart_of_tilde :
    ("uid-1" ≠ "" ∧ '/' ∉ "uid-1".toList ∧ "uid-2" ≠ "" ∧ '/' ∉ "uid-2".toList) ∧
    volumePath "/var/lib/kubelet" "uid-1" "nfs/data" false =
      volumePath "/var/lib/kubelet" "uid-1" "nfs~data" false ∧
    volumePath "/var/lib/kubelet" "uid-1" "nfs/data" false ≠
      volumePath "/var/lib/kubelet" "uid-2" "nfs~data" false ∧
    volumePath "/var/lib/kubelet" "uid-1" "nfs/data" false ≠
      volumePath "/var/lib/kubelet" "uid-1" "nfs/data" true := by
  have hne : "uid-1" ≠ "" := by decide
  have hslash : '/' ∉ "uid-1".toList := by decide
  have hne' : "uid-2" ≠ "" := by decide
  have hslash' : '/' ∉ "uid-2".toList := by decide
  have hapart := (volumePath_apart "/var/lib/kubelet" hne hslash).2.2
  refine ⟨⟨hne, hslash, hne', hslash'⟩, ?_, ?_, ?_⟩
  · exact (hapart "uid-1" "nfs/data" "nfs~data" false false hne hslash).1.mpr
      ⟨rfl, rfl, by decide⟩
  · intro heq
    have huid := ((hapart "uid-2" "nfs/data" "nfs~data" false false hne' hslash').1.mp heq).1
    exact absurd huid (by decide)
  · intro heq
    have hblock := ((hapart "uid-1" "nfs/data" "nfs/data" false true hne hslash).1.mp heq).2.1
    exact absurd hblock (by decide)

example : volumePath "/var/lib/kubelet" "uid-1" "nfs/data" false =
    "/var/lib/kubelet/pods/uid-1/volumes/kubernetes.io~csi/nfs~data/mount" := by decide

end MountPath

end StorageHealth
