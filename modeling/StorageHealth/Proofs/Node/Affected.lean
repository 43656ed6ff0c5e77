import Mathlib.Data.List.Forall2
import Mathlib.Data.List.Sort
import StorageHealth.Proofs.Index.Consumers
import StorageHealth.Proofs.Node.Passes
import StorageHealth.Proofs.Text.Bytes

/-!
# The claims that a pass is about

`affectedVolumes` are the volumes whose claims a pass over a node is about, and `Affects` says what
is looked up for such a volume: its cached claim, and the names of the pods that use it on the node,
each once and in ascending order of their bytes.  There is only one answer to that
(`Affects.unique`).

A pass tells exactly these claims, one for each volume, unless one of them is not cached, and then
it tells nobody (`ends_pass_affected`).  The names do not depend on the order in which the index
hands out its pods, and neither do they on how the index came to have them.
-/

namespace StorageHealth

/-- Whatever a monitor takes in, its index of consumers stays reachable. -/
lemma Monitor.reachable_observe {m : Monitor} (h : m.consumers.Reachable) (k : Kind)
    (e : WatchEvent k.Object) : (m.observe k e).1.consumers.Reachable := by
  have hfollow : ∀ (changes : List (Change k.Object)) (m : Monitor), m.consumers.Reachable →
      (changes.foldl (fun m change => m.follow k change) m).consumers.Reachable := by
    intro changes
    induction changes with
    | nil => exact fun m hm => hm
    | cons c rest ih =>
      refine fun m hm => ih _ ?_
      cases k with
      | pod => exact hm.follow c
      | _ => exact hm
  exact hfollow _ _ h

namespace Node

open Deed

variable {c : Conduct} {m : Monitor} {node : String}

/-! ## Users -/

/-- The names of those of the pods that are on a node, in ascending order. -/
def usersAmong (node : String) (pods : List Pod) : List String :=
  ((pods.filter fun p => p.nodeName = some node).map nameOf).mergeSort fun a b => decide (a ≤ b)

lemma usersOf_eq (m : Monitor) (node : String) (claim : ClaimKey) :
    usersOf m node claim = usersAmong node (m.consumers.lookup claim) := rfl

lemma mem_usersAmong {pods : List Pod} {name : String} :
    name ∈ usersAmong node pods ↔ ∃ p ∈ pods, p.nodeName = some node ∧ nameOf p = name := by
  simp [usersAmong, and_assoc]

/-- The order of the pods does not show in their sorted names. -/
lemma usersAmong_perm {pods pods' : List Pod} (h : pods.Perm pods') :
    usersAmong node pods = usersAmong node pods' :=
  Text.mergeSort_eq_of_perm ((h.filter _).map nameOf)

/-- The names of the users of a claim ascend byte by byte. -/
lemma pairwise_bytes_usersOf (h : m.consumers.Orderly) (claim : ClaimKey) :
    ((usersOf m node claim).map Text.bytes).Pairwise (· < ·) := by
  refine Text.pairwise_bytes_mergeSort (List.Nodup.sublist ?_ (h.nodup_names claim))
  exact List.filter_sublist.map nameOf

/-! ## Affected claims -/

/-- The bound volumes of a driver whose claim is used by some pod on a node. -/
def affectedVolumes (c : Conduct) (m : Monitor) (node : String) : List Volume :=
  (m.cached .volume).objects.filter fun v : Volume => v.isManagedBy c.driver && v.isBound &&
    v.claim.any fun key => (m.consumers.lookup key).any fun p => p.nodeName = some node

/-- What is looked up for a volume on a node: its cached claim, and the names of exactly the pods on
the node that use it, each once and in ascending order of their bytes. -/
def Affects (m : Monitor) (node : String) (v : Volume) (a : AffectedClaim) : Prop :=
  ∃ ns name, v.claimRef = some ⟨some ns, some name⟩ ∧ m.claim? ⟨ns, name⟩ = some a.claim ∧
    (∀ user, user ∈ a.pods ↔
      ∃ p ∈ m.consumers.lookup ⟨ns, name⟩, p.nodeName = some node ∧ nameOf p = user) ∧
    (a.pods.map Text.bytes).Pairwise (· < ·)

/-- The claim of a volume is not cached. -/
def Uncached (m : Monitor) (v : Volume) (key : ClaimKey) : Prop :=
  v.claimRef = some ⟨some key.ns, some key.name⟩ ∧ m.claim? key = none

/-- A volume has a claim if it refers to one by a namespace and a name. -/
lemma claim_eq_some_iff {v : Volume} {key : ClaimKey} :
    v.claim = some key ↔ v.claimRef = some ⟨some key.ns, some key.name⟩ := by
  obtain ⟨ns, name⟩ := key
  rcases v with ⟨_, _, _ | ⟨_ | _, _ | _⟩, _, _⟩ <;> simp [Volume.claim]

/-- The affected volumes are the cached ones that the driver serves, that are bound, and whose claim
some pod uses on the node. -/
lemma mem_affectedVolumes_iff {v : Volume} : v ∈ affectedVolumes c m node ↔
    v ∈ (m.cached .volume).objects ∧ (∃ source, v.source = some source ∧ source.driver = c.driver) ∧
      v.phase = some "Bound" ∧
      ∃ ns name, v.claimRef = some ⟨some ns, some name⟩ ∧
        ∃ p ∈ m.consumers.lookup ⟨ns, name⟩, p.nodeName = some node := by
  have hsource : v.isManagedBy c.driver = true ↔
      ∃ source, v.source = some source ∧ source.driver = c.driver := by
    rw [Volume.isManagedBy, Volume.driver, beq_iff_eq, Option.map_eq_some_iff]
  have hphase : v.isBound = true ↔ v.phase = some "Bound" := beq_iff_eq
  have hused : (v.claim.any fun key => (m.consumers.lookup key).any fun p =>
      p.nodeName = some node) = true ↔
        ∃ ns name, v.claimRef = some ⟨some ns, some name⟩ ∧
          ∃ p ∈ m.consumers.lookup ⟨ns, name⟩, p.nodeName = some node := by
    simp only [Option.any_eq_true, claim_eq_some_iff, List.any_eq_true, decide_eq_true_eq]
    constructor
    · rintro ⟨key, hkey, hp⟩
      exact ⟨key.ns, key.name, hkey, hp⟩
    · rintro ⟨ns, name, hkey, hp⟩
      exact ⟨⟨ns, name⟩, hkey, hp⟩
  rw [affectedVolumes, List.mem_filter, Bool.and_eq_true, Bool.and_eq_true, hsource, hphase, hused,
    and_assoc]

/-- A volume and a node settle what is looked up. -/
lemma Affects.unique {v : Volume} {a b : AffectedClaim} (ha : Affects m node v a)
    (hb : Affects m node v b) : a = b := by
  obtain ⟨claim, pods⟩ := a
  obtain ⟨claim', pods'⟩ := b
  obtain ⟨ns, name, href, hclaim, hpods, hsorted⟩ := ha
  obtain ⟨ns', name', href', hclaim', hpods', hsorted'⟩ := hb
  obtain ⟨rfl, rfl⟩ : ns = ns' ∧ name = name' := by simpa using href.symm.trans href'
  obtain rfl : claim = claim' := Option.some.inj (hclaim.symm.trans hclaim')
  have hbytes : pods.map Text.bytes = pods'.map Text.bytes :=
    hsorted.eq_of_mem_iff hsorted' fun b => by simp only [List.mem_map, hpods, hpods']
  obtain rfl : pods = pods' := (List.map_injective_iff.mpr Text.bytes_injective) hbytes
  rfl

lemma decide_usersOf_ne_nil (m : Monitor) (node : String) (key : ClaimKey) :
    decide (usersOf m node key ≠ []) =
      (m.consumers.lookup key).any fun p => p.nodeName = some node := by
  rw [Bool.eq_iff_iff, decide_eq_true_eq, Ne, List.eq_nil_iff_forall_not_mem]
  simp [usersOf_eq, mem_usersAmong]

lemma exists_claim_of_mem {v : Volume} (h : v ∈ affectedVolumes c m node) :
    ∃ key, v.claim = some key := by
  have hused := (List.mem_filter.mp h).2
  simp only [Bool.and_eq_true, Option.any_eq_true] at hused
  exact ⟨_, hused.2.choose_spec.1⟩

/-- The claims of volumes and their users, as long as all the claims are cached. -/
def claimsOf (m : Monitor) (node : String) (vs : List Volume) :
    Except NodeError (List AffectedClaim) :=
  (vs.filterMap fun v => v.claim.map fun key => (key, usersOf m node key)).mapM fun e =>
    match m.claim? e.1 with
    | some claim => .ok ⟨claim, e.2⟩
    | none => .error (.claimNotFound e.1)

lemma affectedClaims_eq (c : Conduct) (m : Monitor) (node : String) :
    affectedClaims c m node = claimsOf m node (affectedVolumes c m node) := by
  unfold affectedClaims claimsOf usedClaims affectedVolumes
  rw [List.filterMap_filter, List.filter_filterMap, List.filterMap_filter]
  congr 1
  refine List.filterMap_congr fun v _ => ?_
  cases hv : v.claim with
  | none => simp
  | some key =>
    rw [Option.map_some, Option.any_some, ← decide_usersOf_ne_nil]
    cases v.isManagedBy c.driver && v.isBound <;> simp [Option.filter]

lemma claimsOf_cons_of_uncached {v : Volume} {key : ClaimKey} (h : Uncached m v key)
    (rest : List Volume) : claimsOf m node (v :: rest) = .error (.claimNotFound key) := by
  rw [claimsOf, List.filterMap_cons_some (by rw [claim_eq_some_iff.mpr h.1, Option.map_some]),
    List.mapM_cons]
  simp only [h.2]
  rfl

lemma claimsOf_cons {v : Volume} {key : ClaimKey} {claim : Claim} (hv : v.claim = some key)
    (hc : m.claim? key = some claim) (rest : List Volume) :
    claimsOf m node (v :: rest) =
      (claimsOf m node rest).map (⟨claim, usersOf m node key⟩ :: ·) := by
  rw [claimsOf, List.filterMap_cons_some (by rw [hv, Option.map_some]), List.mapM_cons]
  simp only [hc]
  rfl

/-- If the claim of one of the volumes is not cached, looking them up ends with such a claim. -/
lemma affectedClaims_of_uncached
    (h : ∃ v ∈ affectedVolumes c m node, ∃ key, Uncached m v key) :
    ∃ v ∈ affectedVolumes c m node, ∃ key, Uncached m v key ∧
      affectedClaims c m node = .error (.claimNotFound key) := by
  rw [affectedClaims_eq]
  have hclaim : ∀ v ∈ affectedVolumes c m node, ∃ key, v.claim = some key :=
    fun v => exists_claim_of_mem
  generalize affectedVolumes c m node = vs at h hclaim ⊢
  induction vs with
  | nil =>
    obtain ⟨v, hv, -⟩ := h
    cases hv
  | cons v rest ih =>
    obtain ⟨key, hv⟩ := hclaim v List.mem_cons_self
    cases hc : m.claim? key with
    | none =>
      have huncached : Uncached m v key := ⟨claim_eq_some_iff.mp hv, hc⟩
      exact ⟨v, List.mem_cons_self, key, huncached, claimsOf_cons_of_uncached huncached rest⟩
    | some claim =>
      -- the first claim is found, so it is one of the others that is not cached
      obtain ⟨u, hu, k, hk⟩ := h
      have hne : u ≠ v := by
        rintro rfl
        obtain rfl : k = key := Option.some_inj.mp ((claim_eq_some_iff.mpr hk.1).symm.trans hv)
        cases hc.symm.trans hk.2
      obtain ⟨w, hw, key', hkey', hfound⟩ := ih ⟨u, List.mem_of_ne_of_mem hne hu, k, hk⟩
        fun u hu => hclaim u (List.mem_cons_of_mem v hu)
      refine ⟨w, List.mem_cons_of_mem v hw, key', hkey', ?_⟩
      rw [claimsOf_cons hv hc, hfound]
      rfl

/-- If the claims of all the volumes are cached, one is found for each volume. -/
lemma affectedClaims_of_cached (hx : m.consumers.Orderly)
    (h : ∀ v ∈ affectedVolumes c m node, ∀ key, ¬ Uncached m v key) :
    ∃ as, affectedClaims c m node = .ok as ∧
      List.Forall₂ (Affects m node) (affectedVolumes c m node) as := by
  rw [affectedClaims_eq]
  have hclaim : ∀ v ∈ affectedVolumes c m node, ∃ key, v.claim = some key :=
    fun v => exists_claim_of_mem
  generalize affectedVolumes c m node = vs at h hclaim ⊢
  induction vs with
  | nil => exact ⟨[], rfl, .nil⟩
  | cons v rest ih =>
    obtain ⟨key, hv⟩ := hclaim v List.mem_cons_self
    obtain ⟨claim, hc⟩ := Option.ne_none_iff_exists'.mp
      fun hc => h v List.mem_cons_self key ⟨claim_eq_some_iff.mp hv, hc⟩
    obtain ⟨as, hfound, has⟩ := ih (fun u hu => h u (List.mem_cons_of_mem v hu))
      (fun u hu => hclaim u (List.mem_cons_of_mem v hu))
    refine ⟨⟨claim, usersOf m node key⟩ :: as, ?_,
      .cons ⟨key.ns, key.name, claim_eq_some_iff.mp hv, hc, ?_, ?_⟩ has⟩
    · rw [claimsOf_cons hv hc, hfound]
      rfl
    · exact fun name => mem_usersAmong
    · exact pairwise_bytes_usersOf hx key

/-- The order in which an index hands out its pods does not show in the claims. -/
lemma affectedClaims_perm {x : ConsumerIndex}
    (h : ∀ key, (x.lookup key).Perm (m.consumers.lookup key)) :
    affectedClaims c { m with consumers := x } node = affectedClaims c m node := by
  have husers : ∀ key, usersOf { m with consumers := x } node key = usersOf m node key :=
    fun key => usersAmong_perm (h key)
  unfold affectedClaims usedClaims
  simp only [husers]
  rfl

/-! ## Passes -/

/-- Claims were told one after the other: all of them, or those in front of one that was refused. -/
def ToldInOrder (notice : AffectedClaim → Notice) (as : List AffectedClaim) (ds : List Deed)
    (r : Except NodeError Unit) : Prop :=
  (ds = as.map (fun a => sent (notice a) (.ok ())) ∧ r = .ok ()) ∨
    ∃ before a after e, as = before ++ a :: after ∧
      ds = before.map (fun a => sent (notice a) (.ok ())) ++ [sent (notice a) (.error e)] ∧
      r = .error (.notify a.claim.key e)

lemma told_iff {notice : AffectedClaim → Notice} {as : List AffectedClaim} {ds : List Deed}
    {r : Except NodeError Unit} : Told notice as ds r ↔ ToldInOrder notice as ds r := by
  constructor
  · intro h
    induction h with
    | all => exact Or.inl ⟨rfl, rfl⟩
    | refused a rest e => exact Or.inr ⟨[], a, rest, e, rfl, rfl, rfl⟩
    | next a _ ih =>
      rcases ih with ⟨rfl, rfl⟩ | ⟨before, b, after, e, rfl, rfl, rfl⟩
      · exact Or.inl ⟨rfl, rfl⟩
      · exact Or.inr ⟨a :: before, b, after, e, rfl, rfl, rfl⟩
  · rintro (⟨rfl, rfl⟩ | ⟨before, a, after, e, rfl, rfl, rfl⟩)
    · induction as with
      | nil => exact Told.all
      | cons a rest ih => exact Told.next a ih
    · induction before with
      | nil => exact Told.refused a after e
      | cons b before ih => exact Told.next b ih

/-- What a pass does is settled by what it looks up. -/
lemma ends_pass_looked_iff {notice : AffectedClaim → Notice} {rest : List Deed}
    {r : Except NodeError Unit} : (pass c node notice).Ends (looked m :: rest) r ↔
      (∃ e, affectedClaims c m node = .error e ∧ rest = [] ∧ r = .error e) ∨
      ∃ as, affectedClaims c m node = .ok as ∧ ToldInOrder notice as rest r := by
  rw [ends_pass_iff]
  constructor
  · intro h
    generalize hds : looked m :: rest = ds at h
    cases h with
    | @incomplete m' e hclaims =>
      cases hds
      exact Or.inl ⟨e, hclaims, rfl, rfl⟩
    | @went m' as hclaims ds r told =>
      cases hds
      exact Or.inr ⟨as, hclaims, told_iff.mp told⟩
  · rintro (⟨e, hclaims, rfl, rfl⟩ | ⟨as, hclaims, h⟩)
    · exact Passed.incomplete hclaims
    · exact Passed.went hclaims (told_iff.mpr h)

lemma ends_pass_of_error {notice : AffectedClaim → Notice} {e : NodeError}
    (h : affectedClaims c m node = .error e) {rest : List Deed} {r : Except NodeError Unit} :
    (pass c node notice).Ends (looked m :: rest) r ↔ rest = [] ∧ r = .error e := by
  simp [ends_pass_looked_iff, h]

lemma ends_pass_of_ok {notice : AffectedClaim → Notice} {as : List AffectedClaim}
    (h : affectedClaims c m node = .ok as) {rest : List Deed} {r : Except NodeError Unit} :
    (pass c node notice).Ends (looked m :: rest) r ↔ ToldInOrder notice as rest r := by
  simp [ends_pass_looked_iff, h]

/-- A pass looks up the claims of the volumes that are affected on a node.  If one of these claims
is not cached, the pass ends with such a claim and tells nobody.  Otherwise it tells the claims of
exactly these volumes, one after the other and until one is refused; the same claims are warned and
told that the node is back.  The order in which the index hands out its pods makes no difference,
and neither does another history that has left it with the same pods. -/
theorem ends_pass_affected {m : Monitor} (hindex : m.consumers.Reachable) (c : Conduct)
    (node : String) :
    ((affectedVolumes c m node).Sublist (m.cached .volume).objects ∧ ∀ v,
      v ∈ affectedVolumes c m node ↔
        v ∈ (m.cached .volume).objects ∧
        (∃ source, v.source = some source ∧ source.driver = c.driver) ∧ v.phase = some "Bound" ∧
        ∃ ns name, v.claimRef = some ⟨some ns, some name⟩ ∧
          ∃ p ∈ m.consumers.lookup ⟨ns, name⟩, p.nodeName = some node) ∧
    (∀ ds r, (markFailed c node).Ends ds r ∨ (notifyRecovered c node).Ends ds r →
      ∃ m rest, ds = looked m :: rest) ∧
    ((∃ v ∈ affectedVolumes c m node, ∃ key, Uncached m v key) →
      ∃ v ∈ affectedVolumes c m node, ∃ key, Uncached m v key ∧ ∀ rest r,
        ((markFailed c node).Ends (looked m :: rest) r ↔
          rest = [] ∧ r = .error (.claimNotFound key)) ∧
        ((notifyRecovered c node).Ends (looked m :: rest) r ↔
          rest = [] ∧ r = .error (.claimNotFound key))) ∧
    ((∀ v ∈ affectedVolumes c m node, ∀ key, ¬ Uncached m v key) →
      ∃ as, List.Forall₂ (Affects m node) (affectedVolumes c m node) as ∧ ∀ rest r,
        ((markFailed c node).Ends (looked m :: rest) r ↔
          ToldInOrder (fun a =>
            ⟨⟨some "v1", some "PersistentVolumeClaim", a.claim.identity.ns, a.claim.identity.name,
                a.claim.identity.uid, none, none⟩,
              .warning, .nodeFailed,
              "Pods: [ " ++ String.intercalate " " a.pods ++ " ] consuming PVC: " ++
                nameOf a.claim ++ " in namespace: " ++ a.claim.identity.ns.getD "" ++
                " are now on a failed node: " ++ node⟩) as rest r) ∧
        ((notifyRecovered c node).Ends (looked m :: rest) r ↔
          ToldInOrder (fun a =>
            ⟨⟨some "v1", some "PersistentVolumeClaim", a.claim.identity.ns, a.claim.identity.name,
                a.claim.identity.uid, none, none⟩,
              .normal, .nodeRecovered, "Node: " ++ node ++ " recovered"⟩) as rest r)) ∧
    (∀ x : ConsumerIndex, (∀ key, (x.lookup key).Perm (m.consumers.lookup key)) ∨
        (x.Reachable ∧ ∀ key p, p ∈ x.lookup key ↔ p ∈ m.consumers.lookup key) →
      ∀ notice rest r, (pass c node notice).Ends (looked { m with consumers := x } :: rest) r ↔
        (pass c node notice).Ends (looked m :: rest) r) := by
  have hx : m.consumers.Orderly := hindex.orderly
  refine ⟨⟨List.filter_sublist, fun v => mem_affectedVolumes_iff⟩, ?_, fun h => ?_, fun h => ?_,
    fun x h notice rest r => ?_⟩
  · rintro ds r (h | h)
    · obtain ⟨m, rest, rfl, -⟩ := Attempt.ends_look_bind_iff.mp h
      exact ⟨m, rest, rfl⟩
    · obtain ⟨m, rest, rfl, -⟩ := Attempt.ends_look_bind_iff.mp h
      exact ⟨m, rest, rfl⟩
  · obtain ⟨v, hv, key, hkey, hclaims⟩ := affectedClaims_of_uncached h
    exact ⟨v, hv, key, hkey, fun rest r => ⟨ends_pass_of_error hclaims, ends_pass_of_error hclaims⟩⟩
  · obtain ⟨as, hclaims, has⟩ := affectedClaims_of_cached hx h
    exact ⟨as, has, fun rest r => ⟨ends_pass_of_ok hclaims, ends_pass_of_ok hclaims⟩⟩
  · have hperm : ∀ key, (x.lookup key).Perm (m.consumers.lookup key) := by
      rcases h with h | ⟨hreach, hmem⟩
      · exact h
      · intro key
        exact (List.perm_ext_iff_of_nodup (hreach.orderly.nodup_lookup key)
          (hx.nodup_lookup key)).mpr (hmem key)
    rw [ends_pass_looked_iff, ends_pass_looked_iff, affectedClaims_perm hperm]

namespace TwoClaims

/-- Another pod on a node, with the first claim. -/
def neighbour (name node : String) : Pod :=
  ⟨⟨some name, none, some "default", some name, none, false⟩, some node, [some "pvc1"]⟩

/-- Two more pods use the first claim, one of them on another node. -/
def crowded : Monitor :=
  let m := (known.observe .pod (.apply (neighbour "Web" "node-1"))).1
  (m.observe .pod (.apply (neighbour "db" "node-2"))).1

lemma reachable_crowded : crowded.consumers.Reachable := by
  have hknown : known.consumers.Reachable :=
    Monitor.reachable_observe (Monitor.reachable_observe (Monitor.reachable_observe
      (Monitor.reachable_observe (Monitor.reachable_observe .empty .volume _) .volume _)
      .claim _) .claim _) .pod _
  exact Monitor.reachable_observe (Monitor.reachable_observe hknown .pod _) .pod _

/-- The first claim is used by two pods on the node, the other one by one of them. -/
lemma affects_crowded : List.Forall₂ (Affects crowded "node-1")
    [volume "pv1" "pvc1", volume "pv2" "pvc2"]
    [⟨claim "pvc1" "pv1", ["Web", "app"]⟩, ⟨claim "pvc2" "pv2", ["app"]⟩] := by
  have hfirst : crowded.consumers.lookup ⟨"default", "pvc1"⟩ =
      [pod, neighbour "Web" "node-1", neighbour "db" "node-2"] := by decide +kernel
  have hsecond : crowded.consumers.lookup ⟨"default", "pvc2"⟩ = [pod] := by decide +kernel
  have hpod : nameOf pod = "app" ∧ pod.nodeName = some "node-1" := ⟨rfl, rfl⟩
  have hneighbour : ∀ name node, nameOf (neighbour name node) = name ∧
      (neighbour name node).nodeName = some node := fun _ _ => ⟨rfl, rfl⟩
  refine .cons ⟨"default", "pvc1", rfl, by decide +kernel, fun user => ?_, by decide +kernel⟩
    (.cons ⟨"default", "pvc2", rfl, by decide +kernel, fun user => ?_, by decide +kernel⟩ .nil)
  · rw [hfirst]
    simp [hpod, hneighbour, or_comm, eq_comm]
  · rw [hsecond]
    simp [hpod, eq_comm]

/-- Both claims are cached, so each of them is warned with the names of its users on the node, and
each of them is told that the node is back. -/
theorem tells_both : crowded.consumers.Reachable ∧
    affectedVolumes conduct crowded "node-1" = [volume "pv1" "pvc1", volume "pv2" "pvc2"] ∧
    (∀ v ∈ affectedVolumes conduct crowded "node-1", ∀ key, ¬ Uncached crowded v key) ∧
    (markFailed conduct "node-1").Ends [looked crowded,
      sent ⟨⟨some "v1", some "PersistentVolumeClaim", some "default", some "pvc1", none, none,
        none⟩, .warning, .nodeFailed, "Pods: [ Web app ] consuming PVC: pvc1 in namespace: " ++
          "default are now on a failed node: node-1"⟩ (.ok ()),
      sent ⟨⟨some "v1", some "PersistentVolumeClaim", some "default", some "pvc2", none, none,
        none⟩, .warning, .nodeFailed, "Pods: [ app ] consuming PVC: pvc2 in namespace: " ++
          "default are now on a failed node: node-1"⟩ (.ok ())] (.ok ()) ∧
    (notifyRecovered conduct "node-1").Ends [looked crowded,
      sent ⟨⟨some "v1", some "PersistentVolumeClaim", some "default", some "pvc1", none, none,
        none⟩, .normal, .nodeRecovered, "Node: node-1 recovered"⟩ (.ok ()),
      sent ⟨⟨some "v1", some "PersistentVolumeClaim", some "default", some "pvc2", none, none,
        none⟩, .normal, .nodeRecovered, "Node: node-1 recovered"⟩ (.ok ())] (.ok ()) := by
  have hvolumes : affectedVolumes conduct crowded "node-1" =
      [volume "pv1" "pvc1", volume "pv2" "pvc2"] := by decide +kernel
  have hcached : ∀ v ∈ affectedVolumes conduct crowded "node-1", ∀ key,
      ¬ Uncached crowded v key := by
    rw [hvolumes]
    rintro v hv key ⟨hkey, hnone⟩
    have hall : ∀ v ∈ [volume "pv1" "pvc1", volume "pv2" "pvc2"],
        (v.claim.bind crowded.claim?).isSome = true := by decide +kernel
    have hsome := hall v hv
    rw [claim_eq_some_iff.mpr hkey, Option.bind_some, hnone] at hsome
    cases hsome
  obtain ⟨as, has, hends⟩ :=
    (ends_pass_affected reachable_crowded conduct "node-1").2.2.2.1 hcached
  rw [hvolumes] at has
  obtain rfl : as = [⟨claim "pvc1" "pv1", ["Web", "app"]⟩, ⟨claim "pvc2" "pv2", ["app"]⟩] :=
    List.right_unique_forall₂' (fun _ _ _ ha hb => ha.unique hb) has affects_crowded
  exact ⟨reachable_crowded, hvolumes, hcached, (hends _ _).1.mpr (Or.inl ⟨rfl, rfl⟩),
    (hends _ _).2.mpr (Or.inl ⟨rfl, rfl⟩)⟩

end TwoClaims

end Node

end StorageHealth
