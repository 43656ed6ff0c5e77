import StorageHealth.Proofs.Index.Consumers
import StorageHealth.Proofs.Index.Filings
import StorageHealth.Proofs.Index.Shelves

/-!
# What the index of consumers knows of its changes

The index from claims to pods follows any changes of pods: pods may be added again, replaced
although they were never added, or removed in a version that mounts other claims.  Whether a pod is
found under a claim is then decided by the last filing of a pod of its name that mounts the claim,
and by no other (`LastPut`).

`PodShelves` holds the pods of each claim by their names, on a shelf of the claim that goes with the
last pod.  It follows the same changes, and the index is the flat view of it.

A pod of a name that is not found under its claims leaves no trace when it is added and removed
again (`remove_add_of_lacks`).
-/

namespace StorageHealth

namespace ConsumerIndex

/-- What becomes of an empty index. -/
def afterAll (changes : List (Change Pod)) : ConsumerIndex := changes.foldl follow empty

lemma reachable_afterAll (changes : List (Change Pod)) : (afterAll changes).Reachable := by
  induction changes using List.reverseRecOn with
  | nil => exact Reachable.empty
  | append_singleton changes c ih =>
    rw [afterAll, List.foldl_append]
    exact ih.follow c

/-! ## Last filings -/

/-- A pod of this name that mounts the claim, in the namespace of the claim. -/
def Concerns (claim : ClaimKey) (name : String) (p : Pod) : Prop :=
  namespaceOf p = some claim.ns ∧ nameOf p = name ∧ claim.name ∈ p.claimNames

/-- Of the pods of this name that mount the claim, this very pod was put in last, and it was not
taken out since. -/
def LastPut (claim : ClaimKey) (p : Pod) (filings : List (Filing Pod)) : Prop :=
  Standing (fun _ f => f = .put p ∧ Concerns claim (nameOf p) p)
    (fun f => Concerns claim (nameOf p) f.object) filings

lemma mem_slots_podName_iff {claim : ClaimKey} {p q : Pod} :
    (claim, podName claim.ns p) ∈ slots q ↔ Concerns claim (nameOf p) q := by
  have hname : podName claim.ns p = podName claim.ns q ↔ nameOf q = nameOf p := by
    rw [podName, podName, String.append_right_inj, eq_comm]
  rw [mem_slots_iff, hname, Concerns]
  exact and_congr_right fun _ => and_comm

/-- A slot holds the pod that the last filing which touches it has put there. -/
lemma get?_afterAll_eq_some_iff {changes : List (Change Pod)} {s : ClaimKey × String} {p : Pod} :
    (afterAll changes).entries.get? s = some p ↔
      Standing (fun _ f => mirror.Fills s p f) (mirror.Touches s)
        (changes.flatMap Change.filings) := by
  have hread := mirror.read_foldl_file_eq_some_iff (x := empty) (s := s) (b := p) rfl
    (changes.flatMap Change.filings)
  rw [← mirror.foldl_follow_eq, funext₂ mirror_follow] at hread
  exact hread

lemma mem_lookup_afterAll_iff {changes : List (Change Pod)} {claim : ClaimKey} {p : Pod} :
    p ∈ (afterAll changes).lookup claim ↔ LastPut claim p (changes.flatMap Change.filings) := by
  have horderly := (reachable_afterAll changes).orderly
  have hfills : ∀ f, mirror.Fills (claim, podName claim.ns p) p f ↔
      f = .put p ∧ Concerns claim (nameOf p) p := by
    intro f
    rw [← mem_slots_podName_iff]
    constructor
    · rintro ⟨q, rfl, hs, rfl⟩
      exact ⟨rfl, hs⟩
    · rintro ⟨rfl, hs⟩
      exact ⟨p, rfl, hs, rfl⟩
  have hstanding : LastPut claim p (changes.flatMap Change.filings) ↔
      (afterAll changes).entries.get? (claim, podName claim.ns p) = some p := by
    rw [get?_afterAll_eq_some_iff]
    simp only [LastPut, Standing, hfills, Mirror.Touches, ← mem_slots_podName_iff]
    exact Iff.rfl
  rw [mem_lookup_iff horderly.distinct, hstanding]
  constructor
  · rintro ⟨name, hp⟩
    obtain ⟨-, -, rfl⟩ := mem_slots_iff.mp (horderly.slotted _ p hp)
    exact hp
  · exact fun hp => ⟨_, hp⟩

end ConsumerIndex

/-! ## Pods on shelves -/

/-- The pods of each claim by their names, on a shelf of the claim. -/
abbrev PodShelves := Shelves ClaimKey (String × Pod)

namespace PodShelves

open ConsumerIndex (slots)

/-- Adds a pod under every claim it mounts. -/
def add (y : PodShelves) (p : Pod) : PodShelves :=
  (slots p).foldl (fun y s => Shelves.shelve y s.1 (Table.put s.2 p)) y

/-- Removes a pod from every claim it mounts, and the claims that are left without pods. -/
def remove (y : PodShelves) (p : Pod) : PodShelves :=
  (slots p).foldl (fun y s => Shelves.unshelve y s.1 (List.filter fun e => e.1 ≠ s.2)) y

/-- Replaces a pod, so that it leaves the claims it no longer mounts. -/
def replace (y : PodShelves) (old new : Pod) : PodShelves := (y.remove old).add new

/-- Follows a change of a pod. -/
def follow (y : PodShelves) : Change Pod → PodShelves
  | .added p => y.add p
  | .updated old new => y.replace old new
  | .deleted p => y.remove p

/-- What becomes of the shelves without pods. -/
def afterAll (changes : List (Change Pod)) : PodShelves := changes.foldl follow Table.empty

/-- The pods that mount a claim. -/
def lookup (y : PodShelves) (claim : ClaimKey) : List Pod := ((y.get? claim).getD []).map Prod.snd

/-- Whether any pod mounts a claim. -/
def containsClaim (y : PodShelves) (claim : ClaimKey) : Bool := y.contains claim

variable {y : PodShelves} {x : ConsumerIndex}

lemma put_ne_nil (name : String) (p : Pod) (l : List (String × Pod)) : Table.put name p l ≠ [] := by
  cases l with
  | nil => exact List.cons_ne_nil _ _
  | cons e rest =>
    rw [Table.put]
    split <;> exact List.cons_ne_nil _ _

lemma holds_add (h : Shelves.Holds y x.entries.under) (p : Pod) :
    Shelves.Holds (y.add p) (x.add p).entries.under := by
  unfold add ConsumerIndex.add
  generalize x.entries = t at h ⊢
  induction slots p generalizing y t with
  | nil => exact h
  | cons s rest ih =>
    obtain ⟨claim, name⟩ := s
    refine ih _ ?_
    rw [Table.under_insert]
    exact h.shelve (put_ne_nil name p _)

lemma holds_remove (h : Shelves.Holds y x.entries.under) (p : Pod) :
    Shelves.Holds (y.remove p) (x.remove p).entries.under := by
  unfold remove ConsumerIndex.remove
  generalize x.entries = t at h ⊢
  induction slots p generalizing y t with
  | nil => exact h
  | cons s rest ih =>
    obtain ⟨claim, name⟩ := s
    refine ih _ ?_
    rw [Table.under_erase]
    exact h.unshelve rfl

lemma holds_follow (h : Shelves.Holds y x.entries.under) (c : Change Pod) :
    Shelves.Holds (y.follow c) (x.follow c).entries.under := by
  cases c with
  | added p => exact holds_add h p
  | updated old new => exact holds_add (holds_remove h old) new
  | deleted p => exact holds_remove h p

/-- Whatever changes are followed, the shelf of a claim holds what the index has under it. -/
lemma holds_afterAll (changes : List (Change Pod)) :
    Shelves.Holds (afterAll changes) (ConsumerIndex.afterAll changes).entries.under := by
  induction changes using List.reverseRecOn with
  | nil => exact Shelves.holds_empty
  | append_singleton changes c ih =>
    rw [afterAll, ConsumerIndex.afterAll, List.foldl_append, List.foldl_append]
    exact holds_follow ih c

lemma lookup_eq_of_holds (h : Shelves.Holds y x.entries.under) (claim : ClaimKey) :
    y.lookup claim = x.lookup claim := by
  rw [lookup, h.getD_eq, Table.under, ConsumerIndex.lookup, List.map_map]
  rfl

lemma containsClaim_eq_of_holds (h : Shelves.Holds y x.entries.under) (claim : ClaimKey) :
    y.containsClaim claim = x.containsClaim claim := by
  rw [Bool.eq_iff_iff, containsClaim, h.contains_iff, ConsumerIndex.containsClaim_eq,
    Table.under, ConsumerIndex.lookup]
  simp

end PodShelves

/-! ## Adding and removing a pod -/

namespace Table

variable {κ α : Type} [DecidableEq κ]

lemma filter_put {keys : List κ} {k : κ} (hk : k ∈ keys) (a : α) (l : List (κ × α)) :
    (put k a l).filter (fun e => e.1 ∉ keys) = l.filter fun e => e.1 ∉ keys := by
  induction l with
  | nil => simp [put, hk]
  | cons e rest ih =>
    rw [put]
    split
    · rename_i hsame
      simp [hsame, hk]
    · rw [List.filter_cons, List.filter_cons, ih]

lemma entries_foldl_erase (keys : List κ) (t : Table κ α) :
    (keys.foldl (fun t k => t.erase k) t).entries = t.entries.filter fun e => e.1 ∉ keys := by
  induction keys generalizing t with
  | nil => simp
  | cons k rest ih =>
    rw [List.foldl_cons, ih, erase, List.filter_filter]
    refine List.filter_congr fun e _ => ?_
    simp [Bool.and_comm]

lemma filter_foldl_insert {keys : List κ} (a : α) {ks : List κ} (hks : ∀ k ∈ ks, k ∈ keys)
    (t : Table κ α) : (ks.foldl (fun t k => t.insert k a) t).entries.filter (fun e => e.1 ∉ keys) =
      t.entries.filter fun e => e.1 ∉ keys := by
  induction ks generalizing t with
  | nil => rfl
  | cons k rest ih =>
    rw [List.foldl_cons, ih fun k' hk' => hks k' (List.mem_cons_of_mem k hk')]
    exact filter_put (hks k List.mem_cons_self) a t.entries

/-- Writing and erasing keys that are not stored leaves a table as it was. -/
lemma foldl_erase_foldl_insert {keys : List κ} {t : Table κ α} (h : ∀ k ∈ keys, t.get? k = none)
    (a : α) :
    keys.foldl (fun t k => t.erase k) (keys.foldl (fun t k => t.insert k a) t) = t := by
  have habsent : ∀ e ∈ t.entries, e.1 ∉ keys := by
    intro e he hk
    have hstored : t.contains e.1 = true :=
      (t.contains_iff_mem_keys e.1).mpr (List.mem_map_of_mem he)
    rw [contains, h e.1 hk] at hstored
    cases hstored
  have hentries : (keys.foldl (fun t k => t.erase k)
      (keys.foldl (fun t k => t.insert k a) t)).entries = t.entries := by
    rw [entries_foldl_erase, filter_foldl_insert a fun _ hk => hk]
    exact List.filter_eq_self.mpr fun e he => decide_eq_true (habsent e he)
  exact congrArg Table.mk hentries

end Table

namespace ConsumerIndex

/-- No pod of this pod's name is found under the claims it mounts. -/
def Lacks (x : ConsumerIndex) (p : Pod) : Prop :=
  ∀ claim : ClaimKey, namespaceOf p = some claim.ns → claim.name ∈ p.claimNames →
    ∀ q ∈ x.lookup claim, nameOf q ≠ nameOf p

/-- A pod whose name is not found under its claims leaves no trace. -/
lemma remove_add_of_lacks {x : ConsumerIndex} (h : x.Orderly) {p : Pod} (hp : x.Lacks p) :
    (x.add p).remove p = x := by
  have habsent : ∀ s ∈ slots p, x.entries.get? s = none := by
    rintro ⟨claim, name⟩ hs
    obtain ⟨hns, hmounts, rfl⟩ := mem_slots_iff.mp hs
    refine Option.eq_none_iff_forall_ne_some.mpr fun q hq => ?_
    have hfound : q ∈ x.lookup claim := (mem_lookup_iff h.distinct).mpr ⟨_, hq⟩
    have hslot : (claim, podName claim.ns p) ∈ slots q := h.slotted _ q hq
    exact hp claim hns hmounts q hfound (mem_slots_podName_iff.mp hslot).2.1
  exact congrArg ConsumerIndex.mk (Table.foldl_erase_foldl_insert habsent p)

/-! ## What is known after any changes -/

/-- What is known of an index, and of the shelves that hold it, after some changes. -/
structure Register (changes : List (Change Pod)) : Prop where
  /-- A pod is found under a claim when it was put there last. -/
  mem_lookup_iff : ∀ claim p, p ∈ (afterAll changes).lookup claim ↔
    LastPut claim p (changes.flatMap Change.filings)
  /-- The pods of a claim have different names, -/
  nodup_names : ∀ claim, (((afterAll changes).lookup claim).map nameOf).Nodup
  /-- they are in its namespace, and they mount it. -/
  mounts : ∀ claim, ∀ p ∈ (afterAll changes).lookup claim,
    namespaceOf p = some claim.ns ∧ claim.name ∈ p.claimNames
  /-- A claim is contained when a pod is found under it. -/
  containsClaim_iff : ∀ claim,
    (afterAll changes).containsClaim claim = true ↔ (afterAll changes).lookup claim ≠ []
  /-- No claim is held without pods, -/
  occupied : ∀ claim pods, (PodShelves.afterAll changes).get? claim = some pods → pods ≠ []
  /-- and the shelves give the same answers as the index. -/
  lookup_eq : ∀ claim,
    (PodShelves.afterAll changes).lookup claim = (afterAll changes).lookup claim
  containsClaim_eq : ∀ claim,
    (PodShelves.afterAll changes).containsClaim claim = (afterAll changes).containsClaim claim
  /-- A pod that is added and removed again leaves every look-up as it was, unless a pod of its name
  was found under its claims. -/
  restored : ∀ p, (afterAll changes).Lacks p → ∀ claim,
    (((afterAll changes).add p).remove p).lookup claim = (afterAll changes).lookup claim

/-- Whatever changes an index follows, its pods and claims are accounted for. -/
theorem keeps_register (changes : List (Change Pod)) : Register changes := by
  have horderly := (reachable_afterAll changes).orderly
  have hholds := PodShelves.holds_afterAll changes
  exact {
    mem_lookup_iff := fun claim p => mem_lookup_afterAll_iff
    nodup_names := horderly.nodup_names
    mounts := by
      intro claim p hp
      obtain ⟨name, hp⟩ := (ConsumerIndex.mem_lookup_iff horderly.distinct).mp hp
      obtain ⟨hns, hclaim, -⟩ := mem_slots_iff.mp (horderly.slotted _ p hp)
      exact ⟨hns, hclaim⟩
    containsClaim_iff := by
      intro claim
      rw [ConsumerIndex.containsClaim_eq, Bool.not_eq_true', List.isEmpty_eq_false_iff]
    occupied := fun claim pods hpods => hholds.ne_nil hpods
    lookup_eq := PodShelves.lookup_eq_of_holds hholds
    containsClaim_eq := PodShelves.containsClaim_eq_of_holds hholds
    restored := by
      intro p hp claim
      rw [remove_add_of_lacks horderly hp] }

end ConsumerIndex

/-! ## A removal that is out of date -/

namespace StaleRemoval

open ConsumerIndex

/-- A pod with its mounts. -/
def pod (name : String) (mounts : List (Option String)) : Pod :=
  ⟨⟨some name, none, some "default", none, none, false⟩, none, mounts⟩

/-- The pod as it is in the end: it mounts a claim twice. -/
def current : Pod := pod "app" [some "data", none, some "data"]

/-- The pod replaces another that was never added, and its removal is one with another claim. -/
def changes : List (Change Pod) :=
  [.added (pod "app" [some "data"]), .updated (pod "web" [some "data"]) current,
    .deleted (pod "app" [some "logs"])]

/-- A pod that is not there. -/
def visitor : Pod := pod "web" [some "data"]

/-- The pod is still found as it was put in last, and a visitor leaves no trace. -/
theorem found_alone : LastPut ⟨"default", "data"⟩ current (changes.flatMap Change.filings) ∧
    (afterAll changes).Lacks visitor ∧
    (((afterAll changes).add visitor).remove visitor).lookup ⟨"default", "data"⟩ = [current] := by
  have hregister := keeps_register changes
  have hfound : (afterAll changes).lookup ⟨"default", "data"⟩ = [current] := by decide
  have hlacks : (afterAll changes).Lacks visitor := by
    rintro ⟨ns, name⟩ hns hname q hq
    obtain rfl : "default" = ns := Option.some.inj hns
    obtain rfl : name = "data" := List.mem_singleton.mp hname
    rw [hfound, List.mem_singleton] at hq
    rw [hq]
    decide
  refine ⟨(hregister.mem_lookup_iff _ _).mp ?_, hlacks, ?_⟩
  · rw [hfound]
    exact List.mem_singleton_self current
  · rw [hregister.restored visitor hlacks, hfound]

end StaleRemoval

end StorageHealth
