import Mathlib.Data.List.Nodup
import StorageHealth.Monitor
import StorageHealth.Proofs.Index.Mirror

/-!
# The consumers are the cached pods

The index from claims to pods only hears what the informer of pods reports.  `lookup_perm_cached`
says that a look-up nevertheless finds exactly the cached pods of the namespace that mount the
claim, each once and as it is cached now.

A pod without a namespace fills no slot, and the slots of the others name their namespace, so a pod
that is reported in place of one in a namespace does no harm.
-/

namespace StorageHealth

namespace ConsumerIndex

/-! ## Slots -/

lemma mem_slots_iff {p : Pod} {claim : ClaimKey} {name : String} :
    (claim, name) ∈ slots p ↔ namespaceOf p = some claim.ns ∧ claim.name ∈ p.claimNames ∧
      name = podName claim.ns p := by
  obtain ⟨ns, n⟩ := claim
  unfold slots
  cases hns : namespaceOf p with
  | none => simp
  | some ns' =>
    simp only [List.mem_map, Prod.mk.injEq, ClaimKey.mk.injEq, Option.some.injEq]
    constructor
    · rintro ⟨c, hc, ⟨rfl, rfl⟩, rfl⟩
      exact ⟨rfl, hc, rfl⟩
    · rintro ⟨rfl, hc, rfl⟩
      exact ⟨n, hc, ⟨rfl, rfl⟩, rfl⟩

lemma get?_foldl_insert (p : Pod) (keys : List (ClaimKey × String))
    (t : Table (ClaimKey × String) Pod) (s : ClaimKey × String) :
    (keys.foldl (fun t k => t.insert k p) t).get? s = if s ∈ keys then some p else t.get? s := by
  induction keys generalizing t with
  | nil => simp
  | cons k rest ih =>
    rw [List.foldl_cons, ih, Table.get?_insert]
    by_cases hk : k = s
    · subst hk
      by_cases hr : k ∈ rest <;> simp [hr]
    · by_cases hr : s ∈ rest <;> simp [hr, hk, Ne.symm hk]

lemma get?_foldl_erase (keys : List (ClaimKey × String)) (t : Table (ClaimKey × String) Pod)
    (s : ClaimKey × String) :
    (keys.foldl (fun t k => t.erase k) t).get? s = if s ∈ keys then none else t.get? s := by
  induction keys generalizing t with
  | nil => simp
  | cons k rest ih =>
    rw [List.foldl_cons, ih, Table.get?_erase]
    by_cases hk : k = s
    · subst hk
      by_cases hr : k ∈ rest <;> simp [hr]
    · by_cases hr : s ∈ rest <;> simp [hr, hk, Ne.symm hk]

/-- The index of consumers as a mirror: a slot holds the pod itself. -/
def mirror : Mirror Pod (ClaimKey × String) Pod ConsumerIndex where
  slots := slots
  content := id
  read := fun x s => x.entries.get? s
  insert := add
  remove := remove
  read_insert := fun x p s => by
    have h := get?_foldl_insert p (slots p) x.entries s
    by_cases hs : s ∈ slots p <;> simpa [add, hs] using h
  read_remove := fun x p s => by
    have h := get?_foldl_erase (slots p) x.entries s
    by_cases hs : s ∈ slots p <;> simpa [remove, hs] using h

lemma mirror_follow (x : ConsumerIndex) (c : Change Pod) : mirror.follow x c = x.follow c := by
  cases c <;> rfl

/-- Pods are told apart by their slots. -/
lemma separates : mirror.Separates fun _ => True where
  hasNamespace := fun p s _ hs => by
    obtain ⟨claim, name⟩ := s
    rw [(mem_slots_iff.mp hs).1]
    exact Option.some_ne_none claim.ns
  key_eq := fun p p' s _ _ hs hs' => by
    obtain ⟨claim, name⟩ := s
    obtain ⟨hns, -, hname⟩ := mem_slots_iff.mp hs
    obtain ⟨hns', -, hname'⟩ := mem_slots_iff.mp hs'
    have heq : podName claim.ns p = podName claim.ns p' := hname.symm.trans hname'
    have hchars := congrArg String.toList heq
    simp only [podName, String.toList_append, List.append_cancel_left_eq] at hchars
    simp only [ObjectKey.of, hns, hns', String.toList_injective hchars]

/-! ## Distinct slots -/

lemma distinct_foldl_insert (p : Pod) (keys : List (ClaimKey × String))
    {t : Table (ClaimKey × String) Pod} (h : t.Distinct) :
    (keys.foldl (fun t k => t.insert k p) t).Distinct := by
  induction keys generalizing t with
  | nil => exact h
  | cons k rest ih => exact ih (h.insert k p)

lemma distinct_foldl_erase (keys : List (ClaimKey × String))
    {t : Table (ClaimKey × String) Pod} (h : t.Distinct) :
    (keys.foldl (fun t k => t.erase k) t).Distinct := by
  induction keys generalizing t with
  | nil => exact h
  | cons k rest ih => exact ih (h.erase k)

lemma distinct_follow {x : ConsumerIndex} (h : x.entries.Distinct) (c : Change Pod) :
    (x.follow c).entries.Distinct := by
  cases c with
  | added p => exact distinct_foldl_insert p _ h
  | updated old new => exact distinct_foldl_insert new _ (distinct_foldl_erase _ h)
  | deleted p => exact distinct_foldl_erase _ h

lemma distinct_foldl_follow {x : ConsumerIndex} (h : x.entries.Distinct)
    (changes : List (Change Pod)) : (changes.foldl follow x).entries.Distinct := by
  induction changes generalizing x with
  | nil => exact h
  | cons c rest ih => exact ih (distinct_follow h c)

/-! ## Look-ups -/

lemma mem_lookup_iff {x : ConsumerIndex} (h : x.entries.Distinct) {claim : ClaimKey} {p : Pod} :
    p ∈ x.lookup claim ↔ ∃ name, x.entries.get? (claim, name) = some p := by
  simp only [lookup, List.mem_map, List.mem_filter, decide_eq_true_eq, ← Table.mem_entries_iff h]
  constructor
  · rintro ⟨⟨⟨claim', name⟩, p'⟩, ⟨hm, rfl⟩, rfl⟩
    exact ⟨name, hm⟩
  · rintro ⟨name, hm⟩
    exact ⟨((claim, name), p), ⟨hm, rfl⟩, rfl⟩

/-- When every entry stands in a slot of its pod, a look-up finds pods with different keys. -/
lemma nodup_lookup {x : ConsumerIndex} (h : x.entries.Distinct)
    (hslots : ∀ s p, x.entries.get? s = some p → s ∈ slots p) (claim : ClaimKey) :
    ((x.lookup claim).map ObjectKey.of).Nodup := by
  have hentries : (x.entries.entries.filter (fun e => e.1.1 = claim)).Pairwise
      (fun e e' => e.1 ≠ e'.1) :=
    (List.pairwise_map.mp h).sublist List.filter_sublist
  rw [lookup, List.map_map, List.Nodup, List.pairwise_map]
  refine hentries.imp_of_mem fun {e e'} he he' hne hkey => hne ?_
  -- two entries of a claim whose pods have one key have one pod name as well
  obtain ⟨hm, hclaim⟩ := List.mem_filter.mp he
  obtain ⟨hm', hclaim'⟩ := List.mem_filter.mp he'
  obtain ⟨⟨c, name⟩, p⟩ := e
  obtain ⟨⟨c', name'⟩, p'⟩ := e'
  obtain rfl : c = claim := by simpa using hclaim
  obtain rfl : c' = c := by simpa using hclaim'
  obtain ⟨-, -, rfl⟩ := mem_slots_iff.mp (hslots _ _ ((Table.mem_entries_iff h).mp hm))
  obtain ⟨-, -, rfl⟩ := mem_slots_iff.mp (hslots _ _ ((Table.mem_entries_iff h).mp hm'))
  have hname : nameOf p = nameOf p' := congrArg ObjectKey.name hkey
  simp only [podName, hname]

/-- An index in step finds the cached pods that mount a claim. -/
lemma lookup_perm_of_inStep {i : Informer Pod} {x : ConsumerIndex}
    (h : mirror.InStep (fun _ => True) i x) (hd : x.entries.Distinct) (claim : ClaimKey) :
    (x.lookup claim).Perm (i.store.objects.filter fun p =>
        namespaceOf p = some claim.ns ∧ claim.name ∈ p.claimNames) ∧
      ((x.lookup claim).map ObjectKey.of).Nodup := by
  have hread : ∀ s p, x.entries.get? s = some p ↔ p ∈ i.store.objects ∧ s ∈ slots p := by
    intro s p
    have hs := h.read_eq_some_iff mirror separates (s := s) (b := p)
    simpa [mirror, and_assoc] using hs
  have hkeys := nodup_lookup hd (fun s p hs => ((hread s p).mp hs).2) claim
  refine ⟨(List.perm_ext_iff_of_nodup (hkeys.of_map ObjectKey.of) ?_).mpr fun p => ?_, hkeys⟩
  · refine List.Nodup.filter _ (List.Nodup.of_map ObjectKey.of ?_)
    rw [h.sound.store.map_of_objects]
    exact h.sound.store.distinct
  · rw [mem_lookup_iff hd, List.mem_filter, decide_eq_true_eq]
    constructor
    · rintro ⟨name, hp⟩
      obtain ⟨hmem, hslot⟩ := (hread _ _).mp hp
      obtain ⟨hns, hclaim, -⟩ := mem_slots_iff.mp hslot
      exact ⟨hmem, hns, hclaim⟩
    · rintro ⟨hmem, hns, hclaim⟩
      exact ⟨_, (hread _ _).mpr ⟨hmem, mem_slots_iff.mpr ⟨hns, hclaim, rfl⟩⟩⟩

/-! ## Indices that have followed changes -/

/-- Every entry is the only one of its slot, and the slot is one of the pod. -/
structure Orderly (x : ConsumerIndex) : Prop where
  distinct : x.entries.Distinct
  slotted : ∀ s p, x.entries.get? s = some p → s ∈ slots p

lemma orderly_empty : empty.Orderly where
  distinct := Table.distinct_empty
  slotted := fun s p h => by cases h

lemma Orderly.add {x : ConsumerIndex} (h : x.Orderly) (p : Pod) : (x.add p).Orderly where
  distinct := distinct_foldl_insert p _ h.distinct
  slotted := fun s q hq => by
    rw [ConsumerIndex.add, get?_foldl_insert] at hq
    split at hq
    · rename_i hs
      cases hq
      exact hs
    · exact h.slotted s q hq

lemma Orderly.remove {x : ConsumerIndex} (h : x.Orderly) (p : Pod) : (x.remove p).Orderly where
  distinct := distinct_foldl_erase _ h.distinct
  slotted := fun s q hq => by
    rw [ConsumerIndex.remove, get?_foldl_erase] at hq
    split at hq
    · cases hq
    · exact h.slotted s q hq

lemma Orderly.follow {x : ConsumerIndex} (h : x.Orderly) (c : Change Pod) :
    (x.follow c).Orderly := by
  cases c with
  | added p => exact h.add p
  | updated old new => exact (h.remove old).add new
  | deleted p => exact h.remove p

/-- An index that has followed some changes. -/
inductive Reachable : ConsumerIndex → Prop where
  | empty : Reachable .empty
  | follow {x : ConsumerIndex} (before : Reachable x) (c : Change Pod) : Reachable (x.follow c)

lemma Reachable.orderly {x : ConsumerIndex} (h : x.Reachable) : x.Orderly := by
  induction h with
  | empty => exact orderly_empty
  | follow _ c ih => exact ih.follow c

/-- The pods of a claim have different names. -/
lemma Orderly.nodup_names {x : ConsumerIndex} (h : x.Orderly) (claim : ClaimKey) :
    ((x.lookup claim).map nameOf).Nodup := by
  have hkeys := nodup_lookup h.distinct h.slotted claim
  rw [List.Nodup, List.pairwise_map] at hkeys ⊢
  refine hkeys.imp_of_mem fun {p q} hp hq hne hname => hne ?_
  obtain ⟨_, hp⟩ := (mem_lookup_iff h.distinct).mp hp
  obtain ⟨_, hq⟩ := (mem_lookup_iff h.distinct).mp hq
  have hns := (mem_slots_iff.mp (h.slotted _ p hp)).1
  have hns' := (mem_slots_iff.mp (h.slotted _ q hq)).1
  simp only [ObjectKey.of, hname, hns, hns']

lemma Orderly.nodup_lookup {x : ConsumerIndex} (h : x.Orderly) (claim : ClaimKey) :
    (x.lookup claim).Nodup := (h.nodup_names claim).of_map nameOf

end ConsumerIndex

/-! ## Runs of watch events -/

namespace Monitor

/-- The index of consumers is in step with the cache of pods. -/
structure PodsInStep (m : Monitor) : Prop where
  inStep : ConsumerIndex.mirror.InStep (fun _ => True) m.caches.pods m.consumers
  distinct : m.consumers.entries.Distinct

lemma podsInStep_fresh (c : Conduct) : (fresh c).PodsInStep where
  inStep := ConsumerIndex.mirror.inStep_fresh fun _ => rfl
  distinct := Table.distinct_empty

lemma PodsInStep.observe {m : Monitor} (h : m.PodsInStep) (e : WatchEvent Pod) :
    (m.observe .pod e).1.PodsInStep := by
  have hstep := Mirror.InStep.observe ConsumerIndex.mirror h.inStep (e := e) (fun _ _ => trivial)
  rw [funext₂ ConsumerIndex.mirror_follow] at hstep
  rw [observe_pod]
  exact ⟨hstep, ConsumerIndex.distinct_foldl_follow h.distinct _⟩

lemma PodsInStep.observeAll {m : Monitor} (h : m.PodsInStep) (events : List (WatchEvent Pod)) :
    (m.observeAll .pod events).1.PodsInStep := by
  induction events generalizing m with
  | nil => exact h
  | cons e rest ih => exact ih (h.observe e)

/-- After any watch events about pods, a look-up finds the cached pods of the namespace that mount
the claim, each once and in its cached version, and a claim is contained when there are any. -/
theorem lookup_perm_cached (c : Conduct) (events : List (WatchEvent Pod)) (claim : ClaimKey) :
    let m := ((fresh c).observeAll .pod events).1
    (m.consumers.lookup claim).Perm ((m.cached .pod).objects.filter fun p : Pod =>
        namespaceOf p = some claim.ns ∧ claim.name ∈ p.claimNames) ∧
      ((m.consumers.lookup claim).map ObjectKey.of).Nodup ∧
      (m.consumers.containsClaim claim = true ↔ ∃ p ∈ (m.cached .pod).objects,
        namespaceOf (p : Pod) = some claim.ns ∧ claim.name ∈ Pod.claimNames p) := by
  intro m
  have h : m.PodsInStep := (podsInStep_fresh c).observeAll events
  obtain ⟨hperm, hkeys⟩ := ConsumerIndex.lookup_perm_of_inStep h.inStep h.distinct claim
  refine ⟨hperm, hkeys, ?_⟩
  rw [ConsumerIndex.containsClaim_eq, hperm.isEmpty_eq]
  simp only [Bool.not_eq_true', List.isEmpty_eq_false_iff_exists_mem, List.mem_filter,
    decide_eq_true_eq]
  exact Iff.rfl

end Monitor

/-! ## Pods that mount another claim -/

namespace Remounted

open Monitor

/-- A pod in some version that mounts claims. -/
def pod (name version : String) (claims : List String) : Pod :=
  ⟨⟨some name, none, some "default", some name, some version, false⟩, some "node-1",
    claims.map some⟩

/-- A pod is known with one claim and then listed twice with another one, along with a second
pod. -/
def events : List (WatchEvent Pod) :=
  [.apply (pod "web" "1" ["data"]), .init, .initApply (pod "web" "2" ["logs"]),
    .initApply (pod "web" "3" ["logs", "logs"]), .initApply (pod "db" "1" ["logs"]), .initDone]

/-- The monitor after the list. -/
def listed : Monitor := ((fresh (.usual "csi")).observeAll .pod events).1

/-- Both pods are found for the claim that they mount, and nothing is left of the other claim. -/
theorem found_by_logs :
    (listed.cached .pod).objects = [pod "web" "3" ["logs", "logs"], pod "db" "1" ["logs"]] ∧
    (listed.consumers.lookup ⟨"default", "logs"⟩).Perm
      [pod "web" "3" ["logs", "logs"], pod "db" "1" ["logs"]] ∧
    listed.consumers.containsClaim ⟨"default", "logs"⟩ = true ∧
    listed.consumers.containsClaim ⟨"default", "data"⟩ = false := by
  have hcached : (listed.cached .pod).objects =
      [pod "web" "3" ["logs", "logs"], pod "db" "1" ["logs"]] := by decide +kernel
  obtain ⟨hperm, -, hlogs⟩ := lookup_perm_cached (.usual "csi") events ⟨"default", "logs"⟩
  obtain ⟨-, -, hdata⟩ := lookup_perm_cached (.usual "csi") events ⟨"default", "data"⟩
  change (listed.consumers.lookup _).Perm ((listed.cached .pod).objects.filter _) at hperm
  change _ ↔ ∃ p ∈ (listed.cached .pod).objects, _ at hlogs hdata
  rw [hcached] at hperm hlogs hdata
  refine ⟨hcached, hperm, hlogs.mpr ⟨_, List.mem_cons_self, rfl, List.mem_cons_self⟩, ?_⟩
  rw [Bool.eq_false_iff]
  exact fun hcontains => absurd (hdata.mp hcontains) (by decide)

end Remounted

end StorageHealth
