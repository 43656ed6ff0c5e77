import Mathlib.Tactic.Common
import StorageHealth.Cluster.Informer

/-!
# Changes, replayed

An informer reports what changed, and whoever only hears the changes should be able to keep up with
the store.  This file follows a single key: `Change.versionAfter` is the object under the key after
a change, `Change.Agrees` says that a change is right about what stood there before.

What an informer remembers of a list and what its writer collects are two things.  They are in step
from the beginning, and every watch event keeps them so (`Coherent.observe`), also when a list is
begun again or ends without having begun.

`observe_agrees` says that the changes reported for a watch event are right, each at its turn, about
every key that no look-up falls back to, and that replaying them leads from the object that was
stored under the key to the one that is stored there now.  For a re-list this is an induction over
the list in which a key has either been answered for, and then stands as in the new store, or stands
as in the old one.
-/

namespace StorageHealth

/-! ## Sound stores -/

namespace Store

variable {α : Type} [Identified α]

/-- Every object stands under its own key, and no key has two objects. -/
structure Sound (s : Store α) : Prop where
  distinct : Table.Distinct s
  keyed : ∀ e ∈ Table.entries s, ObjectKey.of e.2 = e.1

/-- The objects of a sound store are the ones stored under their own keys. -/
lemma Sound.mem_objects_iff {s : Store α} (h : s.Sound) {a : α} :
    a ∈ s.objects ↔ s.stored? (.of a) = some a := by
  unfold stored? objects Table.values
  rw [← Table.mem_entries_iff h.distinct, List.mem_map]
  constructor
  · rintro ⟨e, he, rfl⟩
    rwa [h.keyed e he]
  · intro he
    exact ⟨_, he, rfl⟩

/-- The objects of a sound store have the keys of the store. -/
lemma Sound.map_of_objects {s : Store α} (h : s.Sound) :
    s.objects.map ObjectKey.of = Table.keys s := by
  rw [objects, Table.values, Table.keys, List.map_map]
  exact List.map_congr_left h.keyed

/-- In a sound store an object is found under its own key only. -/
lemma Sound.of_eq {s : Store α} (h : s.Sound) {k : ObjectKey} {a : α}
    (hk : s.stored? k = some a) : ObjectKey.of a = k :=
  h.keyed (k, a) ((Table.mem_entries_iff h.distinct).mpr hk)

lemma Sound.mem_of_stored {s : Store α} (h : s.Sound) {k : ObjectKey} {a : α}
    (hk : s.stored? k = some a) : a ∈ s.objects := by
  rw [h.mem_objects_iff, h.of_eq hk]
  exact hk

/-- What a look-up finds stands under its own key. -/
lemma Sound.stored_of_lookup {s : Store α} (h : s.Sound) {k : ObjectKey} {a : α}
    (hk : s.lookup? k = some a) : s.stored? (.of a) = some a := by
  rcases Option.or_eq_some_iff.mp hk with hs | ⟨_, hs⟩
  · rwa [h.of_eq hs]
  · rwa [h.of_eq hs]

/-- A look-up that leaves its namespace finds an object without one. -/
lemma Sound.of_lookup {s : Store α} (h : s.Sound) {k : ObjectKey} {a : α}
    (hk : s.lookup? k = some a) : ObjectKey.of a = k ∨ ObjectKey.of a = .unscoped k.name := by
  rcases Option.or_eq_some_iff.mp hk with hs | ⟨_, hs⟩
  · exact Or.inl (h.of_eq hs)
  · exact Or.inr (h.of_eq hs)

lemma sound_empty : Sound (Table.empty : Store α) where
  distinct := Table.distinct_empty
  keyed := by simp

lemma Sound.write {s : Store α} (h : s.Sound) (a : α) : (s.write a).Sound where
  distinct := Table.Distinct.insert h.distinct _ a
  keyed := by
    rintro ⟨k, b⟩ hb
    have hk : (s.write a).stored? k = some b :=
      (Table.mem_entries_iff (Table.Distinct.insert h.distinct _ a)).mp hb
    rw [stored?_write] at hk
    split at hk
    · rename_i hka
      cases hk
      exact hka
    · exact h.of_eq hk

lemma Sound.remove {s : Store α} (h : s.Sound) (a : α) : (s.remove a).Sound where
  distinct := Table.Distinct.erase h.distinct _
  keyed := fun e he => h.keyed e ((List.mem_filter.mp he).1)

lemma Sound.erase {s : Store α} (h : s.Sound) (k : ObjectKey) : Sound (Table.erase s k) where
  distinct := Table.Distinct.erase h.distinct _
  keyed := fun e he => h.keyed e ((List.mem_filter.mp he).1)

lemma Sound.foldl_write {s : Store α} (h : s.Sound) (objects : List α) :
    Sound (objects.foldl Store.write s) := by
  induction objects generalizing s with
  | nil => exact h
  | cons a rest ih => exact ih (h.write a)

lemma sound_ofObjects (objects : List α) : (ofObjects objects).Sound :=
  sound_empty.foldl_write objects

lemma mem_of_mem_write {s : Store α} {a b : α} (h : b ∈ (s.write a).objects) :
    b = a ∨ b ∈ s.objects := by
  obtain ⟨e, he, rfl⟩ := List.mem_map.mp h
  rcases Table.mem_of_mem_put he with rfl | he
  · exact Or.inl rfl
  · exact Or.inr (List.mem_map.mpr ⟨e, he, rfl⟩)

lemma mem_of_mem_remove {s : Store α} {a b : α} (h : b ∈ (s.remove a).objects) :
    b ∈ s.objects := by
  obtain ⟨e, he, rfl⟩ := List.mem_map.mp h
  exact List.mem_map.mpr ⟨e, (List.mem_filter.mp he).1, rfl⟩

/-- A store made from a list holds objects of the list only. -/
lemma mem_of_mem_ofObjects {objects : List α} {b : α} (h : b ∈ (ofObjects objects).objects) :
    b ∈ objects := by
  suffices hs : ∀ (s : Store α), b ∈ Store.objects (objects.foldl write s) →
      b ∈ s.objects ∨ b ∈ objects by
    rcases hs Table.empty h with hb | hb
    · exact absurd hb List.not_mem_nil
    · exact hb
  clear h
  induction objects with
  | nil => exact fun s hb => Or.inl hb
  | cons a rest ih =>
    intro s hb
    rcases ih (s.write a) hb with hb | hb
    · rcases mem_of_mem_write hb with rfl | hb
      · exact Or.inr List.mem_cons_self
      · exact Or.inl hb
    · exact Or.inr (List.mem_cons_of_mem a hb)

lemma isSome_stored?_foldl_write (s : Store α) (objects : List α) (k : ObjectKey) :
    ((objects.foldl write s).stored? k).isSome ↔
      (s.stored? k).isSome ∨ ∃ a ∈ objects, ObjectKey.of a = k := by
  induction objects generalizing s with
  | nil => simp
  | cons a rest ih =>
    rw [List.foldl_cons, ih, stored?_write]
    by_cases ha : ObjectKey.of a = k <;> simp [ha]

/-- A store made from a list has exactly the keys of the list. -/
lemma isSome_stored?_ofObjects (objects : List α) (k : ObjectKey) :
    ((ofObjects objects).stored? k).isSome ↔ ∃ a ∈ objects, ObjectKey.of a = k := by
  rw [ofObjects, isSome_stored?_foldl_write]
  simp [stored?]

end Store

/-! ## Changes about one key -/

namespace Change

variable {α : Type} [Identified α]

/-- The objects a change names. -/
def objects : Change α → List α
  | added a => [a]
  | updated old new => [old, new]
  | deleted a => [a]

/-- The object under a key after a change, when `v` was there before. -/
def versionAfter (k : ObjectKey) (v : Option α) : Change α → Option α
  | added a => if ObjectKey.of a = k then some a else v
  | updated _ new => if ObjectKey.of new = k then some new else v
  | deleted a => if ObjectKey.of a = k then none else v

/-- A change is right about a key under which `v` stands: it hands back `v` itself, or nothing was
there, or it adds what is there already. -/
def Agrees (k : ObjectKey) (v : Option α) : Change α → Prop
  | added a => ObjectKey.of a = k → v = none ∨ v = some a
  | updated old new =>
    (ObjectKey.of old = k → ObjectKey.of new = k) ∧
      (ObjectKey.of new = k → v = some old ∨ (v = none ∧ ObjectKey.of old ≠ k))
  | deleted a => ObjectKey.of a = k → v = none ∨ v = some a

/-- Changes that are right about a key, each at its turn. -/
def AgreeAll (k : ObjectKey) : Option α → List (Change α) → Prop
  | _, [] => True
  | v, c :: rest => c.Agrees k v ∧ AgreeAll k (c.versionAfter k v) rest

/-- Deletions of stored objects are right, and leave nothing under their keys. -/
lemma agreeAll_map_deleted {k : ObjectKey} {v : Option α} {gone : List α}
    (h : ∀ a ∈ gone, ObjectKey.of a = k → v = none ∨ v = some a) :
    AgreeAll k v (gone.map deleted) := by
  induction gone generalizing v with
  | nil => trivial
  | cons a rest ih =>
    refine ⟨h a List.mem_cons_self, ih fun b hb hbk => ?_⟩
    by_cases ha : ObjectKey.of a = k
    · exact Or.inl (if_pos ha)
    · simpa [versionAfter, ha] using h b (List.mem_cons_of_mem a hb) hbk

lemma foldl_versionAfter_map_deleted (k : ObjectKey) (v : Option α) (gone : List α) :
    (gone.map deleted).foldl (versionAfter k) v =
      if ∃ a ∈ gone, ObjectKey.of a = k then none else v := by
  induction gone generalizing v with
  | nil => simp
  | cons a rest ih =>
    rw [List.map_cons, List.foldl_cons, ih]
    by_cases ha : ObjectKey.of a = k <;> simp [versionAfter, ha]

end Change

/-! ## What an informer reports -/

/-- The object that a watch event is about. -/
def WatchEvent.object? {α : Type} : WatchEvent α → Option α
  | .apply a => some a
  | .delete a => some a
  | .initApply a => some a
  | .init => none
  | .initDone => none

namespace Informer

variable {α : Type} [Identified α]

/-! ### The list and the buffer -/

/-- The list of an informer is in step with the buffer of its writer: the buffer holds what the list
names. -/
def Coherent (i : Informer α) : Prop := i.buffer = Store.ofObjects i.listed

lemma coherent_fresh : (fresh : Informer α).Coherent := rfl

/-- A watch event leaves both alone, empties both, or adds its object to both. -/
lemma Coherent.observe {i : Informer α} (h : i.Coherent) (e : WatchEvent α) :
    (i.observe e).1.Coherent := by
  cases e with
  | apply a => exact h
  | delete a => exact h
  | init => rfl
  | initApply a =>
    have hbuffer : (i.observe (.initApply a)).1.buffer = i.buffer.write a := rfl
    have hlisted : (i.observe (.initApply a)).1.listed = i.listed ++ [a] := rfl
    rw [Coherent, hbuffer, hlisted, h, Store.ofObjects, Store.ofObjects, List.foldl_append]
    rfl
  | initDone => rfl

/-- Over any watch events the list and the buffer stay in step. -/
lemma Coherent.observeAll {i : Informer α} (h : i.Coherent) (es : List (WatchEvent α)) :
    (i.observeAll es).1.Coherent := by
  induction es generalizing i with
  | nil => exact h
  | cons e rest ih => exact ih (h.observe e)

/-- The store is sound, and the list is in step with the buffer. -/
structure Sound (i : Informer α) : Prop where
  store : i.store.Sound
  coherent : i.Coherent

lemma sound_fresh : (fresh : Informer α).Sound := ⟨Store.sound_empty, coherent_fresh⟩

/-- A buffer that is in step is sound. -/
lemma Coherent.sound_buffer {i : Informer α} (h : i.Coherent) : i.buffer.Sound := by
  rw [h]
  exact Store.sound_ofObjects i.listed

/-- Watch events keep an informer sound. -/
lemma Sound.observe {i : Informer α} (h : i.Sound) (e : WatchEvent α) : (i.observe e).1.Sound where
  store := by
    cases e with
    | apply a => exact h.store.write a
    | delete a => exact h.store.remove a
    | init => exact h.store
    | initApply a => exact h.store
    | initDone => exact h.coherent.sound_buffer
  coherent := h.coherent.observe e

/-- Keeping step with a watch keeps an informer sound. -/
lemma Sound.observeAll {i : Informer α} (h : i.Sound) (es : List (WatchEvent α)) :
    (i.observeAll es).1.Sound := by
  induction es generalizing i with
  | nil => exact h
  | cons e rest ih => exact ih (h.observe e)

/-! ### Changes -/

/-- No look-up made for an event finds the object under `k` unless it asked for that key. -/
def Direct (i : Informer α) (e : WatchEvent α) (k : ObjectKey) : Prop :=
  ∀ a, e.object? = some a → ∀ b, i.store.lookup? (.of a) = some b →
    ObjectKey.of b = k → ObjectKey.of a = k

/-- Look-ups never fall back to a key with a namespace. -/
lemma direct_of_scoped {i : Informer α} (h : i.store.Sound) (e : WatchEvent α) {k : ObjectKey}
    (hk : k.ns ≠ none) : i.Direct e k := by
  intro a _ b hb hbk
  rcases h.of_lookup hb with ho | ho
  · exact ho.symm.trans hbk
  · exact absurd (hbk ▸ ho ▸ rfl : k.ns = none) hk

/-- While a list is compared, a key has been answered for, and then stands as in the new store, or
it stands as in the old one; then it is yet to be listed, unless the new store does not have it. -/
def Compared (current previous : Store α) (listed : List α) (k : ObjectKey) (v : Option α) : Prop :=
  (previous.stored? k = none ∧ v = current.stored? k) ∨
    (v = previous.stored? k ∧ (current.stored? k = none ∨ ∃ a ∈ listed, ObjectKey.of a = k))

/-- Answering for a listed object settles its key and leaves the others alone. -/
lemma Compared.answer {current previous : Store α} {a new : α} {rest : List α} {k : ObjectKey}
    {v : Option α} (h : Compared current previous (a :: rest) k v)
    (hnew : current.stored? (.of a) = some new) :
    Compared current (Table.erase previous (.of a)) rest k
      (if ObjectKey.of a = k then some new else v) := by
  have herase : Store.stored? (Table.erase previous (.of a)) k =
      if ObjectKey.of a = k then none else previous.stored? k := Table.get?_erase previous _ k
  by_cases ha : ObjectKey.of a = k
  · subst ha
    left
    rw [herase]
    simp [hnew]
  · rcases h with ⟨hp, hv⟩ | ⟨hv, hc⟩
    · left
      rw [herase]
      simp [ha, hp, hv]
    · right
      rw [herase]
      simpa [ha, hv] using hc

/-- A finished list: the changes are right about a key, and lead to what the new store has. -/
lemma relist_agrees {current previous : Store α} (hp : previous.Sound) (hc : current.Sound)
    {listed : List α} {k : ObjectKey} {v : Option α}
    (hl : ∀ a ∈ listed, (current.stored? (.of a)).isSome)
    (h : Compared current previous listed k v) :
    Change.AgreeAll k v (relistChanges current previous listed) ∧
      (relistChanges current previous listed).foldl (Change.versionAfter k) v =
        current.stored? k := by
  induction listed generalizing previous v with
  | nil =>
    have hgone : ∀ a ∈ previous.objects, ObjectKey.of a = k → previous.stored? k = some a :=
      fun a ha hk => hk ▸ hp.mem_objects_iff.mp ha
    refine ⟨Change.agreeAll_map_deleted fun a ha hk => ?_, ?_⟩
    · rcases h with ⟨hpk, _⟩ | ⟨hv, _⟩
      · rw [hgone a ha hk] at hpk
        cases hpk
      · exact Or.inr (hv.trans (hgone a ha hk))
    · rw [relistChanges, Change.foldl_versionAfter_map_deleted]
      rcases h with ⟨hpk, hv⟩ | ⟨hv, hck | ⟨_, hm, _⟩⟩
      · rw [if_neg, hv]
        rintro ⟨a, ha, hk⟩
        rw [hgone a ha hk] at hpk
        cases hpk
      · split
        · exact hck.symm
        · rename_i hnone
          rw [hck, hv, Option.eq_none_iff_forall_ne_some]
          intro a ha
          exact hnone ⟨a, hp.mem_of_stored ha, hp.of_eq ha⟩
      · cases hm
  | cons a rest ih =>
    obtain ⟨new, hnew⟩ := Option.isSome_iff_exists.mp (hl a List.mem_cons_self)
    have hkey : ObjectKey.of new = ObjectKey.of a := hc.of_eq hnew
    have hfound : (current.lookup? (.of a)).getD a = new := by
      simp [Store.lookup?, hnew]
    have hrest := ih (hp.erase (.of a)) (fun b hb => hl b (List.mem_cons_of_mem a hb))
      (h.answer hnew)
    cases hold : previous.stored? (.of a) with
    | some old =>
      have hokey : ObjectKey.of old = ObjectKey.of a := hp.of_eq hold
      simp only [relistChanges, hold, hfound, Change.AgreeAll, List.foldl_cons, Change.versionAfter,
        hkey]
      refine ⟨⟨⟨fun hk => (hkey.trans hokey.symm).trans hk, fun hk => Or.inl ?_⟩, hrest.1⟩, hrest.2⟩
      rw [hkey] at hk
      subst hk
      rcases h with ⟨hpk, _⟩ | ⟨hv, _⟩
      · rw [hold] at hpk
        cases hpk
      · exact hv.trans hold
    | none =>
      simp only [relistChanges, hold, hfound, Change.AgreeAll, List.foldl_cons, Change.versionAfter,
        hkey]
      refine ⟨⟨fun hk => ?_, hrest.1⟩, hrest.2⟩
      rw [hkey] at hk
      subst hk
      rcases h with ⟨_, hv⟩ | ⟨hv, _⟩
      · exact Or.inr (hv.trans hnew)
      · exact Or.inl (hv.trans hold)

/-- Every watch event is reported by changes that are right about a key and lead to what is stored
under it afterwards. -/
lemma observe_agrees {i : Informer α} (h : i.Sound) {e : WatchEvent α} {k : ObjectKey}
    (hd : i.Direct e k) :
    Change.AgreeAll k (i.store.stored? k) (i.observe e).2 ∧
      (i.observe e).2.foldl (Change.versionAfter k) (i.store.stored? k) =
        (i.observe e).1.store.stored? k := by
  cases e with
  | apply a =>
    have hnew : ((i.store.write a).lookup? (.of a)).getD a = a := by
      rw [Store.lookup?_write_self, Option.getD_some]
    rw [store_observe_apply, Store.stored?_write]
    cases hold : i.store.lookup? (.of a) with
    | some old =>
      simp only [observe, Writer.follow, hold, hnew, Change.AgreeAll, List.foldl_cons,
        List.foldl_nil, Change.versionAfter, and_true]
      refine ⟨hd a rfl old hold, fun hk => ?_⟩
      subst hk
      rcases Option.or_eq_some_iff.mp hold with hs | ⟨hs, _⟩
      · exact Or.inl hs
      · refine Or.inr ⟨hs, fun hk => ?_⟩
        rw [← hk, h.store.stored_of_lookup hold] at hs
        cases hs
    | none =>
      simp only [observe, Writer.follow, hold, hnew, Change.AgreeAll, List.foldl_cons,
        List.foldl_nil, Change.versionAfter, and_true]
      refine fun hk => Or.inl ?_
      subst hk
      exact (Option.or_eq_none_iff.mp hold).1
  | delete a =>
    rw [store_observe_delete, Store.stored?_remove]
    cases hold : i.store.lookup? (.of a) with
    | some old =>
      simp only [observe, hold, Option.getD_some, Change.AgreeAll, List.foldl_cons, List.foldl_nil,
        Change.versionAfter, and_true]
      refine ⟨fun hk => Or.inr (hk ▸ h.store.stored_of_lookup hold), ?_⟩
      by_cases ha : ObjectKey.of a = k
      · subst ha
        rw [if_pos rfl]
        split
        · rfl
        · rename_i hne
          rcases Option.or_eq_some_iff.mp hold with hs | ⟨hs, _⟩
          · exact absurd (h.store.of_eq hs) hne
          · exact hs
      · rw [if_neg ha, if_neg (fun hk => ha (hd a rfl old hold hk))]
    | none =>
      simp only [observe, hold, Option.getD_none, Change.AgreeAll, List.foldl_cons, List.foldl_nil,
        Change.versionAfter, and_true]
      exact fun hk => Or.inl (hk ▸ (Option.or_eq_none_iff.mp hold).1)
  | init => exact ⟨trivial, rfl⟩
  | initApply a => exact ⟨trivial, rfl⟩
  | initDone =>
    have hkeys : ∀ k, (i.buffer.stored? k).isSome ↔ ∃ a ∈ i.listed, ObjectKey.of a = k := by
      rw [h.coherent]
      exact Store.isSome_stored?_ofObjects i.listed
    refine relist_agrees h.store h.coherent.sound_buffer (fun a ha => ?_) (Or.inr ⟨rfl, ?_⟩)
    · exact (hkeys _).mpr ⟨a, ha, rfl⟩
    · cases hk : i.buffer.stored? k with
      | none => exact Or.inl rfl
      | some b => exact Or.inr ((hkeys k).mp (by rw [hk]; rfl))

/-! ## Which objects are named -/

/-- Everything an informer holds satisfies `Q`. -/
def Only (Q : α → Prop) (i : Informer α) : Prop :=
  (∀ a ∈ i.store.objects, Q a) ∧ ∀ a ∈ i.listed, Q a

/-- What is collected satisfies `Q` as well. -/
lemma Only.of_mem_buffer {Q : α → Prop} {i : Informer α} (hq : i.Only Q) (h : i.Coherent) :
    ∀ a ∈ i.buffer.objects, Q a := by
  intro a ha
  rw [h] at ha
  exact hq.2 a (Store.mem_of_mem_ofObjects ha)

lemma relistChanges_only {Q : α → Prop} {current previous : Store α} {listed : List α}
    (hc : current.Sound) (hp : previous.Sound) (hcq : ∀ a ∈ current.objects, Q a)
    (hpq : ∀ a ∈ previous.objects, Q a) (hl : ∀ a ∈ listed, Q a) :
    ∀ c ∈ relistChanges current previous listed, ∀ a ∈ c.objects, Q a := by
  induction listed generalizing previous with
  | nil =>
    intro c hcm a ha
    obtain ⟨b, hb, rfl⟩ := List.mem_map.mp hcm
    rw [Change.objects, List.mem_singleton] at ha
    exact ha ▸ hpq b hb
  | cons b rest ih =>
    have hnew : Q ((current.lookup? (.of b)).getD b) := by
      cases hf : current.lookup? (.of b) with
      | none => exact hl b List.mem_cons_self
      | some new => exact hcq new (hc.mem_of_stored (hc.stored_of_lookup hf))
    have hrest := ih (hp.erase (.of b))
      (fun a ha => hpq a (by
        obtain ⟨e, he, rfl⟩ := List.mem_map.mp ha
        exact List.mem_map.mpr ⟨e, (List.mem_filter.mp he).1, rfl⟩))
      (fun a ha => hl a (List.mem_cons_of_mem b ha))
    intro c hcm
    cases hold : previous.stored? (.of b) with
    | some old =>
      simp only [relistChanges, hold, List.mem_cons] at hcm
      rcases hcm with rfl | hcm
      · simpa [Change.objects] using ⟨hpq old (hp.mem_of_stored hold), hnew⟩
      · exact hrest c hcm
    | none =>
      simp only [relistChanges, hold, List.mem_cons] at hcm
      rcases hcm with rfl | hcm
      · simpa [Change.objects] using hnew
      · exact hrest c hcm

/-- Changes name only objects that the informer held or that the event is about. -/
lemma objects_of_observe {Q : α → Prop} {i : Informer α} (h : i.Sound) (hq : i.Only Q)
    {e : WatchEvent α} (he : ∀ a, e.object? = some a → Q a) :
    ∀ c ∈ (i.observe e).2, ∀ a ∈ c.objects, Q a := by
  have hfound : ∀ a b : α, i.store.lookup? (.of a) = some b → Q b := fun a b hb =>
    hq.1 b (h.store.mem_of_stored (h.store.stored_of_lookup hb))
  cases e with
  | apply a =>
    have hnew : ((i.store.write a).lookup? (.of a)).getD a = a := by
      rw [Store.lookup?_write_self, Option.getD_some]
    cases hold : i.store.lookup? (.of a) with
    | some old =>
      simpa [observe, Writer.follow, hold, hnew, Change.objects] using ⟨hfound a old hold, he a rfl⟩
    | none => simpa [observe, Writer.follow, hold, hnew, Change.objects] using he a rfl
  | delete a =>
    cases hold : i.store.lookup? (.of a) with
    | some old => simpa [observe, hold, Change.objects] using hfound a old hold
    | none => simpa [observe, hold, Change.objects] using he a rfl
  | init => simp
  | initApply a => simp
  | initDone =>
    exact relistChanges_only h.coherent.sound_buffer h.store (hq.of_mem_buffer h.coherent) hq.1 hq.2

/-- Watch events about objects that satisfy `Q` keep it that way. -/
lemma only_observe {Q : α → Prop} {i : Informer α} (h : i.Coherent) (hq : i.Only Q)
    {e : WatchEvent α} (he : ∀ a, e.object? = some a → Q a) : (i.observe e).1.Only Q := by
  cases e with
  | apply a =>
    refine ⟨fun b hb => ?_, hq.2⟩
    rcases Store.mem_of_mem_write hb with rfl | hb
    · exact he b rfl
    · exact hq.1 b hb
  | delete a => exact ⟨fun b hb => hq.1 b (Store.mem_of_mem_remove hb), hq.2⟩
  | init => exact ⟨hq.1, fun b hb => absurd hb List.not_mem_nil⟩
  | initApply a =>
    refine ⟨hq.1, fun b hb => ?_⟩
    rcases List.mem_append.mp hb with hb | hb
    · exact hq.2 b hb
    · exact List.mem_singleton.mp hb ▸ he a rfl
  | initDone => exact ⟨hq.of_mem_buffer h, fun b hb => absurd hb List.not_mem_nil⟩

end Informer

end StorageHealth
