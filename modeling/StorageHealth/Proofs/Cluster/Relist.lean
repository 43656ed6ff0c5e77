import Mathlib.Data.List.Nodup
import StorageHealth.Proofs.Cluster.Replay

/-!
# What a finished list reports

When a list is finished, the store it makes is compared with the store it replaces.
`Change.between` says what an exact comparison reports about a key, and `IsDiff` that changes are
such a comparison.

The comparison goes through the list and not through the new store, and an earlier object answers
for one listing only.  So a key that is listed several times is reported once as it should be, and
once more as an addition for every further time (`filter_mentions_relistChanges`).  The report is
exact if and only if no key is listed twice (`relist_isDiff_iff`).
-/

namespace StorageHealth

namespace Store

variable {α : Type} [Identified α]

/-- A sound store has at most one object with a key. -/
lemma Sound.filter_objects {s : Store α} (h : s.Sound) (k : ObjectKey) :
    (s.objects.filter fun a => ObjectKey.of a = k) = (s.stored? k).toList := by
  have hnodup : (s.objects.filter fun a => ObjectKey.of a = k).Nodup := by
    refine List.Nodup.filter _ (List.Nodup.of_map ObjectKey.of ?_)
    rw [h.map_of_objects]
    exact h.distinct
  have hmem : ∀ a, a ∈ (s.objects.filter fun a => ObjectKey.of a = k) ↔ s.stored? k = some a := by
    intro a
    rw [List.mem_filter, decide_eq_true_eq]
    constructor
    · rintro ⟨ha, rfl⟩
      exact h.mem_objects_iff.mp ha
    · intro ha
      exact ⟨h.mem_of_stored ha, h.of_eq ha⟩
  cases hk : s.stored? k with
  | none =>
    refine List.eq_nil_iff_forall_not_mem.mpr fun a ha => ?_
    rw [hmem, hk] at ha
    cases ha
  | some b =>
    refine List.perm_singleton.mp ((List.perm_ext_iff_of_nodup hnodup
      (List.nodup_singleton b)).mpr fun a => ?_)
    rw [hmem, hk, Option.some_inj, List.mem_singleton]
    exact eq_comm

lemma stored?_foldl_write (s : Store α) (objects : List α) (k : ObjectKey) :
    Store.stored? (objects.foldl write s) k =
      (objects.filter fun a => ObjectKey.of a = k).getLast?.or (s.stored? k) := by
  induction objects generalizing s with
  | nil => simp
  | cons a rest ih =>
    rw [List.foldl_cons, ih, stored?_write]
    by_cases ha : ObjectKey.of a = k
    · rw [if_pos ha, List.filter_cons_of_pos (by simpa using ha), List.getLast?_cons]
      cases (rest.filter fun a => ObjectKey.of a = k).getLast? <;> rfl
    · rw [if_neg ha, List.filter_cons_of_neg (by simpa using ha)]

/-- A store made from a list has no object under a key that is not listed. -/
lemma stored?_ofObjects_eq_none_iff {objects : List α} {k : ObjectKey} :
    (ofObjects objects).stored? k = none ↔ k ∉ objects.map ObjectKey.of := by
  rw [← Option.not_isSome_iff_eq_none, isSome_stored?_ofObjects, List.mem_map]

/-- Of the versions in which a list names an object, the last one is stored. -/
lemma stored?_ofObjects (objects : List α) (k : ObjectKey) :
    (ofObjects objects).stored? k =
      (objects.filter fun a => ObjectKey.of a = k).getLast? := by
  rw [ofObjects, stored?_foldl_write]
  exact Option.or_none

end Store

namespace Change

variable {α : Type} [Identified α]

/-- A change names an object with this key. -/
def mentions (k : ObjectKey) (c : Change α) : Bool := c.objects.any fun a => ObjectKey.of a = k

/-- What an exact comparison reports about a key, from what was stored there to what is. -/
def between : Option α → Option α → List (Change α)
  | none, none => []
  | none, some new => [added new]
  | some old, none => [deleted old]
  | some old, some new => [updated old new]

/-- Changes are an exact comparison of two stores: whatever they report about a key is one update,
one addition or one deletion, or nothing at all when neither store has the key. -/
def IsDiff (old new : Store α) (changes : List (Change α)) : Prop :=
  ∀ k, changes.filter (mentions k) = between (old.stored? k) (new.stored? k)

lemma filter_mentions_map_deleted (k : ObjectKey) (gone : List α) :
    (gone.map deleted).filter (mentions k) =
      (gone.filter fun a => ObjectKey.of a = k).map deleted := by
  rw [List.filter_map]
  congr 1
  refine List.filter_congr fun a _ => ?_
  simp [mentions, objects]

/-- A comparison is about the key of its objects. -/
lemma filter_mentions_between {k : ObjectKey} {old : Option α} {new : α}
    (hold : ∀ a, old = some a → ObjectKey.of a = ObjectKey.of new) :
    (between old (some new)).filter (mentions k) =
      if ObjectKey.of new = k then between old (some new) else [] := by
  cases old with
  | none => by_cases hk : ObjectKey.of new = k <;> simp [between, mentions, objects, hk]
  | some a => by_cases hk : ObjectKey.of new = k <;> simp [between, mentions, objects, hold, hk]

end Change

namespace Informer

open Change

variable {α : Type} [Identified α]

/-- Each listed object is compared with what there still is under its key. -/
lemma relistChanges_cons {current : Store α} {a new : α} (hnew : current.stored? (.of a) = some new)
    (previous : Store α) (rest : List α) :
    relistChanges current previous (a :: rest) =
      between (previous.stored? (.of a)) (some new) ++
        relistChanges current (Table.erase previous (.of a)) rest := by
  have hfound : (current.lookup? (.of a)).getD a = new := by
    simp [Store.lookup?, hnew]
  cases hold : previous.stored? (.of a) <;> simp [relistChanges, hold, hfound, between]

/-- What a finished list reports about a key: the exact comparison if the key is listed, with an
addition for each further time, and otherwise the deletion of what was there. -/
lemma filter_mentions_relistChanges {current previous : Store α} (hp : previous.Sound)
    (hc : current.Sound) {listed : List α}
    (hl : ∀ a ∈ listed, (current.stored? (.of a)).isSome) (k : ObjectKey) :
    (relistChanges current previous listed).filter (mentions k) =
      if k ∈ listed.map ObjectKey.of then
        between (previous.stored? k) (current.stored? k) ++ (current.stored? k).toList.flatMap
          fun new => List.replicate ((listed.map ObjectKey.of).count k - 1) (added new)
      else (previous.stored? k).toList.map deleted := by
  induction listed generalizing previous with
  | nil => rw [relistChanges, filter_mentions_map_deleted, hp.filter_objects]; rfl
  | cons a rest ih =>
    obtain ⟨new, hnew⟩ := Option.isSome_iff_exists.mp (hl a List.mem_cons_self)
    have hkey : ObjectKey.of new = ObjectKey.of a := hc.of_eq hnew
    have hrest := ih (hp.erase (.of a)) fun b hb => hl b (List.mem_cons_of_mem a hb)
    have herase : Store.stored? (Table.erase previous (.of a)) k =
        if ObjectKey.of a = k then none else previous.stored? k := Table.get?_erase previous _ k
    have hfirst : (between (previous.stored? (.of a)) (some new)).filter (mentions k) =
        if ObjectKey.of new = k then between (previous.stored? (.of a)) (some new) else [] :=
      filter_mentions_between fun b hb => (hp.of_eq hb).trans hkey.symm
    rw [relistChanges_cons hnew, List.filter_append, hfirst, hkey, hrest, herase, List.map_cons]
    by_cases ha : ObjectKey.of a = k
    · -- the earlier object is used up now, so whatever the rest reports is an addition
      subst ha
      rw [if_pos rfl, if_pos rfl, if_pos List.mem_cons_self, List.count_cons_self, hnew]
      congr 1
      split
      · rename_i hk
        have hpos := List.count_pos_iff.mpr hk
        simp only [between, Option.toList_some, List.flatMap_singleton]
        rw [List.singleton_append, ← List.replicate_succ, Nat.sub_add_cancel hpos,
          Nat.add_sub_cancel]
      · rename_i hk
        rw [List.count_eq_zero_of_not_mem hk]
        rfl
    · have hlisted : k ∈ ObjectKey.of a :: rest.map ObjectKey.of ↔ k ∈ rest.map ObjectKey.of := by
        rw [List.mem_cons, or_iff_right (Ne.symm ha)]
      rw [if_neg ha, if_neg ha, List.nil_append, List.count_cons_of_ne ha]
      simp only [hlisted]

/-- Listed objects are remembered by the informer and collected by its writer. -/
lemma observeAll_map_initApply (w : Writer α) (before objects : List α)
    (rest : List (WatchEvent α)) :
    observeAll ⟨w, some before⟩ (objects.map .initApply ++ rest) =
      observeAll ⟨{ w with buffer := objects.foldl Store.write w.buffer }, some (before ++ objects)⟩
        rest := by
  induction objects generalizing w before with
  | nil => rw [List.map_nil, List.nil_append, List.foldl_nil, List.append_nil]
  | cons a more ih =>
    rw [List.map_cons, List.cons_append, observeAll, observe_initApply]
    simp [ih, Writer.follow, listed]

/-- A list takes effect as a whole: the store is the one of the listed objects, and the changes are
the comparison with the store before. -/
lemma observeAll_listing (i : Informer α) (objects : List α) :
    i.observeAll (listing objects) =
      (⟨⟨.ofObjects objects, Table.empty, true⟩, none⟩,
        relistChanges (.ofObjects objects) i.store objects) := by
  rw [listing, List.cons_append, observeAll, observe_init]
  simp [observeAll_map_initApply, observeAll, observe, Writer.follow, listed, Store.ofObjects]

/-- Whatever an informer has seen, a list is reported key by key as it should be, with an addition
of the stored object for each further time that the key is listed.  So the report is an exact
comparison if and only if no key is listed twice. -/
theorem relist_isDiff_iff (es : List (WatchEvent α)) (objects : List α) :
    let before := (fresh.observeAll es).1
    let (after, changes) := before.observeAll (listing objects)
    (∀ k, after.store.stored? k = (objects.filter fun a => ObjectKey.of a = k).getLast?) ∧
    (∀ k, changes.filter (mentions k) =
      between (before.store.stored? k) (after.store.stored? k) ++
        (after.store.stored? k).toList.flatMap fun new =>
          List.replicate ((objects.map ObjectKey.of).count k - 1) (added new)) ∧
    (IsDiff before.store after.store changes ↔ (objects.map ObjectKey.of).Nodup) := by
  intro before
  have hbefore : before.store.Sound := (sound_fresh.observeAll es).store
  have hreport : ∀ k,
      (relistChanges (.ofObjects objects) before.store objects).filter (mentions k) =
      between (before.store.stored? k) ((Store.ofObjects objects).stored? k) ++
        ((Store.ofObjects objects).stored? k).toList.flatMap fun new =>
          List.replicate ((objects.map ObjectKey.of).count k - 1) (added new) := by
    intro k
    rw [filter_mentions_relistChanges hbefore (Store.sound_ofObjects objects) fun a ha =>
      (Store.isSome_stored?_ofObjects objects _).mpr ⟨a, ha, rfl⟩]
    split
    · rfl
    · rename_i hk
      rw [Store.stored?_ofObjects_eq_none_iff.mpr hk]
      cases before.store.stored? k <;> rfl
  rw [observeAll_listing]
  refine ⟨Store.stored?_ofObjects objects, hreport, ?_⟩
  rw [List.nodup_iff_count_le_one]
  refine forall_congr' fun k => ?_
  rw [hreport, List.append_right_eq_self]
  cases hk : (Store.ofObjects objects).stored? k with
  | none =>
    have hzero : (objects.map ObjectKey.of).count k = 0 :=
      List.count_eq_zero.mpr (Store.stored?_ofObjects_eq_none_iff.mp hk)
    simp [hzero]
  | some new => simp [Nat.sub_eq_zero_iff_le]

end Informer

namespace ListedTwice

open Change Informer

/-- A claim in some version. -/
def claim (version : String) : Claim :=
  ⟨⟨some "data", none, some "default", none, some version, false⟩, none, none⟩

/-- A claim that is known and then listed in two versions is updated and, besides, added. -/
theorem reported_as_added : ¬ ∀ (es : List (WatchEvent Claim)) (objects : List Claim),
    IsDiff (fresh.observeAll es).1.store
      ((fresh.observeAll es).1.observeAll (listing objects)).1.store
      ((fresh.observeAll es).1.observeAll (listing objects)).2 := by
  intro hclaim
  have hdata := hclaim [.apply (claim "1")] [claim "2", claim "3"] (.within "default" "data")
  have hreport : (((fresh.observeAll [.apply (claim "1")]).1.observeAll
      (listing [claim "2", claim "3"])).2.filter (mentions (.within "default" "data"))) =
        [updated (claim "1") (claim "3"), added (claim "3")] := by decide
  rw [hreport] at hdata
  exact absurd hdata (by decide)

end ListedTwice

end StorageHealth
