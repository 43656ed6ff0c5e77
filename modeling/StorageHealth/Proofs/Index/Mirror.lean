import StorageHealth.Proofs.Cluster.Replay

/-!
# Mirrors of a store

An index that only hears the changes of an informer mirrors the store of that informer: it gives
every object some slots, fills them when the object is added and empties them when the object
is removed.  A `Mirror` is such an index together with what its two operations do to its slots.

`read_observe` is the one fact about mirrors: when a slot can belong to objects of a single key
only, then after every watch event the slot holds what the object now stored under that key puts
into it.
-/

namespace StorageHealth

/-- An index over objects `α` with slots `σ` for contents `β`: which slots an object fills, with
what, and what adding and removing an object does to each slot. -/
structure Mirror (α σ β ι : Type) [DecidableEq σ] where
  slots : α → List σ
  content : α → β
  read : ι → σ → Option β
  insert : ι → α → ι
  remove : ι → α → ι
  read_insert : ∀ x a s, read (insert x a) s = if s ∈ slots a then some (content a) else read x s
  read_remove : ∀ x a s, read (remove x a) s = if s ∈ slots a then none else read x s

namespace Mirror

variable {α σ β ι : Type} [DecidableEq σ] (M : Mirror α σ β ι)

/-- Follows a change; an update is a removal and an addition. -/
def follow (x : ι) : Change α → ι
  | .added a => M.insert x a
  | .updated old new => M.insert (M.remove x old) new
  | .deleted a => M.remove x a

/-- What a version of an object puts into a slot. -/
def image (s : σ) (v : Option α) : Option β :=
  v.bind fun a => if s ∈ M.slots a then some (M.content a) else none

@[simp] lemma image_none (s : σ) : M.image s none = none := rfl

@[simp] lemma image_some (s : σ) (a : α) :
    M.image s (some a) = if s ∈ M.slots a then some (M.content a) else none := rfl

variable [Identified α]

/-- A change that is right about the key behind a slot keeps the slot up to date. -/
lemma read_follow {k : ObjectKey} {v : Option α} {c : Change α} {x : ι} {s : σ}
    (hc : c.Agrees k v) (hs : ∀ a ∈ c.objects, s ∈ M.slots a → ObjectKey.of a = k)
    (hx : M.read x s = M.image s v) :
    M.read (M.follow x c) s = M.image s (c.versionAfter k v) := by
  cases c with
  | added a =>
    rw [follow, M.read_insert, Change.versionAfter]
    by_cases ha : s ∈ M.slots a
    · have hk : ObjectKey.of a = k := hs a (by simp [Change.objects]) ha
      simp [ha, hk]
    · by_cases hk : ObjectKey.of a = k
      · rcases hc hk with rfl | rfl <;> simp [ha, hk, hx]
      · simp [ha, hk, hx]
  | updated old new =>
    rw [follow, M.read_insert, M.read_remove, Change.versionAfter]
    have hold : s ∈ M.slots old → ObjectKey.of old = k := hs old (by simp [Change.objects])
    have hnew : s ∈ M.slots new → ObjectKey.of new = k := hs new (by simp [Change.objects])
    by_cases hk : ObjectKey.of new = k
    · rcases hc.2 hk with rfl | ⟨rfl, ho⟩
      · by_cases ha : s ∈ M.slots new <;> by_cases hb : s ∈ M.slots old <;>
          simp [ha, hb, hk, hx]
      · have hb : s ∉ M.slots old := fun hb => ho (hold hb)
        by_cases ha : s ∈ M.slots new <;> simp [ha, hb, hk, hx]
    · have ha : s ∉ M.slots new := fun ha => hk (hnew ha)
      have hb : s ∉ M.slots old := fun hb => hk (hc.1 (hold hb))
      simp [ha, hb, hk, hx]
  | deleted a =>
    rw [follow, M.read_remove, Change.versionAfter]
    by_cases ha : s ∈ M.slots a
    · have hk : ObjectKey.of a = k := hs a (by simp [Change.objects]) ha
      simp [ha, hk]
    · by_cases hk : ObjectKey.of a = k
      · rcases hc hk with rfl | rfl <;> simp [ha, hk, hx]
      · simp [ha, hk, hx]

lemma read_foldl_follow {k : ObjectKey} {v : Option α} {changes : List (Change α)} {x : ι} {s : σ}
    (hc : Change.AgreeAll k v changes)
    (hs : ∀ c ∈ changes, ∀ a ∈ c.objects, s ∈ M.slots a → ObjectKey.of a = k)
    (hx : M.read x s = M.image s v) :
    M.read (changes.foldl M.follow x) s =
      M.image s (changes.foldl (Change.versionAfter k) v) := by
  induction changes generalizing x v with
  | nil => exact hx
  | cons c rest ih =>
    exact ih hc.2 (fun d hd => hs d (List.mem_cons_of_mem c hd))
      (M.read_follow hc.1 (hs c List.mem_cons_self) hx)

/-- After a watch event a slot holds what the object stored under its key puts into it. -/
lemma read_observe {i : Informer α} (h : i.Sound) {e : WatchEvent α} {k : ObjectKey} {x : ι}
    {s : σ} (hd : i.Direct e k)
    (hs : ∀ c ∈ (i.observe e).2, ∀ a ∈ c.objects, s ∈ M.slots a → ObjectKey.of a = k)
    (hx : M.read x s = M.image s (i.store.stored? k)) :
    M.read ((i.observe e).2.foldl M.follow x) s =
      M.image s ((i.observe e).1.store.stored? k) := by
  obtain ⟨hagree, hafter⟩ := Informer.observe_agrees h hd
  rw [M.read_foldl_follow hagree hs hx, hafter]

/-! ### Indices in step with an informer -/

/-- An index is in step with an informer that holds objects satisfying `Q` only: a slot that can
belong to objects of a single key holds what is stored under that key. -/
structure InStep (Q : α → Prop) (i : Informer α) (x : ι) : Prop where
  sound : i.Sound
  only : i.Only Q
  read : ∀ s k, k.ns ≠ none → (∀ a, Q a → s ∈ M.slots a → ObjectKey.of a = k) →
    M.read x s = M.image s (i.store.stored? k)

/-- At the start nothing is cached, and nothing is in an empty index. -/
lemma inStep_fresh {Q : α → Prop} {x : ι} (hx : ∀ s, M.read x s = none) :
    M.InStep Q .fresh x where
  sound := Informer.sound_fresh
  only := ⟨fun _ ha => absurd ha List.not_mem_nil, fun _ ha => absurd ha List.not_mem_nil⟩
  read := fun s _ _ _ => hx s

/-- An index that follows the changes of a watch event stays in step. -/
lemma InStep.observe {Q : α → Prop} {i : Informer α} {x : ι} (h : M.InStep Q i x)
    {e : WatchEvent α} (he : ∀ a, e.object? = some a → Q a) :
    M.InStep Q (i.observe e).1 ((i.observe e).2.foldl M.follow x) where
  sound := h.sound.observe e
  only := Informer.only_observe h.sound.coherent h.only he
  read := fun s k hk hs => by
    refine M.read_observe h.sound (Informer.direct_of_scoped h.sound.store e hk)
      (fun c hc a ha => ?_) (h.read s k hk hs)
    exact hs a (Informer.objects_of_observe h.sound h.only he c hc a ha)

/-- Slots tell the objects that satisfy `Q` apart by their keys, which all have a namespace. -/
structure Separates (Q : α → Prop) : Prop where
  hasNamespace : ∀ a s, Q a → s ∈ M.slots a → namespaceOf a ≠ none
  key_eq : ∀ a b s, Q a → Q b → s ∈ M.slots a → s ∈ M.slots b → ObjectKey.of a = ObjectKey.of b

/-- An index in step holds exactly what the stored objects put into its slots. -/
lemma InStep.read_eq_some_iff {Q : α → Prop} {i : Informer α} {x : ι} (h : M.InStep Q i x)
    (hsep : M.Separates Q) {s : σ} {b : β} :
    M.read x s = some b ↔ ∃ a ∈ i.store.objects, s ∈ M.slots a ∧ M.content a = b := by
  by_cases hs : ∃ a, Q a ∧ s ∈ M.slots a
  · obtain ⟨a₀, hq₀, hs₀⟩ := hs
    rw [h.read s (.of a₀) (hsep.hasNamespace a₀ s hq₀ hs₀)
      (fun a hq ha => hsep.key_eq a a₀ s hq hq₀ ha hs₀)]
    constructor
    · intro hb
      obtain ⟨a, ha, hab⟩ := Option.bind_eq_some_iff.mp hb
      split at hab
      · rename_i hsa
        exact ⟨a, h.sound.store.mem_of_stored ha, hsa, Option.some.inj hab⟩
      · cases hab
    · rintro ⟨a, ha, hsa, rfl⟩
      have hkey : ObjectKey.of a = .of a₀ := hsep.key_eq a a₀ s (h.only.1 a ha) hq₀ hsa hs₀
      rw [← hkey, h.sound.store.mem_objects_iff.mp ha, image_some, if_pos hsa]
  · -- nobody can fill the slot, so any key will do for it
    rw [h.read s ⟨"", some ""⟩ (by simp) (fun a hq ha => absurd ⟨a, hq, ha⟩ hs)]
    constructor
    · intro hb
      obtain ⟨a, ha, hab⟩ := Option.bind_eq_some_iff.mp hb
      rw [if_neg (fun hsa => hs ⟨a, h.only.1 a (h.sound.store.mem_of_stored ha), hsa⟩)] at hab
      cases hab
    · rintro ⟨a, ha, hsa, -⟩
      exact absurd ⟨a, h.only.1 a ha, hsa⟩ hs

end Mirror

end StorageHealth
