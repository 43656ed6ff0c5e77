import StorageHealth.Proofs.Cluster.Replay

/-!
# Copies of a store

Whoever takes over every change that an informer reports has a copy of its store, provided that the
objects are all namespaced or are all without a namespace (`copies_observeAll`).  The changes then
say correctly what the copy holds when they arrive: an update names the object that it replaces, and
a deletion the object that goes or a key that is absent.

For a single key this is known from `observe_agrees`.  In objects of one scope a look-up cannot fall
back to anything else, so it holds of all keys at once.  When a list is finished, the changes are
computed from what the informer remembers of it, and the store is what the writer has collected;
that the two are in step is part of the result, since a change names the new object correctly only
because of it.
-/

namespace StorageHealth

namespace Change

variable {α : Type} [Identified α]

/-- Takes a change over into a copy. -/
def replay (copy : Store α) : Change α → Store α
  | added a => copy.write a
  | updated _ new => copy.write new
  | deleted a => copy.remove a

/-- A change says correctly what a copy holds before it is taken over. -/
def Continues (copy : Store α) : Change α → Prop
  | added _ => True
  | updated old new => copy.stored? (.of new) = some old
  | deleted a => copy.stored? (.of a) = none ∨ copy.stored? (.of a) = some a

lemma stored?_replay (copy : Store α) (c : Change α) (k : ObjectKey) :
    (c.replay copy).stored? k = c.versionAfter k (copy.stored? k) := by
  cases c with
  | added a => exact Store.stored?_write copy a k
  | updated old new => exact Store.stored?_write copy new k
  | deleted a => exact Store.stored?_remove copy a k

/-- Under each of its keys, a copy follows the changes. -/
lemma stored?_foldl_replay (copy : Store α) (changes : List (Change α)) (k : ObjectKey) :
    (changes.foldl replay copy).stored? k =
      changes.foldl (versionAfter k) (copy.stored? k) := by
  induction changes generalizing copy with
  | nil => rfl
  | cons c rest ih => rw [List.foldl_cons, List.foldl_cons, ih, stored?_replay]

/-- A change that is right about all keys says correctly what a copy holds. -/
lemma continues_of_agrees {copy : Store α} {c : Change α}
    (h : ∀ k, c.Agrees k (copy.stored? k)) : c.Continues copy := by
  cases c with
  | added a => trivial
  | updated old new =>
    rcases (h (.of new)).2 rfl with hold | ⟨-, hne⟩
    · exact hold
    · exact absurd ((h (.of old)).1 rfl).symm hne
  | deleted a => exact h (.of a) rfl

lemma agreeAll_append_iff {k : ObjectKey} {v : Option α} {before after : List (Change α)} :
    AgreeAll k v (before ++ after) ↔
      AgreeAll k v before ∧ AgreeAll k (before.foldl (versionAfter k) v) after := by
  induction before generalizing v with
  | nil => exact (and_iff_right trivial).symm
  | cons c rest ih => rw [List.cons_append, AgreeAll, AgreeAll, ih, and_assoc, List.foldl_cons]

end Change

namespace Informer

variable {α : Type} [Identified α]

/-- Among objects that all have a namespace, or all have none, a look-up finds an object under the
key that it asks for only. -/
lemma direct_of_scope {namespaced : Bool} {i : Informer α} (h : i.store.Sound)
    (hscope : i.Only fun a => (namespaceOf a).isSome = namespaced) {e : WatchEvent α}
    (he : ∀ a, e.object? = some a → (namespaceOf a).isSome = namespaced) (k : ObjectKey) :
    i.Direct e k := by
  intro a ha b hb hbk
  rcases h.of_lookup hb with ho | ho
  · exact ho.symm.trans hbk
  · have hb' : namespaceOf b = none := congrArg ObjectKey.ns ho
    have ha' : namespaceOf a = none := by
      have hsame : (namespaceOf a).isSome = (namespaceOf b).isSome :=
        (he a ha).trans (hscope.1 b (h.mem_of_stored (h.stored_of_lookup hb))).symm
      rw [hb'] at hsame
      exact Option.isNone_iff_eq_none.mp (Option.isSome_eq_false_iff.mp hsame)
    have hkey : ObjectKey.of a = .unscoped (nameOf a) := congrArg (ObjectKey.mk (nameOf a)) ha'
    exact hkey.trans (ho.symm.trans hbk)

/-- Over any watch events, the changes are right about every key and lead to what is stored. -/
lemma observeAll_agrees {namespaced : Bool} {i : Informer α} (h : i.Sound)
    (hscope : i.Only fun a => (namespaceOf a).isSome = namespaced) {es : List (WatchEvent α)}
    (he : ∀ e ∈ es, ∀ a, e.object? = some a → (namespaceOf a).isSome = namespaced) (k : ObjectKey) :
    Change.AgreeAll k (i.store.stored? k) (i.observeAll es).2 ∧
      (i.observeAll es).2.foldl (Change.versionAfter k) (i.store.stored? k) =
        (i.observeAll es).1.store.stored? k := by
  induction es generalizing i with
  | nil => exact ⟨trivial, rfl⟩
  | cons e rest ih =>
    have hfirst := he e List.mem_cons_self
    obtain ⟨hagree, hafter⟩ := observe_agrees h (direct_of_scope h.store hscope hfirst k)
    obtain ⟨hagree', hafter'⟩ := ih (h.observe e) (only_observe h.coherent hscope hfirst)
      fun e' he' => he e' (List.mem_cons_of_mem e he')
    have hchanges : (i.observeAll (e :: rest)).2 =
        (i.observe e).2 ++ ((i.observe e).1.observeAll rest).2 := rfl
    have hlast : (i.observeAll (e :: rest)).1 = ((i.observe e).1.observeAll rest).1 := rfl
    rw [hchanges, hlast, Change.agreeAll_append_iff, List.foldl_append, hafter]
    exact ⟨⟨hagree, hagree'⟩, hafter'⟩

/-- Whoever takes over all changes from the beginning has a copy of the store after every watch
event, and every change says correctly what the copy holds when it arrives.  While objects are being
listed nothing is reported and the store stays as it is; what the informer remembers of the list is
then always what its writer has collected. -/
theorem copies_observeAll {namespaced : Bool} {es : List (WatchEvent α)}
    (he : ∀ e ∈ es, ∀ a, e.object? = some a → (namespaceOf a).isSome = namespaced) :
    (∀ k, ((fresh.observeAll es).2.foldl Change.replay Table.empty).stored? k =
      (fresh.observeAll es).1.store.stored? k) ∧
    (∀ before c after, (fresh.observeAll es).2 = before ++ c :: after →
      c.Continues (before.foldl Change.replay Table.empty)) ∧
    (∀ e, (e = .init ∨ ∃ a, e = .initApply a) →
      ((fresh.observeAll es).1.observe e).2 = [] ∧
        ((fresh.observeAll es).1.observe e).1.store = (fresh.observeAll es).1.store) ∧
    (fresh.observeAll es).1.buffer = Store.ofObjects (fresh.observeAll es).1.listed := by
  have hagrees := observeAll_agrees (sound_fresh : (fresh : Informer α).Sound)
    ⟨fun _ ha => absurd ha List.not_mem_nil, fun _ ha => absurd ha List.not_mem_nil⟩ he
  refine ⟨fun k => ?_, fun before c after hsplit => ?_, ?_, coherent_fresh.observeAll es⟩
  · rw [Change.stored?_foldl_replay]
    exact (hagrees k).2
  · refine Change.continues_of_agrees fun k => ?_
    have hall := (hagrees k).1
    rw [hsplit, Change.agreeAll_append_iff] at hall
    rw [Change.stored?_foldl_replay]
    exact hall.2.1
  · rintro e (rfl | ⟨a, rfl⟩)
    · exact ⟨rfl, rfl⟩
    · exact ⟨rfl, rfl⟩

end Informer

/-! ## A list that is begun again -/

namespace RestartedList

open Change Informer

/-- A claim in some version. -/
def claim (name version : String) : Claim :=
  ⟨⟨some name, none, some "default", none, some version, false⟩, none, none⟩

/-- A list ends that was never begun, the next one is given up for another, which names a claim
twice, and in between a claim is applied. -/
def events : List (WatchEvent Claim) :=
  [.initDone, .apply (claim "a" "1"), .apply (claim "b" "1"), .init, .initApply (claim "b" "2"),
    .apply (claim "c" "1"), .init, .initApply (claim "a" "2"), .initApply (claim "a" "3"),
    .initDone, .delete (claim "a" "4")]

/-- What an informer reports of this. -/
def changes : List (Change Claim) :=
  [.added (claim "a" "1"), .added (claim "b" "1"), .added (claim "c" "1"),
    .updated (claim "a" "1") (claim "a" "3"), .added (claim "a" "3"), .deleted (claim "b" "1"),
    .deleted (claim "c" "1"), .deleted (claim "a" "3")]

/-- The changes of this list can be replayed. -/
theorem copies_restarted :
    (∀ e ∈ events, ∀ a, e.object? = some a → (namespaceOf a).isSome = true) ∧
    (fresh.observeAll events).2 = changes ∧
    (∀ k, (changes.foldl replay Table.empty).stored? k =
      (fresh.observeAll events).1.store.stored? k) ∧
    (∀ before c after, changes = before ++ c :: after →
      c.Continues (before.foldl replay Table.empty)) := by
  have hnamespaced : ∀ e ∈ events, ∀ a, e.object? = some a → (namespaceOf a).isSome = true := by
    simp [events, WatchEvent.object?, claim, namespaceOf, identity]
  have hchanges : (fresh.observeAll events).2 = changes := by decide
  obtain ⟨hcopy, hcontinues, -⟩ := copies_observeAll hnamespaced
  rw [hchanges] at hcopy hcontinues
  exact ⟨hnamespaced, hchanges, hcopy, hcontinues⟩

end RestartedList

end StorageHealth
