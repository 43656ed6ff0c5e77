import StorageHealth.Proofs.Index.Warnings

/-!
# Marks of answered warnings

The mark that a warning was answered hangs on its group, and watch events take it away only with the
group.  But an index follows an update by a removal and an addition, so a group can be gone for a
moment that no cache ever shows.  `WarningIndex.passed` lists all indices that changes lead through,
and `Tied.mem_answered_foldl_follow` says that a mark survives the changes exactly when its group is
in every one of them.
-/

namespace StorageHealth

/-- Subjects have groups of their own. -/
lemma WarningIndex.warningGroup_inj {uid uid' : String} {reason : Reason}
    (h : warningGroup uid reason = warningGroup uid' reason) : uid = uid' := by
  have hlist := congrArg String.toList h
  simp only [warningGroup, eventGroup, String.append_assoc, String.toList_append] at hlist
  exact String.toList_injective (List.append_cancel_right hlist)

namespace WarningIndex

lemma warningGroup_inj_iff {uid uid' : String} {reason : Reason} :
    warningGroup uid reason = warningGroup uid' reason ↔ uid = uid' :=
  ⟨warningGroup_inj, congrArg fun u => warningGroup u reason⟩

/-! ## Groups and marks -/

@[simp] lemma hasGroup_clearRecovered (x : WarningIndex) (uid : String) (reason : Reason)
    (g : String) : (x.clearRecovered uid reason).hasGroup g = x.hasGroup g := rfl

@[simp] lemma hasGroup_markRecovered (x : WarningIndex) (uid : String) (reason : Reason)
    (g : String) : (x.markRecovered uid reason).hasGroup g = x.hasGroup g := by
  unfold markRecovered
  split <;> rfl

/-- A mark is taken away when its own group is cleared, and only then. -/
lemma mem_answered_clear_iff {x : WarningIndex} {uid : String} {reason : Reason} {g : String} :
    g ∈ (x.clearRecovered uid reason).answered ↔
      warningGroup uid reason ≠ g ∧ g ∈ x.answered := by
  simp [clearRecovered, and_comm, eq_comm (a := g)]

/-- A mark is left when its own group is marked while it is there. -/
lemma mem_answered_mark_iff {x : WarningIndex} {uid : String} {reason : Reason} {g : String} :
    g ∈ (x.markRecovered uid reason).answered ↔
      (warningGroup uid reason = g ∧ x.hasGroup g = true) ∨ g ∈ x.answered := by
  by_cases hg : warningGroup uid reason = g
  · subst hg
    by_cases hgroup : x.hasGroup (warningGroup uid reason) = true <;>
      simp [markRecovered, hgroup]
  · by_cases hgroup : x.hasGroup (warningGroup uid reason) = true <;>
      simp [markRecovered, hgroup, hg, Ne.symm hg]

/-- A mark is taken away when its own subject is cleared, and only then. -/
lemma mem_answered_clearRecovered {x : WarningIndex} {uid uid' : String} {reason : Reason} :
    warningGroup uid reason ∈ (x.clearRecovered uid' reason).answered ↔
      uid' ≠ uid ∧ warningGroup uid reason ∈ x.answered := by
  rw [mem_answered_clear_iff, Ne, warningGroup_inj_iff]

/-- A mark is left when its own subject is marked while its group is there. -/
lemma mem_answered_markRecovered {x : WarningIndex} {uid uid' : String} {reason : Reason} :
    warningGroup uid reason ∈ (x.markRecovered uid' reason).answered ↔
      (uid' = uid ∧ x.hasGroup (warningGroup uid reason) = true) ∨
        warningGroup uid reason ∈ x.answered := by
  rw [mem_answered_mark_iff, warningGroup_inj_iff]

@[simp] lemma answered_insert (x : WarningIndex) (e : Event) :
    (x.insert e).answered = x.answered := by
  unfold insert
  split <;> rfl

lemma hasGroup_insert_of_hasGroup {x : WarningIndex} {g : String} (h : x.hasGroup g = true)
    (e : Event) : (x.insert e).hasGroup g = true := by
  obtain ⟨member, hm⟩ := hasGroup_iff.mp h
  exact hasGroup_iff.mpr ⟨member, mem_entries_insert.mpr (Or.inr hm)⟩

/-- A mark that hangs on a group. -/
def Tied (x : WarningIndex) (g : String) : Prop := g ∈ x.answered → x.hasGroup g = true

/-- Removing an event of another group leaves a group and its mark alone. -/
lemma hasGroup_remove_of_ne {e : Event} {g : String} (hg : e.group? ≠ some g) (x : WarningIndex) :
    (x.remove e).hasGroup g = x.hasGroup g := by
  have hslots : ∀ member, (g, member) ∉ slots e := fun member hm => hg (mem_slots_iff.mp hm).1
  rw [Bool.eq_iff_iff, hasGroup_iff, hasGroup_iff]
  simp only [mem_entries_remove, hslots, not_false_eq_true, true_and]

lemma mem_answered_remove_of_ne {e : Event} {g : String} (hg : e.group? ≠ some g)
    (x : WarningIndex) : g ∈ (x.remove e).answered ↔ g ∈ x.answered := by
  unfold remove
  cases he : e.group? with
  | none => exact Iff.rfl
  | some g' =>
    have hne : g ≠ g' := fun h => hg (h ▸ he)
    by_cases hg' : x.hasGroup g' = true
    · simp only [hg', if_true]
      split
      · exact Iff.rfl
      · simp [hne]
    · simp only [hg']
      exact Iff.rfl

/-- Removing an event takes a mark away exactly when its group is gone then. -/
lemma Tied.mem_answered_remove {x : WarningIndex} {g : String} (h : x.Tied g) (e : Event) :
    g ∈ (x.remove e).answered ↔ g ∈ x.answered ∧ (x.remove e).hasGroup g = true := by
  by_cases hg : e.group? = some g
  · unfold remove
    simp only [hg]
    split
    · split
      · rename_i hleft
        exact ⟨fun hm => ⟨hm, hleft⟩, And.left⟩
      · rename_i hgone
        constructor
        · intro hm
          simp at hm
        · exact fun hm => absurd hm.2 hgone
    · exact ⟨fun hm => ⟨hm, h hm⟩, And.left⟩
  · rw [mem_answered_remove_of_ne hg, hasGroup_remove_of_ne hg]
    exact ⟨fun hm => ⟨hm, h hm⟩, And.left⟩

/-! ## The indices that changes lead through -/

/-- The indices that a change leads through: an update is a removal and an addition. -/
def stages (x : WarningIndex) : Change Event → List WarningIndex
  | .added e => [x.insert e]
  | .updated old new => [x.remove old, (x.remove old).insert new]
  | .deleted e => [x.remove e]

/-- The indices that several changes lead through. -/
def passed (x : WarningIndex) : List (Change Event) → List WarningIndex
  | [] => []
  | c :: rest => x.stages c ++ (x.follow c).passed rest

/-- A mark survives a change exactly when its group does, all the time. -/
lemma Tied.mem_answered_follow {x : WarningIndex} {g : String} (h : x.Tied g) (c : Change Event) :
    g ∈ (x.follow c).answered ↔ g ∈ x.answered ∧ ∀ y ∈ x.stages c, y.hasGroup g = true := by
  cases c with
  | added e =>
    simp only [follow, stages, answered_insert, List.mem_singleton, forall_eq]
    exact ⟨fun hg => ⟨hg, hasGroup_insert_of_hasGroup (h hg) e⟩, And.left⟩
  | updated old new =>
    simp only [follow, stages, answered_insert, h.mem_answered_remove, List.mem_cons,
      List.not_mem_nil, or_false, forall_eq_or_imp, forall_eq]
    exact ⟨fun hg => ⟨hg.1, hg.2, hasGroup_insert_of_hasGroup hg.2 new⟩,
      fun hg => ⟨hg.1, hg.2.1⟩⟩
  | deleted e => simp only [follow, stages, h.mem_answered_remove, List.mem_singleton, forall_eq]

lemma Tied.follow {x : WarningIndex} {g : String} (h : x.Tied g) (c : Change Event) :
    (x.follow c).Tied g := by
  intro hg
  have hstages := ((h.mem_answered_follow c).mp hg).2
  cases c with
  | added e => exact hstages _ (by simp [stages, WarningIndex.follow])
  | updated old new => exact hstages _ (by simp [stages, WarningIndex.follow])
  | deleted e => exact hstages _ (by simp [stages, WarningIndex.follow])

/-- A mark survives changes exactly when its group does, all the time. -/
lemma Tied.mem_answered_foldl_follow {x : WarningIndex} {g : String} (h : x.Tied g)
    (changes : List (Change Event)) :
    g ∈ (changes.foldl WarningIndex.follow x).answered ↔
      g ∈ x.answered ∧ ∀ y ∈ x.passed changes, y.hasGroup g = true := by
  induction changes generalizing x with
  | nil => simp [passed]
  | cons c rest ih =>
    rw [List.foldl_cons, ih (h.follow c), h.mem_answered_follow, and_assoc, passed,
      List.forall_mem_append]

lemma Tied.foldl_follow {x : WarningIndex} {g : String} (h : x.Tied g)
    (changes : List (Change Event)) : (changes.foldl WarningIndex.follow x).Tied g := by
  induction changes generalizing x with
  | nil => exact h
  | cons c rest ih => exact ih (h.follow c)

/-- A change leads to the index after it. -/
lemma follow_mem_stages (x : WarningIndex) (c : Change Event) : x.follow c ∈ x.stages c := by
  cases c <;> simp [stages, WarningIndex.follow]

/-- Changes lead to the index after them. -/
lemma foldl_follow_mem_passed (x : WarningIndex) (changes : List (Change Event)) :
    changes.foldl WarningIndex.follow x ∈ x :: x.passed changes := by
  induction changes generalizing x with
  | nil => exact List.mem_singleton_self x
  | cons c rest ih =>
    rw [List.foldl_cons, passed]
    rcases List.mem_cons.mp (ih (x.follow c)) with h | h
    · rw [h]
      exact List.mem_cons_of_mem x (List.mem_append_left _ (x.follow_mem_stages c))
    · exact List.mem_cons_of_mem x (List.mem_append_right _ h)

/-! ## An event that is delivered again -/

/-- What a look-up for a plain event finds among plain events has its key. -/
lemma of_lookup_eq {i : Informer Event} {x : WarningIndex} (h : mirror.InStep Event.Plain i x)
    {e old : Event} (hold : i.store.lookup? (.of e) = some old) :
    ObjectKey.of old = ObjectKey.of e := by
  rcases h.sound.store.of_lookup hold with hkey | hkey
  · exact hkey
  · have hcached : old ∈ i.store.objects :=
      h.sound.store.mem_of_stored (h.sound.store.stored_of_lookup hold)
    obtain ⟨ns, hns, -⟩ := (h.only.1 old hcached).ns
    have hnone : namespaceOf old = none := congrArg ObjectKey.ns hkey
    rw [hns] at hnone
    cases hnone

/-- Delivering an event again leads through an index without a group exactly when no event under
another key is cached in the group. -/
theorem exists_passed_apply_iff {i : Informer Event} {x : WarningIndex}
    (h : mirror.InStep Event.Plain i x) (e : Event) {g : String} :
    (∃ y ∈ x :: x.passed (i.observe (.apply e)).2, y.hasGroup g = false) ↔
      ∀ e' ∈ i.store.objects, e'.group? = some g → ObjectKey.of e' = ObjectKey.of e := by
  have hnew : ((i.store.write e).lookup? (.of e)).getD e = e := by
    rw [Store.lookup?_write_self, Option.getD_some]
  constructor
  · rintro ⟨y, hy, hgone⟩ e' he' hg'
    by_contra hkey
    -- The other event stays in its group all the time.
    have hslot : (g, e'.member) ∈ x.entries :=
      (mem_entries_iff_of_inStep h).mpr ⟨e', he', mem_slots_iff.mpr ⟨hg', rfl⟩⟩
    have hgroup : x.hasGroup g = true := hasGroup_iff.mpr ⟨_, hslot⟩
    have hpassed : ∀ y ∈ x :: x.passed (i.observe (.apply e)).2, y.hasGroup g = true := by
      cases hold : i.store.lookup? (.of e) with
      | none =>
        simp only [Informer.observe, Writer.follow, hold, hnew, passed, stages, List.append_nil,
          List.mem_cons, List.not_mem_nil, or_false, forall_eq_or_imp, forall_eq]
        exact ⟨hgroup, hasGroup_insert_of_hasGroup hgroup e⟩
      | some old =>
        have hne : (g, e'.member) ∉ slots old := by
          intro hs
          have hcached : old ∈ i.store.objects :=
            h.sound.store.mem_of_stored (h.sound.store.stored_of_lookup hold)
          have hsame := (h.only.1 e' he').key_eq (h.only.1 old hcached) (mem_slots_iff.mp hs).2
          exact hkey (hsame.trans (of_lookup_eq h hold))
        have hremove : (x.remove old).hasGroup g = true :=
          hasGroup_iff.mpr ⟨_, mem_entries_remove.mpr ⟨hne, hslot⟩⟩
        simp only [Informer.observe, Writer.follow, hold, hnew, passed, stages, List.append_nil,
          List.mem_cons, List.not_mem_nil, or_false, forall_eq_or_imp, forall_eq]
        exact ⟨hgroup, hremove, hasGroup_insert_of_hasGroup hremove e⟩
    exact Bool.eq_false_iff.mp hgone (hpassed y hy)
  · intro halone
    by_cases hgroup : x.hasGroup g = true
    · obtain ⟨member, hmember⟩ := hasGroup_iff.mp hgroup
      obtain ⟨old, hcached, hslot⟩ := (mem_entries_iff_of_inStep h).mp hmember
      have hstored := h.sound.store.mem_objects_iff.mp hcached
      have hkey := halone old hcached (mem_slots_iff.mp hslot).1
      have hold : i.store.lookup? (.of e) = some old := by
        rw [← hkey, Store.lookup?, hstored]
        rfl
      refine ⟨x.remove old, ?_, ?_⟩
      · simp [Informer.observe, hold, passed, stages]
      · rw [Bool.eq_false_iff, ne_eq, hasGroup_iff]
        rintro ⟨member', hleft⟩
        obtain ⟨hne, hin⟩ := mem_entries_remove.mp hleft
        obtain ⟨e', he', hs'⟩ := (mem_entries_iff_of_inStep h).mp hin
        have hkey' := halone e' he' (mem_slots_iff.mp hs').1
        have hsame : some e' = some old := by
          rw [← h.sound.store.mem_objects_iff.mp he', ← hstored, hkey, hkey']
        exact hne (Option.some.inj hsame ▸ hs')
    · exact ⟨x, List.mem_cons_self, Bool.eq_false_iff.mpr hgroup⟩

end WarningIndex

end StorageHealth
