import StorageHealth.Proofs.Check.Orderly
import StorageHealth.Proofs.Index.Marks
import StorageHealth.Proofs.Process.Workplace

/-!
# What is remembered of recoveries

That a subject's warning was answered is remembered by a mark in the index.  This file follows the
mark through histories of watch events and of the deeds of orderly activities.

`Happening.Rearmed` lists what takes a mark away: a report of an abnormal condition, or a moment
without any warning in the index.  `answered_leavesAll_iff` says that both do, and nothing else.
For a warning that is delivered again, `rearmed_apply_iff` says when that is such a moment.
-/

namespace StorageHealth

/-! ## Marks over a history -/

namespace Happening

variable {ι : Type}

/-- The indices that a watch event leads through.  Deeds lead to the next one directly. -/
def passed (m : Monitor) : Happening ι → List WarningIndex
  | .observed .event e => m.warnings.passed (m.caches.events.observe e).2
  | _ => []

/-- The indices of all moments of a history, from its beginning to its end. -/
def indices (m : Monitor) : List (Happening ι) → List WarningIndex
  | [] => [m.warnings]
  | h :: hs => m.warnings :: (h.passed m ++ indices (h.leaves m) hs)

/-- Something happened that makes a subject's next normal condition a recovery again: an abnormal
condition was reported, or there was a moment without a warning. -/
def Rearmed (uid : String) (m : Monitor) (hs : List (Happening ι)) : Prop :=
  (∃ i x, .did i (Deed.rearmed uid x) ∈ hs) ∨
    ∃ x ∈ indices m hs, x.contains uid .warning .volumeAbnormal = false

/-- Everything in a history that an activity did is tame. -/
def AllTame (hs : List (Happening ι)) : Prop := ∀ i d, .did i d ∈ hs → d.Tame

/-- The mark of a subject's warnings. -/
abbrev mark (uid : String) : String := WarningIndex.warningGroup uid .volumeAbnormal

lemma foldl_follow_of_ne {k : Kind} (hk : k ≠ .event) (m : Monitor)
    (changes : List (Change k.Object)) :
    (changes.foldl (fun m change => m.follow k change) m).warnings = m.warnings := by
  induction changes generalizing m with
  | nil => rfl
  | cons c rest ih =>
    rw [List.foldl_cons, ih]
    cases k with
    | event => exact absurd rfl hk
    | volume => rfl
    | claim => rfl
    | pod => rfl
    | node => rfl

lemma warnings_observe_of_ne {k : Kind} (hk : k ≠ .event) (m : Monitor) (e : WatchEvent k.Object) :
    (m.observe k e).1.warnings = m.warnings :=
  foldl_follow_of_ne hk _ _

lemma rearmed_leaves (uid : String) (i : ι) (x m : Monitor) :
    (leaves m (.did i (Deed.rearmed uid x))).warnings =
      m.warnings.clearRecovered uid .volumeAbnormal := rfl

lemma settled_leaves (uid : String) (i : ι) (x m : Monitor) :
    (leaves m (.did i (Deed.settled uid x))).warnings =
      m.warnings.markRecovered uid .volumeAbnormal := rfl

/-- A deed that leaves a mark does not take it away. -/
lemma ne_rearmed_of_answered {m : Monitor} {uid : String} {i : ι} {d : Deed}
    (hm : mark uid ∈ (leaves m (.did i d)).warnings.answered) (x : Monitor) :
    d ≠ Deed.rearmed uid x := by
  rintro rfl
  rw [rearmed_leaves, WarningIndex.mem_answered_clearRecovered] at hm
  exact hm.1 rfl

/-- A deed does to the mark of a subject what it is said to do. -/
lemma mem_answered_did {m : Monitor} {uid : String} {i : ι} {d : Deed} (hd : d.Tame) :
    mark uid ∈ (leaves m (.did i d)).warnings.answered ↔
      ((∃ x, d = Deed.settled uid x) ∧ m.warnings.hasGroup (mark uid) = true) ∨
        (mark uid ∈ m.warnings.answered ∧ ∀ x, d ≠ Deed.rearmed uid x) := by
  constructor
  · intro hm
    have hnot := ne_rearmed_of_answered hm
    rcases hd with hd | ⟨uid', x, rfl⟩ | ⟨uid', x, rfl⟩
    · exact Or.inr ⟨by rwa [leaves, (hd m).2] at hm, hnot⟩
    · have hkept := hm
      rw [rearmed_leaves, WarningIndex.mem_answered_clearRecovered] at hkept
      exact Or.inr ⟨hkept.2, hnot⟩
    · have hleft := hm
      rw [settled_leaves, WarningIndex.mem_answered_markRecovered] at hleft
      rcases hleft with ⟨rfl, hgroup⟩ | hkept
      · exact Or.inl ⟨⟨x, rfl⟩, hgroup⟩
      · exact Or.inr ⟨hkept, hnot⟩
  · rintro (⟨⟨x, rfl⟩, hgroup⟩ | ⟨hm, hne⟩)
    · rw [settled_leaves, WarningIndex.mem_answered_markRecovered]
      exact Or.inl ⟨rfl, hgroup⟩
    · rcases hd with hd | ⟨uid', x, rfl⟩ | ⟨uid', x, rfl⟩
      · rwa [leaves, (hd m).2]
      · rw [rearmed_leaves, WarningIndex.mem_answered_clearRecovered]
        exact ⟨fun h => hne x (by rw [h]), hm⟩
      · rw [settled_leaves, WarningIndex.mem_answered_markRecovered]
        exact Or.inr hm

/-- What happens to the mark of a subject in one step. -/
lemma mem_answered_leaves {m : Monitor} {uid : String} (hg : m.warnings.Tied (mark uid))
    {h : Happening ι} (ht : AllTame [h]) :
    mark uid ∈ (h.leaves m).warnings.answered ↔
      ((∃ i x, h = .did i (Deed.settled uid x)) ∧ m.warnings.hasGroup (mark uid) = true) ∨
        (mark uid ∈ m.warnings.answered ∧ (∀ i x, h ≠ .did i (Deed.rearmed uid x)) ∧
          ∀ x ∈ h.passed m, x.hasGroup (mark uid) = true) := by
  cases h with
  | observed k e =>
    by_cases hk : k = .event
    · subst hk
      rw [leaves, Monitor.observe_event, hg.mem_answered_foldl_follow]
      simp [passed]
    · rw [leaves, warnings_observe_of_ne hk]
      cases k with
      | event => exact absurd rfl hk
      | volume => simp [passed]
      | claim => simp [passed]
      | pod => simp [passed]
      | node => simp [passed]
  | did i d =>
    have hsettled : (∃ j x, Happening.did i d = .did j (Deed.settled uid x)) ↔
        ∃ x, d = Deed.settled uid x :=
      ⟨fun ⟨_, x, h⟩ => ⟨x, (Happening.did.inj h).2⟩, fun ⟨x, h⟩ => ⟨i, x, by rw [h]⟩⟩
    have hrearmed : (∀ j x, Happening.did i d ≠ .did j (Deed.rearmed uid x)) ↔
        ∀ x, d ≠ Deed.rearmed uid x :=
      ⟨fun h x hd => h i x (by rw [hd]), fun h _ x hd => h x (Happening.did.inj hd).2⟩
    rw [mem_answered_did (ht i d List.mem_cons_self), hsettled, hrearmed]
    simp [passed]

/-- Deeds leave the groups alone. -/
lemma hasGroup_did {i : ι} {d : Deed} (hd : d.Tame) (m : Monitor) (g : String) :
    (leaves m (.did i d)).warnings.hasGroup g = m.warnings.hasGroup g := by
  rcases hd with hd | ⟨uid, x, rfl⟩ | ⟨uid, x, rfl⟩
  · rw [leaves, (hd m).2]
  · rw [rearmed_leaves, WarningIndex.hasGroup_clearRecovered]
  · rw [settled_leaves, WarningIndex.hasGroup_markRecovered]

lemma tied_leaves {m : Monitor} {uid : String} (hg : m.warnings.Tied (mark uid))
    {h : Happening ι} (ht : AllTame [h]) : (h.leaves m).warnings.Tied (mark uid) := by
  cases h with
  | observed k e =>
    by_cases hk : k = .event
    · subst hk
      rw [leaves, Monitor.observe_event]
      exact hg.foldl_follow _
    · rw [leaves, warnings_observe_of_ne hk]
      exact hg
  | did i d =>
    have hd : d.Tame := ht i d List.mem_cons_self
    intro hm
    rw [hasGroup_did hd]
    rcases (mem_answered_did hd).mp hm with ⟨-, hgroup⟩ | ⟨hkept, -⟩
    · exact hgroup
    · exact hg hkept

lemma AllTame.head {h : Happening ι} {hs : List (Happening ι)} (ht : AllTame (h :: hs)) :
    AllTame [h] := by
  intro i d hd
  rw [List.mem_singleton] at hd
  exact ht i d (by rw [hd]; exact List.mem_cons_self)

lemma AllTame.tail {h : Happening ι} {hs : List (Happening ι)} (ht : AllTame (h :: hs)) :
    AllTame hs :=
  fun i d hd => ht i d (List.mem_cons_of_mem h hd)

/-- Every history shows the index it starts with. -/
lemma start_mem_indices (m : Monitor) (hs : List (Happening ι)) : m.warnings ∈ indices m hs := by
  cases hs with
  | nil => exact List.mem_singleton_self _
  | cons h hs => exact List.mem_cons_self

/-- Without a reason to forget it, a mark stays. -/
lemma answered_of_not_rearmed {m : Monitor} {uid : String} {hs : List (Happening ι)}
    (ht : AllTame hs) (hg : m.warnings.Tied (mark uid)) (hm : mark uid ∈ m.warnings.answered)
    (hnot : ¬ Rearmed uid m hs) : mark uid ∈ (leavesAll m hs).warnings.answered := by
  induction hs generalizing m with
  | nil => exact hm
  | cons h hs ih =>
    have hrearmed : ∀ i x, h ≠ .did i (Deed.rearmed uid x) := fun i x hx =>
      hnot (Or.inl ⟨i, x, by rw [hx]; exact List.mem_cons_self⟩)
    have hgroups : ∀ x ∈ indices m (h :: hs), x.hasGroup (mark uid) = true := by
      intro x hx
      by_contra hgone
      exact hnot (Or.inr ⟨x, hx, Bool.eq_false_iff.mpr hgone⟩)
    rw [indices, List.forall_mem_cons, List.forall_mem_append] at hgroups
    refine ih ht.tail (tied_leaves hg ht.head) ?_ ?_
    · exact (mem_answered_leaves hg ht.head).mpr (Or.inr ⟨hm, hrearmed, hgroups.2.1⟩)
    · rintro (⟨i, x, hx⟩ | ⟨x, hx, hgone⟩)
      · exact hnot (Or.inl ⟨i, x, List.mem_cons_of_mem h hx⟩)
      · exact absurd (hgroups.2.2 x hx) (Bool.eq_false_iff.mp hgone)

/-- A mark that nobody makes anew is there at the end exactly when it was there at the beginning and
nothing has taken it away. -/
lemma answered_leavesAll_iff {m : Monitor} {uid : String} {hs : List (Happening ι)}
    (ht : AllTame hs) (hg : m.warnings.Tied (mark uid))
    (hsettled : ∀ i x, .did i (Deed.settled uid x) ∉ hs) :
    mark uid ∈ (leavesAll m hs).warnings.answered ↔
      mark uid ∈ m.warnings.answered ∧ ¬ Rearmed uid m hs := by
  refine ⟨fun hm => ?_, fun hm => answered_of_not_rearmed ht hg hm.1 hm.2⟩
  induction hs generalizing m with
  | nil =>
    refine ⟨hm, ?_⟩
    rintro (⟨i, x, hx⟩ | ⟨x, hx, hgone⟩)
    · cases hx
    · rw [List.mem_singleton.mp hx] at hgone
      exact absurd (hg hm) (Bool.eq_false_iff.mp hgone)
  | cons h hs ih =>
    have hrest := ih ht.tail (tied_leaves hg ht.head)
      (fun i x hx => hsettled i x (List.mem_cons_of_mem h hx)) hm
    rcases (mem_answered_leaves hg ht.head).mp hrest.1 with
      ⟨⟨i, x, hx⟩, -⟩ | ⟨hkept, hfirst, hpassed⟩
    · exact absurd (by rw [hx]; exact List.mem_cons_self) (hsettled i x)
    · refine ⟨hkept, ?_⟩
      rintro (⟨i, x, hx⟩ | ⟨x, hx, hgone⟩)
      · rcases List.mem_cons.mp hx with hx | hx
        · exact hfirst i x hx.symm
        · exact hrest.2 (Or.inl ⟨i, x, hx⟩)
      · rw [indices, List.mem_cons, List.mem_append] at hx
        rcases hx with rfl | hx | hx
        · exact absurd (hg hkept) (Bool.eq_false_iff.mp hgone)
        · exact absurd (hpassed x hx) (Bool.eq_false_iff.mp hgone)
        · exact hrest.2 (Or.inr ⟨x, hx, hgone⟩)

lemma leavesAll_append (m : Monitor) (hs hs' : List (Happening ι)) :
    leavesAll m (hs ++ hs') = leavesAll (leavesAll m hs) hs' := List.foldl_append

lemma indices_subset_append_left (m : Monitor) (hs hs' : List (Happening ι)) :
    indices m hs ⊆ indices m (hs ++ hs') := by
  induction hs generalizing m with
  | nil =>
    intro x hx
    rw [List.mem_singleton.mp hx]
    exact start_mem_indices m hs'
  | cons h hs ih =>
    intro x hx
    simp only [List.cons_append, indices, List.mem_cons, List.mem_append] at hx ⊢
    rcases hx with hx | hx | hx
    · exact Or.inl hx
    · exact Or.inr (Or.inl hx)
    · exact Or.inr (Or.inr (ih _ hx))

lemma indices_subset_append_right (m : Monitor) (hs hs' : List (Happening ι)) :
    indices (leavesAll m hs) hs' ⊆ indices m (hs ++ hs') := by
  induction hs generalizing m with
  | nil => exact fun x hx => hx
  | cons h hs ih =>
    intro x hx
    simp only [List.cons_append, indices, List.mem_cons, List.mem_append]
    exact Or.inr (Or.inr (ih (h.leaves m) hx))

lemma Rearmed.append_left {uid : String} {m : Monitor} {hs : List (Happening ι)}
    (h : Rearmed uid m hs) (hs' : List (Happening ι)) : Rearmed uid m (hs ++ hs') := by
  rcases h with ⟨i, x, hx⟩ | ⟨x, hx, hgone⟩
  · exact Or.inl ⟨i, x, List.mem_append_left hs' hx⟩
  · exact Or.inr ⟨x, indices_subset_append_left m hs hs' hx, hgone⟩

lemma Rearmed.append_right {uid : String} {m : Monitor} {hs hs' : List (Happening ι)}
    (h : Rearmed uid (leavesAll m hs) hs') : Rearmed uid m (hs ++ hs') := by
  rcases h with ⟨i, x, hx⟩ | ⟨x, hx, hgone⟩
  · exact Or.inl ⟨i, x, List.mem_append_right hs hx⟩
  · exact Or.inr ⟨x, indices_subset_append_right m hs hs' hx, hgone⟩

/-! ## Histories of plain events -/

/-- Everything that watch events about events say in a history is plain. -/
def PlainEvents (hs : List (Happening ι)) : Prop :=
  ∀ e, .observed .event e ∈ hs → ∀ a, e.object? = some a → a.Plain

lemma caches_foldl_follow (k : Kind) (m : Monitor) (changes : List (Change k.Object)) :
    (changes.foldl (fun m change => m.follow k change) m).caches = m.caches := by
  induction changes generalizing m with
  | nil => rfl
  | cons c rest ih =>
    rw [List.foldl_cons, ih]
    cases k <;> rfl

/-- Deeds change the marks only, and those are not mirrored. -/
lemma eventsInStep_did {m : Monitor} (hm : m.EventsInStep) {i : ι} {d : Deed} (hd : d.Tame) :
    (leaves m (.did i d)).EventsInStep := by
  have hsame : (leaves m (.did i d)).caches = m.caches ∧
      (leaves m (.did i d)).warnings.entries = m.warnings.entries := by
    rcases hd with hd | ⟨uid, x, rfl⟩ | ⟨uid, x, rfl⟩
    · rw [leaves, (hd m).1, (hd m).2]
      exact ⟨rfl, rfl⟩
    · exact ⟨rfl, rfl⟩
    · refine ⟨rfl, ?_⟩
      rw [settled_leaves, WarningIndex.markRecovered]
      split <;> rfl
  unfold Monitor.EventsInStep at hm ⊢
  rw [hsame.1]
  refine ⟨hm.sound, hm.only, fun s k hk hs => ?_⟩
  rw [← hm.read s k hk hs]
  simp only [WarningIndex.mirror, hsame.2]

lemma eventsInStep_leaves {m : Monitor} (hm : m.EventsInStep) {h : Happening ι}
    (ht : AllTame [h]) (hp : PlainEvents [h]) : (h.leaves m).EventsInStep := by
  cases h with
  | did i d => exact eventsInStep_did hm (ht i d List.mem_cons_self)
  | observed k e =>
    by_cases hk : k = .event
    · subst hk
      exact hm.observe (hp e List.mem_cons_self)
    · have hevents : (m.observe k e).1.caches.events = m.caches.events := by
        simp only [Monitor.observe, caches_foldl_follow]
        exact ByKind.get_set_of_ne _ hk _
      rw [leaves, Monitor.EventsInStep, hevents, warnings_observe_of_ne hk]
      exact hm

/-- Plain watch events and orderly activities keep the index in step with the cache. -/
theorem eventsInStep_leavesAll {m : Monitor} (hm : m.EventsInStep) {hs : List (Happening ι)}
    (ht : AllTame hs) (hp : PlainEvents hs) : (leavesAll m hs).EventsInStep := by
  induction hs generalizing m with
  | nil => exact hm
  | cons h hs ih =>
    have hhead : PlainEvents [h] := fun e he =>
      hp e (by rw [List.mem_singleton.mp he]; exact List.mem_cons_self)
    exact ih (eventsInStep_leaves hm ht.head hhead) ht.tail fun e he =>
      hp e (List.mem_cons_of_mem h he)

/-- Delivering an event again takes the mark of a subject away exactly when no other warning about
the subject is cached, whether the event has changed or not. -/
theorem rearmed_apply_iff {m : Monitor} (hm : m.EventsInStep) (e : Event) {uid : String} :
    Rearmed uid m [(.observed .event (.apply e) : Happening ι)] ↔
      ∀ e' ∈ (m.cached .event).objects, e'.group? = some (mark uid) →
        ObjectKey.of e' = ObjectKey.of e := by
  refine Iff.trans ?_ (WarningIndex.exists_passed_apply_iff hm e)
  have hlast : (leaves m (.observed .event (.apply e) : Happening ι)).warnings ∈
      m.warnings :: m.warnings.passed (m.caches.events.observe (.apply e)).2 := by
    rw [leaves, Monitor.observe_event]
    exact WarningIndex.foldl_follow_mem_passed _ _
  constructor
  · rintro (⟨i, x, hx⟩ | ⟨x, hx, hgone⟩)
    · cases List.mem_singleton.mp hx
    · refine ⟨x, ?_, hgone⟩
      rw [indices, indices, List.mem_cons, List.mem_append, List.mem_singleton] at hx
      rcases hx with rfl | hx | rfl
      · exact List.mem_cons_self
      · exact List.mem_cons_of_mem _ hx
      · exact hlast
  · rintro ⟨x, hx, hgone⟩
    refine Or.inr ⟨x, ?_, hgone⟩
    rw [indices, indices, List.mem_cons, List.mem_append]
    rcases List.mem_cons.mp hx with hx | hx
    · exact Or.inl hx
    · exact Or.inr (Or.inl hx)

end Happening

end StorageHealth
