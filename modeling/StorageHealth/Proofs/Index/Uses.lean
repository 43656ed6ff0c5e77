import Mathlib.Data.List.Induction
import StorageHealth.Proofs.Index.Filings
import StorageHealth.Proofs.Index.Marks
import StorageHealth.Proofs.Index.Shelves

/-!
# What an index of events knows of its uses

An index of events may be used in any way: events are put in and taken out in any order, whether
they were there or not, and groups are marked and cleared in between.  This file says what an index
knows after a list of such uses, and how its groups are held.

A use is one `Step` or several, because an update takes one event out before it puts the other in,
and a group may be gone in between.  A group is present when the last step about one of its members
put that member in (`Present`).  It needs a recovery when it is present and nothing has marked it
since it was last cleared or last appeared (`Unanswered`).

`WarningShelves` holds the groups as sets on shelves, with the marks beside them.  It is used in the
same ways, and an index is the flat view of it: `Carries` is kept by every use.
-/

namespace StorageHealth

namespace WarningIndex

/-! ## Uses and steps -/

/-- What may be done with an index. -/
inductive Use where
  | insert (e : Event)
  | remove (e : Event)
  | follow (c : Change Event)
  | markRecovered (uid : String) (reason : Reason)
  | clearRecovered (uid : String) (reason : Reason)

/-- What happens to an index at one moment. -/
inductive Step where
  | filed (f : Filing Event)
  | marked (uid : String) (reason : Reason)
  | cleared (uid : String) (reason : Reason)

/-- The steps of a use. -/
def Use.steps : Use → List Step
  | .insert e => [.filed (.put e)]
  | .remove e => [.filed (.take e)]
  | .follow c => c.filings.map .filed
  | .markRecovered uid reason => [.marked uid reason]
  | .clearRecovered uid reason => [.cleared uid reason]

/-- The steps of several uses. -/
def history (uses : List Use) : List Step := uses.flatMap Use.steps

/-- The index after a use. -/
def after (x : WarningIndex) : Use → WarningIndex
  | .insert e => x.insert e
  | .remove e => x.remove e
  | .follow c => x.follow c
  | .markRecovered uid reason => x.markRecovered uid reason
  | .clearRecovered uid reason => x.clearRecovered uid reason

/-- What becomes of an empty index. -/
def afterAll (uses : List Use) : WarningIndex := uses.foldl after empty

/-- The index after a step. -/
def step (x : WarningIndex) : Step → WarningIndex
  | .filed f => mirror.file x f
  | .marked uid reason => x.markRecovered uid reason
  | .cleared uid reason => x.clearRecovered uid reason

/-- What becomes of an empty index. -/
def run (steps : List Step) : WarningIndex := steps.foldl step empty

lemma after_eq_foldl_step (x : WarningIndex) (u : Use) : x.after u = u.steps.foldl step x := by
  cases u with
  | follow c =>
    rw [after, ← mirror_follow, mirror.follow_eq_foldl_file, Use.steps, List.foldl_map]
    rfl
  | _ => rfl

lemma afterAll_eq_run (uses : List Use) : afterAll uses = run (history uses) := by
  rw [run, history, List.foldl_flatMap]
  exact congrArg (fun f => uses.foldl f empty) (funext₂ after_eq_foldl_step)

lemma run_concat (steps : List Step) (s : Step) : run (steps ++ [s]) = (run steps).step s := by
  rw [run, List.foldl_append]
  rfl

/-! ## Which groups are present -/

namespace Step

/-- An event is put into a slot. -/
def Fills (slot : String × String) : Step → Prop
  | filed (.put e) => slot ∈ slots e
  | _ => False

/-- An event is put into a slot or taken out of it. -/
def Touches (slot : String × String) : Step → Prop
  | filed f => slot ∈ slots f.object
  | _ => False

/-- A group is marked. -/
def Marks (g : String) : Step → Prop
  | marked uid reason => warningGroup uid reason = g
  | _ => False

/-- The mark of a group is cleared. -/
def Clears (g : String) : Step → Prop
  | cleared uid reason => warningGroup uid reason = g
  | _ => False

lemma Clears.not_marks {g : String} {s : Step} (h : s.Clears g) : ¬ s.Marks g := by
  cases s with
  | filed f => exact id
  | marked uid reason => cases h
  | cleared uid reason => exact id

end Step

/-- For some member of a group, the last time that it was put in or taken out it was put in. -/
def Present (g : String) (steps : List Step) : Prop :=
  ∃ member, Standing (fun _ s => s.Fills (g, member)) (Step.Touches (g, member)) steps

/-- A step fills a slot, or leaves it unless it touches it. -/
lemma mem_entries_step_iff {x : WarningIndex} {s : Step} {slot : String × String} :
    slot ∈ (x.step s).entries ↔ s.Fills slot ∨ ¬ s.Touches slot ∧ slot ∈ x.entries := by
  cases s with
  | filed f =>
    cases f with
    | put e =>
      change slot ∈ (x.insert e).entries ↔ slot ∈ slots e ∨ slot ∉ slots e ∧ slot ∈ x.entries
      rw [mem_entries_insert]
      by_cases hs : slot ∈ slots e <;> simp [hs]
    | take e =>
      change slot ∈ (x.remove e).entries ↔ False ∨ slot ∉ slots e ∧ slot ∈ x.entries
      rw [mem_entries_remove, false_or]
  | marked uid reason =>
    have hsame : (x.markRecovered uid reason).entries = x.entries := by
      unfold markRecovered
      split <;> rfl
    simp [step, hsame, Step.Fills, Step.Touches]
  | cleared uid reason => simp [step, clearRecovered, Step.Fills, Step.Touches]

/-- A slot is filled when the last step that touches it has filled it. -/
lemma mem_entries_run_iff {steps : List Step} {slot : String × String} :
    slot ∈ (run steps).entries ↔
      Standing (fun _ s => s.Fills slot) (Step.Touches slot) steps :=
  foldl_iff_standing (P := fun x : WarningIndex => slot ∈ x.entries) List.not_mem_nil
    (fun _ _ => mem_entries_step_iff) steps

lemma hasGroup_run_iff {steps : List Step} {g : String} :
    (run steps).hasGroup g = true ↔ Present g steps := by
  rw [hasGroup_iff]
  exact exists_congr fun member => mem_entries_run_iff

/-! ## Which groups are answered -/

/-- What a step does to a mark: it leaves one on a group that is there, or takes it away by clearing
it or together with its group. -/
lemma Tied.mem_answered_step_iff {x : WarningIndex} {g : String} (h : x.Tied g) (s : Step) :
    g ∈ (x.step s).answered ↔ s.Marks g ∧ x.hasGroup g = true ∨
      ¬ s.Clears g ∧ g ∈ x.answered ∧ (x.step s).hasGroup g = true := by
  have hthere : g ∈ x.answered ↔ g ∈ x.answered ∧ x.hasGroup g = true :=
    ⟨fun hg => ⟨hg, h hg⟩, And.left⟩
  cases s with
  | filed f =>
    simp only [Step.Marks, Step.Clears, false_and, false_or, not_false_eq_true, true_and]
    cases f with
    | put e =>
      change g ∈ (x.insert e).answered ↔ g ∈ x.answered ∧ (x.insert e).hasGroup g = true
      rw [answered_insert]
      exact ⟨fun hg => ⟨hg, hasGroup_insert_of_hasGroup (h hg) e⟩, And.left⟩
    | take e => exact h.mem_answered_remove e
  | marked uid reason =>
    simp only [step, Step.Marks, Step.Clears, not_false_eq_true, true_and]
    rw [mem_answered_mark_iff, hasGroup_markRecovered, ← hthere]
  | cleared uid reason =>
    simp only [step, Step.Marks, Step.Clears, false_and, false_or]
    rw [mem_answered_clear_iff, hasGroup_clearRecovered, ← hthere]

/-- Marks hang on their groups after every step. -/
lemma Tied.step {x : WarningIndex} {g : String} (h : x.Tied g) (s : Step) : (x.step s).Tied g := by
  intro hg
  rcases (h.mem_answered_step_iff s).mp hg with ⟨hmarks, hgroup⟩ | ⟨-, -, hgroup⟩
  · cases s with
    | marked uid reason => rwa [WarningIndex.step, hasGroup_markRecovered]
    | filed f => cases hmarks
    | cleared uid reason => cases hmarks
  · exact hgroup

lemma tied_run (steps : List Step) (g : String) : (run steps).Tied g := by
  induction steps using List.reverseRecOn with
  | nil => exact fun hg => absurd hg List.not_mem_nil
  | append_singleton steps s ih =>
    rw [run_concat]
    exact ih.step s

/-- A step from which on a group counts as unanswered: its mark is cleared, or the group appears. -/
def Renews (g : String) (before : List Step) (s : Step) : Prop :=
  s.Clears g ∨ ¬ Present g before ∧ Present g (before ++ [s])

/-- Nothing has marked a group since its mark was last cleared or the group last appeared. -/
def Unanswered (g : String) (steps : List Step) : Prop := Standing (Renews g) (Step.Marks g) steps

/-- A group that is present carries a mark unless it is unanswered. -/
lemma notMem_answered_run_iff {steps : List Step} {g : String} (hg : Present g steps) :
    g ∉ (run steps).answered ↔ Unanswered g steps := by
  induction steps using List.reverseRecOn with
  | nil => exact absurd hg fun ⟨member, h⟩ => not_standing_nil h
  | append_singleton steps s ih =>
    have htied : (run steps).Tied g := tied_run steps g
    have hgroup : ((run steps).step s).hasGroup g = true := by
      rw [← run_concat]
      exact hasGroup_run_iff.mpr hg
    rw [run_concat, htied.mem_answered_step_iff, Unanswered, standing_concat_iff]
    by_cases hbefore : Present g steps
    · -- The group was there, so nothing but the step itself can renew it.
      have hthere : (run steps).hasGroup g = true := hasGroup_run_iff.mpr hbefore
      have hrenews : Renews g steps s ↔ s.Clears g := by simp [Renews, hbefore]
      rw [hrenews, ← Unanswered, ← ih hbefore]
      simp only [hthere, hgroup, and_true, not_or, not_and_or, not_not]
      constructor
      · rintro ⟨hmarks, hclears | hmark⟩
        · exact Or.inl hclears
        · exact Or.inr ⟨hmarks, hmark⟩
      · rintro (hclears | ⟨hmarks, hmark⟩)
        · exact ⟨hclears.not_marks, Or.inl hclears⟩
        · exact ⟨hmarks, Or.inr hmark⟩
    · -- The group appears, and a mark from before would have hung on it.
      have hgone : (run steps).hasGroup g ≠ true := fun h => hbefore (hasGroup_run_iff.mp h)
      have hmark : g ∉ (run steps).answered := fun h => hgone (htied h)
      have hrenews : Renews g steps s := Or.inr ⟨hbefore, hg⟩
      simp [hgone, hmark, hrenews]

lemma needsRecovery_run_iff {steps : List Step} {uid : String} {reason : Reason} :
    (run steps).needsRecovery uid reason = true ↔
      Present (warningGroup uid reason) steps ∧ Unanswered (warningGroup uid reason) steps := by
  rw [needsRecovery, Bool.and_eq_true, hasGroup_run_iff, Bool.not_eq_true', Bool.eq_false_iff, Ne,
    List.contains_iff_mem]
  exact and_congr_right notMem_answered_run_iff

/-! ## Groups on shelves -/

/-- The members of a group. -/
def members (x : WarningIndex) (g : String) : List String :=
  (x.entries.filter fun e => e.1 = g).map Prod.snd

lemma mem_members_iff {x : WarningIndex} {g member : String} :
    member ∈ x.members g ↔ (g, member) ∈ x.entries := by
  simp [members]

lemma members_ne_nil_iff {x : WarningIndex} {g : String} :
    x.members g ≠ [] ↔ x.hasGroup g = true := by
  simp only [hasGroup_iff, ← mem_members_iff]
  exact ⟨List.exists_mem_of_ne_nil _, fun ⟨member, hm⟩ => List.ne_nil_of_mem hm⟩

/-- An event joins the members of its group. -/
lemma members_insert {e : Event} {g : String} (hg : e.group? = some g) (x : WarningIndex) :
    (x.insert e).members = Function.update x.members g ((x.members g).insert e.member) := by
  have hentries : (x.insert e).entries = x.entries.insert (g, e.member) := by simp [insert, hg]
  funext g'
  rw [Function.update_apply]
  unfold members
  rw [hentries]
  by_cases hm : (g, e.member) ∈ x.entries
  · have hmember : e.member ∈ x.members g := mem_members_iff.mpr hm
    rw [List.insert_of_mem hm]
    split
    · rename_i hsame
      rw [hsame]
      exact (List.insert_of_mem hmember).symm
    · rfl
  · have hmember : e.member ∉ x.members g := fun h => hm (mem_members_iff.mp h)
    rw [List.insert_of_not_mem hm]
    split
    · rename_i hsame
      rw [hsame, List.filter_cons_of_pos (by simp), List.map_cons]
      exact (List.insert_of_not_mem hmember).symm
    · rename_i hother
      rw [List.filter_cons_of_neg (by simpa using Ne.symm hother)]

lemma entries_remove {e : Event} {g : String} (hg : e.group? = some g) (x : WarningIndex) :
    (x.remove e).entries = x.entries.filter fun p => p ≠ (g, e.member) := by
  unfold remove
  simp only [hg]
  split
  · split <;> rfl
  · rename_i hgone
    refine (List.filter_eq_self.mpr fun p hp => ?_).symm
    rw [decide_eq_true_eq]
    rintro rfl
    exact hgone (hasGroup_iff.mpr ⟨_, hp⟩)

/-- An event leaves the members of its group. -/
lemma members_remove {e : Event} {g : String} (hg : e.group? = some g) (x : WarningIndex) :
    (x.remove e).members =
      Function.update x.members g ((x.members g).filter fun m => m ≠ e.member) := by
  funext g'
  rw [Function.update_apply]
  unfold members
  rw [entries_remove hg, List.filter_filter]
  split
  · rename_i hsame
    rw [hsame, List.filter_map, List.filter_filter]
    refine congrArg _ (List.filter_congr fun p _ => ?_)
    by_cases hp : p.1 = g <;> simp [Prod.ext_iff, hp]
  · rename_i hother
    refine congrArg _ (List.filter_congr fun p _ => ?_)
    by_cases hp : p.1 = g' <;> simp [Prod.ext_iff, hp, hother]

/-- A group that loses its last member loses its mark. -/
lemma answered_remove {e : Event} {g : String} (hg : e.group? = some g) (x : WarningIndex) :
    (x.remove e).answered = if x.hasGroup g = true ∧ (x.remove e).hasGroup g = false
      then x.answered.filter fun g' => g' ≠ g else x.answered := by
  have hleft : (x.remove e).hasGroup g =
      hasGroup { x with entries := x.entries.filter fun p => p ≠ (g, e.member) } g := by
    rw [hasGroup, entries_remove hg]
    rfl
  rw [hleft]
  unfold remove
  simp only [hg]
  split
  · rename_i hthere
    split
    · rename_i hkept
      rw [if_neg fun h => Bool.eq_false_iff.mp h.2 hkept]
    · rename_i hgone
      rw [if_pos ⟨hthere, Bool.eq_false_iff.mpr hgone⟩]
  · rename_i habsent
    rw [if_neg fun h => habsent h.1]

end WarningIndex

/-- The groups of an index as sets on shelves, and the groups that were answered. -/
structure WarningShelves where
  sets : Shelves String String
  answered : List String

namespace WarningShelves

open WarningIndex

/-- The shelves without events. -/
def empty : WarningShelves := ⟨Table.empty, []⟩

/-- Whether a group has a set. -/
def hasGroup (y : WarningShelves) (g : String) : Bool := y.sets.contains g

/-- Adds an event to the set of its group. -/
def insert (y : WarningShelves) (e : Event) : WarningShelves :=
  match e.group? with
  | none => y
  | some g => { y with sets := y.sets.shelve g (List.insert e.member) }

/-- Removes an event from the set of its group; an empty set goes, and the mark of the group with
it. -/
def remove (y : WarningShelves) (e : Event) : WarningShelves :=
  match e.group? with
  | none => y
  | some g =>
    match y.sets.get? g with
    | none => y
    | some set =>
      if set.filter (fun m => m ≠ e.member) = [] then
        ⟨y.sets.erase g, y.answered.filter fun g' => g' ≠ g⟩
      else { y with sets := y.sets.insert g (set.filter fun m => m ≠ e.member) }

/-- Follows a change of an event; an update is a removal and an addition. -/
def follow (y : WarningShelves) : Change Event → WarningShelves
  | .added e => y.insert e
  | .updated old new => (y.remove old).insert new
  | .deleted e => y.remove e

/-- Whether a warning is there for a subject that no recovery has answered. -/
def needsRecovery (y : WarningShelves) (uid : String) (reason : Reason) : Bool :=
  y.hasGroup (warningGroup uid reason) && !y.answered.contains (warningGroup uid reason)

/-- Remembers that the warning of a subject was answered; without a warning nothing happens. -/
def markRecovered (y : WarningShelves) (uid : String) (reason : Reason) : WarningShelves :=
  if y.hasGroup (warningGroup uid reason) then
    { y with answered := y.answered.insert (warningGroup uid reason) }
  else y

/-- Forgets that the warning of a subject was answered. -/
def clearRecovered (y : WarningShelves) (uid : String) (reason : Reason) : WarningShelves :=
  { y with answered := y.answered.filter fun g => g ≠ warningGroup uid reason }

/-- The shelves after a use. -/
def after (y : WarningShelves) : Use → WarningShelves
  | .insert e => y.insert e
  | .remove e => y.remove e
  | .follow c => y.follow c
  | .markRecovered uid reason => y.markRecovered uid reason
  | .clearRecovered uid reason => y.clearRecovered uid reason

/-- What becomes of the shelves without events. -/
def afterAll (uses : List Use) : WarningShelves := uses.foldl after empty

/-- The shelves carry an index: the members of each group, and the same marks. -/
structure Carries (y : WarningShelves) (x : WarningIndex) : Prop where
  holds : y.sets.Holds x.members
  answered : y.answered = x.answered

variable {y : WarningShelves} {x : WarningIndex}

lemma hasGroup_eq_of_holds (h : y.sets.Holds x.members) (g : String) :
    y.hasGroup g = x.hasGroup g := by
  rw [Bool.eq_iff_iff, hasGroup, h.contains_iff, members_ne_nil_iff]

lemma Carries.needsRecovery_eq (h : y.Carries x) (uid : String) (reason : Reason) :
    y.needsRecovery uid reason = x.needsRecovery uid reason := by
  rw [needsRecovery, hasGroup_eq_of_holds h.holds, h.answered, WarningIndex.needsRecovery]

lemma sets_remove {e : Event} {g : String} (hg : e.group? = some g) (y : WarningShelves) :
    (y.remove e).sets = y.sets.unshelve g (List.filter fun m => m ≠ e.member) := by
  unfold remove Shelves.unshelve
  simp only [hg]
  cases y.sets.get? g with
  | none => rfl
  | some set =>
    dsimp only
    split <;> rfl

/-- A group whose set goes loses its mark. -/
lemma answered_remove {e : Event} {g : String} (hg : e.group? = some g) (y : WarningShelves) :
    (y.remove e).answered = if y.hasGroup g = true ∧ (y.remove e).hasGroup g = false
      then y.answered.filter fun g' => g' ≠ g else y.answered := by
  unfold remove hasGroup Table.contains
  simp only [hg]
  cases hset : y.sets.get? g with
  | none => simp
  | some set =>
    dsimp only
    split <;> simp

lemma carries_empty : empty.Carries WarningIndex.empty := ⟨Shelves.holds_empty, rfl⟩

lemma Carries.insert (h : y.Carries x) (e : Event) : (y.insert e).Carries (x.insert e) := by
  cases hg : e.group? with
  | none => simpa [WarningShelves.insert, WarningIndex.insert, hg] using h
  | some g =>
    refine ⟨?_, ?_⟩
    · rw [members_insert hg]
      simp only [WarningShelves.insert, hg]
      refine h.holds.shelve (List.ne_nil_of_mem (a := e.member) ?_)
      exact List.mem_insert_self
    · rw [answered_insert, ← h.answered]
      simp only [WarningShelves.insert, hg]

lemma Carries.remove (h : y.Carries x) (e : Event) : (y.remove e).Carries (x.remove e) := by
  cases hg : e.group? with
  | none => simpa [WarningShelves.remove, WarningIndex.remove, hg] using h
  | some g =>
    have hholds : (y.remove e).sets.Holds (x.remove e).members := by
      rw [sets_remove hg, members_remove hg]
      exact h.holds.unshelve rfl
    refine ⟨hholds, ?_⟩
    rw [answered_remove hg, WarningIndex.answered_remove hg, hasGroup_eq_of_holds h.holds,
      hasGroup_eq_of_holds hholds, h.answered]

lemma Carries.after (h : y.Carries x) (u : Use) : (y.after u).Carries (x.after u) := by
  cases u with
  | insert e => exact h.insert e
  | remove e => exact h.remove e
  | follow c =>
    cases c with
    | added e => exact h.insert e
    | updated old new => exact (h.remove old).insert new
    | deleted e => exact h.remove e
  | markRecovered uid reason =>
    simp only [WarningShelves.after, WarningIndex.after, WarningShelves.markRecovered,
      WarningIndex.markRecovered, hasGroup_eq_of_holds h.holds]
    split
    · exact ⟨h.holds, congrArg (List.insert (warningGroup uid reason)) h.answered⟩
    · exact h
  | clearRecovered uid reason =>
    exact ⟨h.holds, congrArg (List.filter fun g => g ≠ warningGroup uid reason) h.answered⟩

/-- Whatever is done, the shelves carry the index. -/
lemma carries_afterAll (uses : List Use) :
    (afterAll uses).Carries (WarningIndex.afterAll uses) := by
  induction uses using List.reverseRecOn with
  | nil => exact carries_empty
  | append_singleton uses u ih =>
    rw [afterAll, WarningIndex.afterAll, List.foldl_append, List.foldl_append]
    exact ih.after u

end WarningShelves

/-! ## What is known after any uses -/

namespace WarningIndex

/-- What is known of an index, and of the shelves that carry it, after some uses. -/
structure Account (uses : List Use) : Prop where
  /-- The shelves carry the index. -/
  carries : (WarningShelves.afterAll uses).Carries (afterAll uses)
  /-- No group is held as an empty set, -/
  occupied : ∀ g set, (WarningShelves.afterAll uses).sets.get? g = some set → set ≠ []
  /-- and every mark hangs on a group that is held. -/
  tied : ∀ g ∈ (WarningShelves.afterAll uses).answered,
    (WarningShelves.afterAll uses).hasGroup g = true
  /-- The shelves give the same answers as the index, -/
  hasGroup_eq : ∀ g, (WarningShelves.afterAll uses).hasGroup g = (afterAll uses).hasGroup g
  /-- also about recoveries. -/
  needsRecovery_eq : ∀ uid reason, (WarningShelves.afterAll uses).needsRecovery uid reason =
    (afterAll uses).needsRecovery uid reason
  /-- A group is there when the last step about one of its members put that member in. -/
  hasGroup_iff : ∀ g, (afterAll uses).hasGroup g = true ↔ Present g (history uses)
  /-- A recovery is needed when the group is there and nothing has marked it since it was last
  cleared or last appeared. -/
  needsRecovery_iff : ∀ uid reason, (afterAll uses).needsRecovery uid reason = true ↔
    Present (warningGroup uid reason) (history uses) ∧
      Unanswered (warningGroup uid reason) (history uses)
  /-- Marking a group that is absent makes no difference to anything later. -/
  mark_absent : ∀ before uid reason later, uses = before ++ .markRecovered uid reason :: later →
    ¬ Present (warningGroup uid reason) (history before) →
    afterAll uses = afterAll (before ++ later)

/-- Whatever is done with an index, its groups and its marks are accounted for. -/
theorem keeps_account (uses : List Use) : Account uses := by
  have hcarries := WarningShelves.carries_afterAll uses
  have hgroups := WarningShelves.hasGroup_eq_of_holds hcarries.holds
  exact {
    carries := hcarries
    occupied := fun g set hset => hcarries.holds.ne_nil hset
    tied := by
      intro g hg
      rw [hcarries.answered, afterAll_eq_run] at hg
      rw [hgroups, afterAll_eq_run]
      exact tied_run (history uses) g hg
    hasGroup_eq := hgroups
    needsRecovery_eq := hcarries.needsRecovery_eq
    hasGroup_iff := by
      intro g
      rw [afterAll_eq_run]
      exact hasGroup_run_iff
    needsRecovery_iff := by
      intro uid reason
      rw [afterAll_eq_run]
      exact needsRecovery_run_iff
    mark_absent := by
      intro before uid reason later huses habsent
      have hgone : (afterAll before).hasGroup (warningGroup uid reason) ≠ true := by
        intro hgroup
        rw [afterAll_eq_run] at hgroup
        exact habsent (hasGroup_run_iff.mp hgroup)
      have hidle : (afterAll before).markRecovered uid reason = afterAll before := by
        rw [markRecovered, if_neg hgone]
      rw [huses, afterAll, List.foldl_append, List.foldl_cons]
      change later.foldl after ((afterAll before).markRecovered uid reason) = _
      rw [hidle, afterAll, ← List.foldl_append]
      rfl }

end WarningIndex

/-! ## A mark that comes too early -/

namespace EarlyMark

open WarningIndex

/-- A warning about a claim. -/
def warning : Event := .about "pvc1.warning" "uid-1" .warning .volumeAbnormal "1"

/-- An event about the same claim that the index has never seen. -/
def unseen : Event := .about "pvc1.normal" "uid-1" .normal .volumeNormal "1"

/-- The warning comes and goes. -/
def before : List Use := [.insert warning, .remove warning]

/-- The warning comes back in place of an event that was never there. -/
def later : List Use := [.remove unseen, .follow (.updated unseen warning)]

/-- A mark that is left while the warning is away makes no difference when it is back. -/
theorem recovery_needed : ¬ Present (warningGroup "uid-1" .volumeAbnormal) (history before) ∧
    afterAll (before ++ .markRecovered "uid-1" .volumeAbnormal :: later) =
      afterAll (before ++ later) ∧
    Unanswered (warningGroup "uid-1" .volumeAbnormal)
      (history (before ++ .markRecovered "uid-1" .volumeAbnormal :: later)) := by
  have haccount := keeps_account (before ++ .markRecovered "uid-1" .volumeAbnormal :: later)
  have habsent : ¬ Present (warningGroup "uid-1" .volumeAbnormal) (history before) := by
    rw [← (keeps_account before).hasGroup_iff]
    decide
  have hneeded : (afterAll
      (before ++ .markRecovered "uid-1" .volumeAbnormal :: later)).needsRecovery "uid-1"
        .volumeAbnormal = true := by decide
  exact ⟨habsent, haccount.mark_absent before "uid-1" .volumeAbnormal later rfl habsent,
    ((haccount.needsRecovery_iff "uid-1" .volumeAbnormal).mp hneeded).2⟩

end EarlyMark

end StorageHealth
