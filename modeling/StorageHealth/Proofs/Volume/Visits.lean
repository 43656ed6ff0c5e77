import StorageHealth.Proofs.Check.Activities
import StorageHealth.Proofs.Process.Workplace
import StorageHealth.Care

/-!
# What is done about a volume

A visit to a volume gets at its slot once, at the beginning: the slot is given up, found closed or
taken, and only in the last case is the volume checked (`Attended`).  The answer does not depend on
what becomes of the check.

Whatever else the visit does leaves the slots alone (`Attended.spares`), so as far as slots are
concerned a visit takes place when it begins, however long its check takes and whoever else is at
work meanwhile.
-/

namespace StorageHealth

namespace Deed

/-- A deed that leaves the slots alone. -/
def SparesSlots (d : Deed) : Prop := ∀ m, (d.effect.leaves m).slots = m.slots

end Deed

open Deed

namespace Check

lemma sparesSlots_report (s : Subject) (condition : Condition) :
    (report s condition).Always fun ds => ∀ d ∈ ds, d.SparesSlots := by
  intro ds r h
  cases reported_of_ends h with
  | nameless _ => simp
  | warned _ _ m outcome =>
    simp [SparesSlots, rearmed, Monitor.rearm, sent, Effect.leaves]
  | quiet _ _ _ => simp [SparesSlots, looked, Effect.leaves]
  | refused _ _ _ e => simp [SparesSlots, looked, sent, Effect.leaves]
  | recovered _ _ _ m' =>
    simp [SparesSlots, looked, sent, settled, Monitor.settle, Effect.leaves]

lemma sparesSlots_controller (c : Conduct) (v : Volume) :
    (controller c v).Always fun ds => ∀ d ∈ ds, d.SparesSlots := by
  have hclosed := closed_forall SparesSlots
  refine always_controller hclosed (fun m => ?_) sparesSlots_report fun handle => ?_
  · simp [SparesSlots, looked, Effect.leaves]
  · exact always_ask hclosed fun outcome => by simp [SparesSlots, Effect.leaves]

end Check

namespace Volume

/-- What a visit to a volume does, and what it answers. -/
inductive Attended (c : Conduct) (now : Nat) (v : Volume) : List Deed → Schedule → Prop where
  | dropped (hdrop : v.isMonitored c = false) (m : Monitor) :
      Attended c now v [slotted (fun s => s.forget (nameOf v)) m] .onChange
  | early (hmonitored : v.isMonitored c = true) {m : Monitor} {left : Span}
      (hclosed : m.slots.closedFor v now = some left) :
      Attended c now v [slotted (fun s => (s.claim v now c.monitorInterval).1) m] (.after left)
  | checked (hmonitored : v.isMonitored c = true) {m : Monitor}
      (hopen : m.slots.closedFor v now = none) {ds : List Deed} {r : Except CheckError Condition}
      (check : (Check.controller c v).Ends ds r) :
      Attended c now v (slotted (fun s => (s.claim v now c.monitorInterval).1) m :: ds)
        (.after c.monitorInterval)

/-- An attempt that is scheduled ends in any case. -/
lemma ends_scheduled_iff {ε : Type} {failure : Schedule} {x : Attempt ε Schedule} {ds : List Deed}
    {answer : Schedule} : (Care.scheduled failure x).Ends ds answer ↔
      ∃ r, x.Ends ds r ∧ answer = r.toOption.getD failure := by
  rw [Care.scheduled, Process.bind_eq, Process.ends_bind_iff]
  constructor
  · rintro ⟨first, r, rest, rfl, hfirst, hrest⟩
    cases r with
    | ok a =>
      obtain ⟨rfl, rfl⟩ := Process.ends_done_iff.mp hrest
      exact ⟨_, by rwa [List.append_nil], rfl⟩
    | error e =>
      obtain ⟨rfl, rfl⟩ := Process.ends_done_iff.mp hrest
      exact ⟨.error e, by rwa [List.append_nil], rfl⟩
  · rintro ⟨r, hr, rfl⟩
    refine ⟨ds, r, [], (List.append_nil ds).symm, hr, ?_⟩
    cases r <;> exact Process.ends_done_iff.mpr ⟨rfl, rfl⟩

/-- A visit does what is listed, and nothing else. -/
theorem ends_cycle_iff {c : Conduct} {now : Nat} {v : Volume} {ds : List Deed} {answer : Schedule} :
    (Care.cycle c now .volumes v).Ends ds answer ↔ Attended c now v ds answer := by
  rw [Care.cycle, ends_scheduled_iff]
  cases hmonitored : v.isMonitored c with
  | false =>
    rw [cycle, if_neg (by rw [hmonitored]; exact Bool.false_ne_true)]
    constructor
    · rintro ⟨r, hr, rfl⟩
      obtain ⟨m, rest, rfl, hrest⟩ := Attempt.ends_change_bind_iff.mp hr
      obtain ⟨rfl, rfl⟩ := Attempt.ends_pure_iff.mp hrest
      exact Attended.dropped hmonitored m
    · intro h
      cases h with
      | dropped _ m =>
        refine ⟨.ok .onChange, Attempt.ends_change_bind_iff.mpr ⟨m, [], rfl, ?_⟩, rfl⟩
        exact Attempt.ends_pure_iff.mpr ⟨rfl, rfl⟩
      | early h _ => cases hmonitored.symm.trans h
      | checked h _ _ => cases hmonitored.symm.trans h
  | true =>
    rw [cycle, if_pos hmonitored]
    constructor
    · rintro ⟨r, hr, rfl⟩
      obtain ⟨first, m, rest, rfl, hfirst, hrest⟩ := Attempt.ends_lift_bind_iff.mp hr
      rw [Process.ends_perform_iff.mp hfirst, List.singleton_append]
      cases hclosed : m.slots.closedFor v now with
      | some left =>
        simp only [hclosed] at hrest
        obtain ⟨rfl, rfl⟩ := Attempt.ends_pure_iff.mp hrest
        exact Attended.early hmonitored hclosed
      | none =>
        simp only [hclosed] at hrest
        obtain ⟨r', hcheck, rfl⟩ := Attempt.ends_bind_pure_iff.mp hrest
        have hanswer : (r'.map fun _ => Schedule.after c.monitorInterval).toOption.getD
            (afterFailure c) = .after c.monitorInterval := by
          cases r' <;> rfl
        rw [hanswer]
        exact Attended.checked hmonitored hclosed hcheck
    · intro h
      have hclaim : ∀ {m : Monitor}, (Process.perform (.update fun m =>
          { m with slots := (m.slots.claim v now c.monitorInterval).1 })).Ends
            [slotted (fun s => (s.claim v now c.monitorInterval).1) m] m :=
        Process.ends_perform_iff.mpr rfl
      cases h with
      | dropped h _ => cases hmonitored.symm.trans h
      | @early _ m left hclosed =>
        refine ⟨.ok (.after left), ?_, rfl⟩
        refine Attempt.ends_lift_bind_iff.mpr ⟨_, m, [], rfl, hclaim, ?_⟩
        simp only [hclosed]
        exact Attempt.ends_pure_iff.mpr ⟨rfl, rfl⟩
      | @checked _ m hopen ds r check =>
        refine ⟨r.map fun _ => .after c.monitorInterval, ?_, ?_⟩
        · refine Attempt.ends_lift_bind_iff.mpr ⟨_, m, ds, rfl, hclaim, ?_⟩
          simp only [hopen]
          exact Attempt.ends_bind_pure_iff.mpr ⟨r, check, rfl⟩
        · cases r <;> rfl

/-- After it has begun, a visit leaves the slots alone. -/
lemma Attended.spares {c : Conduct} {now : Nat} {v : Volume} {d : Deed} {ds : List Deed}
    {answer : Schedule} (h : Attended c now v (d :: ds) answer) : ∀ d' ∈ ds, d'.SparesSlots := by
  cases h with
  | dropped => simp
  | early => simp
  | checked hmonitored hopen check => exact Check.sparesSlots_controller c v ds _ check

/-- The answer to a visit is settled when it begins. -/
lemma Attended.answer_eq {c : Conduct} {now : Nat} {v : Volume} {d : Deed} {ds : List Deed}
    {answer : Schedule} (h : Attended c now v (d :: ds) answer) {m : Monitor} (fits : d.Fits m) :
    answer = if v.isMonitored c then .after ((m.slots.closedFor v now).getD c.monitorInterval)
      else .onChange := by
  cases h with
  | dropped hdrop x => rw [hdrop, if_neg Bool.false_ne_true]
  | @early hmonitored x left hclosed =>
    obtain rfl : x = m := fits
    rw [if_pos hmonitored, hclosed, Option.getD_some]
  | @checked hmonitored x hopen _ _ check =>
    obtain rfl : x = m := fits
    rw [if_pos hmonitored, hopen, Option.getD_none]

end Volume

end StorageHealth
