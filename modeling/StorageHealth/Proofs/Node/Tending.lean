import StorageHealth.Proofs.Node.Passes
import StorageHealth.Proofs.Process.Workplace

/-!
# The tracker over a visit

A visit to a node reads the tracker, makes passes over the claims on the node and notes the outcome
in the tracker afterwards.  When nobody else touches the tracker in between (`Monitor.Exclusive`),
it goes through a visit as if all of this had happened at once (`Tended.tracker_eq`).  The rest of
this file is about what that does to a tracker (`NodeTracker.visited`): to the mark of the node, to
a node that could not be marked, and to the other nodes.
-/

namespace StorageHealth

/-! ## What a visit changes -/

/-- A deed that changes nothing. -/
def Deed.Calm (d : Deed) : Prop := ∀ m, d.effect.leaves m = m

namespace Node

open Deed

section Calm

variable {c : Conduct} {node : String} {notice : AffectedClaim → Notice} {ds : List Deed}
  {r : Except NodeError Unit}

lemma Passed.calm (h : Passed c node notice ds r) : ∀ d ∈ ds, d.Calm := by
  refine always_pass (closed_forall Deed.Calm) ?_ ?_ ds r (ends_pass_iff.mpr h)
  · simp [Deed.Calm, looked, Effect.leaves]
  · simp [Deed.Calm, sent, Effect.leaves]

lemma Marking.calm {retries : Nat} (h : Marking c node retries ds r) : ∀ d ∈ ds, d.Calm := by
  refine always_markWithRetries (closed_forall Deed.Calm) ?_ ?_ ?_ retries ds r
    (ends_markWithRetries_iff.mpr h)
  · simp [Deed.Calm, looked, Effect.leaves]
  · simp [Deed.Calm, sent, Effect.leaves]
  · simp [Deed.Calm, paused, Effect.leaves]

/-- All that a visit changes is the tracker. -/
lemma Tended.calm_or_tracked {now : Nat} {n : Node} {r : Except NodeError Schedule}
    (h : Tended c now n ds r) : ∀ d ∈ ds, d.Calm ∨ ∃ f m, d = tracked f m := by
  have hclosed := closed_forall fun d => d.Calm ∨ ∃ f m, d = tracked f m
  refine always_cycle hclosed ?_ ?_ ?_ ?_ now n ds r (ends_cycle_iff.mpr h)
  · simp [Deed.Calm, looked, Effect.leaves]
  · simp [Deed.Calm, sent, Effect.leaves]
  · simp [Deed.Calm, paused, Effect.leaves]
  · exact fun f m d hd => Or.inr ⟨f, m, List.mem_singleton.mp hd⟩

end Calm

end Node

/-! ## Whoever has the tracker to themselves -/

namespace Monitor

open Deed

variable {m m' x : Monitor} {ds last : List Deed}

/-- These deeds lead from one monitor to another.  Whoever else is at work in between leaves the
tracker alone; everything else may change at any time. -/
abbrev Exclusive : Monitor → List Deed → Monitor → Prop :=
  Path fun m d m' => ∃ x, x.tracker = m.tracker ∧ d.Fits x ∧ m' = d.effect.leaves x

lemma exclusive_append_iff {es : List Deed} :
    m.Exclusive (ds ++ es) m' ↔ ∃ x, m.Exclusive ds x ∧ x.Exclusive es m' := Path.append_iff

lemma Exclusive.tracker_eq (h : m.Exclusive ds m') (hds : ∀ d ∈ ds, d.Calm) :
    m'.tracker = m.tracker := by
  refine h.keeps (P := fun y => y.tracker = m.tracker) ?_ rfl
  rintro y d hd _ ⟨x, htracker, -, rfl⟩ hy
  rw [hds d hd, htracker, hy]

/-- The tracker is changed as it was. -/
lemma Exclusive.of_tracked {f : NodeTracker → NodeTracker}
    (h : m.Exclusive (.tracked f x :: ds) m') :
    x.tracker = m.tracker ∧ ∃ y : Monitor, y.tracker = f m.tracker ∧ y.Exclusive ds m' := by
  obtain _ | ⟨⟨y, htracker, fits, rfl⟩, rest⟩ := h
  have hx : x = y := fits
  subst hx
  exact ⟨htracker, { x with tracker := f x.tracker }, congrArg f htracker, rest⟩

/-- What is noted at the end is noted in the tracker as it was. -/
lemma Exclusive.of_noted {f : NodeTracker → NodeTracker} {r : Except NodeError Unit}
    (h : m.Exclusive (ds ++ last) m') (hds : ∀ d ∈ ds, d.Calm) (hlast : Node.Noted f r last) :
    m'.tracker = if r.isOk then f m.tracker else m.tracker := by
  obtain ⟨y, hfirst, hrest⟩ := exclusive_append_iff.mp h
  have htracker := hfirst.tracker_eq hds
  cases hlast with
  | success x =>
    obtain ⟨-, z, hz, hnothing⟩ := hrest.of_tracked
    cases hnothing
    exact hz.trans (congrArg f htracker)
  | failure e =>
    cases hrest
    exact htracker

end Monitor

/-- What a tracker becomes over a visit to a node: the observation is taken note of, and so is what
was done about it, if that worked out. -/
def NodeTracker.visited (t : NodeTracker) (n : Node) (now : Nat) (ok : Bool) : NodeTracker :=
  match (t.observe n now).2 with
  | .nothing => (t.observe n now).1
  | .markFailed => if ok then (t.observe n now).1.marked (nameOf n) else (t.observe n now).1
  | .notifyRecovered => if ok then (t.observe n now).1.recovered (nameOf n) else (t.observe n now).1

namespace Node

variable {c : Conduct} {now : Nat} {n : Node} {ds : List Deed} {m m' : Monitor}

lemma isOk_map (r : Except NodeError Unit) (a : Schedule) :
    (r.map fun _ => a).isOk = r.isOk := by
  cases r <;> rfl

/-- What a visit makes of the tracker. -/
lemma Tended.tracker_eq {r : Except NodeError Schedule} (h : Tended c now n ds r)
    (hds : m.Exclusive ds m') : m'.tracker = m.tracker.visited n now r.isOk := by
  cases h with
  | @quiet x haction =>
    obtain ⟨hx, y, hy, hnothing⟩ := hds.of_tracked
    rw [hx] at haction
    cases hnothing
    rw [NodeTracker.visited, haction]
    exact hy
  | @failed x haction marks last r marking noted =>
    obtain ⟨hx, y, hy, hrest⟩ := hds.of_tracked
    rw [hx] at haction
    have htracker := hrest.of_noted marking.calm noted
    rw [hy] at htracker
    rw [NodeTracker.visited, haction, isOk_map]
    exact htracker
  | @back x haction told last r pass noted =>
    obtain ⟨hx, y, hy, hrest⟩ := hds.of_tracked
    rw [hx] at haction
    have htracker := hrest.of_noted pass.calm noted
    rw [hy] at htracker
    rw [NodeTracker.visited, haction, isOk_map]
    exact htracker

end Node

/-! ## What is left in the tracker -/

namespace NodeTracker

variable {t t' : NodeTracker} {n : Node} {now : Nat} {ok : Bool} {name : String}

/-! ### The mark of a node -/

/-- A node is marked down after a visit that marked it, or when it was before and the visit did not
tell its recovery. -/
lemma isMarkedDown_visited_iff : (t.visited n now ok).isMarkedDown name = true ↔
    (ok = true ∧ nameOf n = name ∧ (t.observe n now).2 = .markFailed) ∨
      ¬ (ok = true ∧ nameOf n = name ∧ (t.observe n now).2 = .notifyRecovered) ∧
        t.isMarkedDown name = true := by
  have hobserve := isMarkedDown_observe t n now name
  cases haction : (t.observe n now).2 with
  | nothing => simp [visited, haction, hobserve]
  | markFailed =>
    cases ok with
    | false => simp [visited, haction, hobserve]
    | true => simp [visited, haction, hobserve, isMarkedDown_marked_iff]
  | notifyRecovered =>
    cases ok with
    | false => simp [visited, haction, hobserve]
    | true => simp [visited, haction, hobserve, isMarkedDown_recovered_iff]

/-- A recovery is only asked for when a node that is marked down is ready. -/
lemma ready_of_notifyRecovered (haction : (t.observe n now).2 = .notifyRecovered) :
    n.isReady = true ∧ t.isMarkedDown (nameOf n) = true := by
  rw [observe] at haction
  split at haction
  · rename_i hready
    refine ⟨hready, ?_⟩
    by_contra hunmarked
    rw [if_neg hunmarked] at haction
    cases haction
  · split at haction
    · cases haction
    · split at haction
      · split at haction <;> cases haction
      · cases haction

/-- A mark is only taken away by a visit that told the recovery. -/
lemma eq_notifyRecovered_of_unmarked (hmarked : t.isMarkedDown name = true)
    (hunmarked : (t.visited n now ok).isMarkedDown name = false) :
    ok = true ∧ nameOf n = name ∧ (t.observe n now).2 = .notifyRecovered := by
  by_contra hnot
  rw [isMarkedDown_visited_iff.mpr (Or.inr ⟨hnot, hmarked⟩)] at hunmarked
  cases hunmarked

/-- After a visit that marked it, a node is marked down. -/
lemma isMarkedDown_visited_of_markFailed (haction : (t.observe n now).2 = .markFailed) :
    (t.visited n now true).isMarkedDown (nameOf n) = true :=
  isMarkedDown_visited_iff.mpr (Or.inl ⟨rfl, rfl, haction⟩)

/-- After a visit that found it ready and worked out, a node is not marked down. -/
lemma isMarkedDown_visited_of_ready (hready : n.isReady = true) :
    (t.visited n now true).isMarkedDown (nameOf n) = false := by
  rw [Bool.eq_false_iff, ne_eq, isMarkedDown_visited_iff, observe_of_ready hready]
  cases t.isMarkedDown (nameOf n) <;> simp

/-! ### A node that could not be marked, and the other nodes -/

/-- A node that is to be marked is not ready, and finding that out changes nothing. -/
lemma observe_of_markFailed (haction : (t.observe n now).2 = .markFailed) :
    n.isReady = false ∧ (t.observe n now).1 = t := by
  cases hready : n.isReady with
  | true =>
    rw [observe_of_ready hready] at haction
    split at haction <;> cases haction
  | false =>
    refine ⟨rfl, ?_⟩
    cases hterminated : n.isTerminated with
    | true => simp [observe, hready, hterminated]
    | false =>
      cases hsince : t.notReadySince.get? (nameOf n) with
      | none =>
        rw [observe_of_new hready hterminated hsince] at haction
        cases haction
      | some since => simp [observe, hready, hterminated, hsince]

/-- A visit that fails to mark a node leaves no trace. -/
lemma visited_of_markFailed (haction : (t.observe n now).2 = .markFailed) :
    t.visited n now false = t := by
  rw [visited, haction]
  exact (observe_of_markFailed haction).2

/-- A node that is to be marked is to be marked at any later time, as long as nothing else is known
about it. -/
lemma observe_markFailed_of_le (haction : (t.observe n now).2 = .markFailed)
    (hthreshold : t'.threshold = t.threshold)
    (hsince : t'.notReadySince.get? (nameOf n) = t.notReadySince.get? (nameOf n)) {later : Nat}
    (hle : now ≤ later) : (t'.observe n later).2 = .markFailed := by
  obtain ⟨hready, -⟩ := observe_of_markFailed haction
  cases hterminated : n.isTerminated with
  | true => exact observe_of_terminated hready hterminated
  | false =>
    cases hkept : t.notReadySince.get? (nameOf n) with
    | none =>
      rw [observe_of_new hready hterminated hkept] at haction
      cases haction
    | some since =>
      rw [observe_of_waiting hready hterminated hkept] at haction
      have hlong : t.threshold < now - since := by
        by_contra hshort
        rw [if_neg hshort] at haction
        cases haction
      rw [observe_of_waiting hready hterminated (hsince.trans hkept), hthreshold]
      exact if_pos (by omega)

lemma threshold_visited (t : NodeTracker) (n : Node) (now : Nat) (ok : Bool) :
    (t.visited n now ok).threshold = t.threshold := by
  have hobserved : (t.observe n now).1.threshold = t.threshold :=
    threshold_after t (.observed n now)
  unfold visited
  split
  · exact hobserved
  · split <;> exact hobserved
  · split <;> exact hobserved

/-- What a tracker is told about one node leaves the time that is kept for another. -/
lemma get?_after_of_ne {e : Entry} (h : e.name ≠ name) :
    (t.after e).notReadySince.get? name = t.notReadySince.get? name := by
  have hgoes : ¬ e.EndsWait name := fun hends => h hends.name_eq
  have hwaits : ∀ since, ¬ e.Waits name since := fun since hwaits => h hwaits.name_eq
  refine Option.ext fun since => ?_
  simp only [get?_after_eq_some_iff, hgoes, hwaits, and_false, or_false, not_false_eq_true,
    true_and]

/-- A visit to one node leaves what is known about the others. -/
lemma visited_of_ne (h : nameOf n ≠ name) (t : NodeTracker) (now : Nat) (ok : Bool) :
    (t.visited n now ok).isMarkedDown name = t.isMarkedDown name ∧
      (t.visited n now ok).notReadySince.get? name = t.notReadySince.get? name := by
  constructor
  · rw [Bool.eq_iff_iff, isMarkedDown_visited_iff]
    simp only [h, false_and, and_false, false_or, not_false_eq_true, true_and]
  · have hobserved : (t.observe n now).1.notReadySince.get? name = t.notReadySince.get? name :=
      get?_after_of_ne (e := .observed n now) h
    have hmarked : ((t.observe n now).1.marked (nameOf n)).notReadySince.get? name =
        t.notReadySince.get? name :=
      (get?_after_of_ne (e := .marked (nameOf n)) h).trans hobserved
    unfold visited
    split
    · exact hobserved
    · split
      · exact hmarked
      · exact hobserved
    · split <;> exact hobserved

/-- A mark stays while the node is not found ready. -/
lemma isMarkedDown_visited_of_not_ready (hmarked : t.isMarkedDown name = true)
    (hready : nameOf n = name → n.isReady = false) :
    (t.visited n now ok).isMarkedDown name = true := by
  refine isMarkedDown_visited_iff.mpr (Or.inr ⟨?_, hmarked⟩)
  rintro ⟨-, hname, haction⟩
  have hwas := (ready_of_notifyRecovered haction).1
  rw [hready hname] at hwas
  cases hwas

end NodeTracker

end StorageHealth
