import Mathlib.Data.ENat.Lattice
import StorageHealth.Proofs.Node.Passes

/-!
# Marking with retries

Marking a node makes passes over its claims until one succeeds or all attempts are used up.  How the
passes go is given by a sequence of them, as long as there might be attempts; `firstSuccess` is the
position of the first one that succeeds, and infinite if there is none.

`ends_mark_iff` says that marking makes the first `passesMade` of such passes, with pauses in
between only, and ends as the last of them does.
-/

namespace StorageHealth

namespace Node

open Deed

/-- A pass that warns the claims on a node: what it does and how it ends. -/
structure Pass (c : Conduct) (node : String) where
  deeds : List Deed
  result : Except NodeError Unit
  ends : (markFailed c node).Ends deeds result

variable {c : Conduct} {node : String} {ps : ℕ → Pass c node}

open Classical in
/-- The position of the first pass that succeeds, counted from one. -/
noncomputable def firstSuccess (ps : ℕ → Pass c node) : ℕ∞ :=
  if h : ∃ n, (ps n).result.isOk = true then ((Nat.find h + 1 : ℕ) : ℕ∞) else ⊤

/-- How many of the passes are made in so many attempts. -/
noncomputable def passesMade (ps : ℕ → Pass c node) (attempts : ℕ) : ℕ :=
  (min (firstSuccess ps) attempts).toNat

/-- What is done in the first passes, with a pause after each but the last. -/
def deedsOf (ps : ℕ → Pass c node) (count : ℕ) : List Deed :=
  List.intercalate [paused c.retryDelay] ((List.range count).map fun i => (ps i).deeds)

/-- How the last one of the first passes ends. -/
def resultOf (ps : ℕ → Pass c node) (count : ℕ) : Except NodeError Unit := (ps (count - 1)).result

/-- A pass in front of others. -/
def Pass.before (p : Pass c node) (ps : ℕ → Pass c node) : ℕ → Pass c node
  | 0 => p
  | n + 1 => ps n

/-- A pass looks and tells, but it does not pause. -/
lemma Pass.not_paused (p : Pass c node) (length : Span) : paused length ∉ p.deeds := by
  have hclosed := closed_forall fun d => d ≠ paused length
  refine fun hmem => always_pass hclosed ?_ ?_ p.deeds p.result p.ends _ hmem rfl
  · rintro m d hd rfl
    cases congrArg Deed.effect (List.mem_singleton.mp hd)
  · rintro a outcome d hd rfl
    exact sent_ne_paused _ (List.mem_singleton.mp hd).symm

/-! ## Counting passes -/

lemma firstSuccess_of_ok (h : (ps 0).result.isOk = true) : firstSuccess ps = 1 := by
  have hex : ∃ n, (ps n).result.isOk = true := ⟨0, h⟩
  rw [firstSuccess, dif_pos hex, (Nat.find_eq_zero hex).mpr h]
  rfl

lemma firstSuccess_of_error (h : (ps 0).result.isOk = false) :
    firstSuccess ps = firstSuccess (fun n => ps (n + 1)) + 1 := by
  by_cases hex : ∃ n, (ps (n + 1)).result.isOk = true
  · have hex' : ∃ n, (ps n).result.isOk = true := hex.imp' _ fun _ hn => hn
    rw [firstSuccess, firstSuccess, dif_pos hex', dif_pos hex,
      Nat.find_comp_succ hex' hex (by simp [h])]
    rfl
  · have hex' : ¬ ∃ n, (ps n).result.isOk = true := by
      rintro ⟨n, hn⟩
      cases n with
      | zero => simp [h] at hn
      | succ n => exact hex ⟨n, hn⟩
    rw [firstSuccess, firstSuccess, dif_neg hex', dif_neg hex]
    rfl

lemma coe_passesMade (ps : ℕ → Pass c node) (attempts : ℕ) :
    (passesMade ps attempts : ℕ∞) = min (firstSuccess ps) attempts :=
  ENat.natCast_toNat (ne_top_of_le_ne_top (ENat.natCast_ne_top attempts) (min_le_right _ _))

lemma one_le_firstSuccess (ps : ℕ → Pass c node) : 1 ≤ firstSuccess ps := by
  cases h : (ps 0).result.isOk with
  | true => rw [firstSuccess_of_ok h]
  | false =>
    rw [firstSuccess_of_error h]
    exact le_add_self

lemma passesMade_one (ps : ℕ → Pass c node) : passesMade ps 1 = 1 := by
  rw [← ENat.natCast_inj, coe_passesMade]
  exact min_eq_right (one_le_firstSuccess ps)

lemma passesMade_of_ok (h : (ps 0).result.isOk = true) (attempts : ℕ) :
    passesMade ps (attempts + 1) = 1 := by
  rw [← ENat.natCast_inj, coe_passesMade, firstSuccess_of_ok h]
  exact min_eq_left (by simp)

lemma passesMade_of_error (h : (ps 0).result.isOk = false) (attempts : ℕ) :
    passesMade ps (attempts + 1) = passesMade (fun n => ps (n + 1)) attempts + 1 := by
  rw [← ENat.natCast_inj, coe_passesMade, firstSuccess_of_error h]
  push_cast
  rw [min_add_add_right, coe_passesMade]

lemma passesMade_pos (ps : ℕ → Pass c node) (attempts : ℕ) : 0 < passesMade ps (attempts + 1) := by
  cases h : (ps 0).result.isOk with
  | true =>
    rw [passesMade_of_ok h]
    exact Nat.one_pos
  | false =>
    rw [passesMade_of_error h]
    exact Nat.succ_pos _

lemma deedsOf_one (ps : ℕ → Pass c node) : deedsOf ps 1 = (ps 0).deeds := by
  simp [deedsOf]

lemma deedsOf_succ (ps : ℕ → Pass c node) {count : ℕ} (h : 0 < count) :
    deedsOf ps (count + 1) =
      (ps 0).deeds ++ paused c.retryDelay :: deedsOf (fun n => ps (n + 1)) count := by
  have hne : (List.range count).map (fun i => (ps (i + 1)).deeds) ≠ [] := by
    simpa using Nat.pos_iff_ne_zero.mp h
  rw [deedsOf, List.range_succ_eq_map, List.map_cons, List.map_map]
  exact (List.intercalate_cons_of_ne_nil hne).trans (List.append_assoc _ _ _)

lemma resultOf_one (ps : ℕ → Pass c node) : resultOf ps 1 = (ps 0).result := rfl

lemma resultOf_succ (ps : ℕ → Pass c node) {count : ℕ} (h : 0 < count) :
    resultOf ps (count + 1) = resultOf (fun n => ps (n + 1)) count := by
  rw [resultOf, resultOf, Nat.add_sub_cancel, Nat.sub_add_cancel h]

/-- The last pass that is made succeeds exactly when the first success comes in time. -/
lemma isOk_resultOf_iff (ps : ℕ → Pass c node) (retries : ℕ) :
    (resultOf ps (passesMade ps (retries + 1))).isOk = true ↔
      firstSuccess ps ≤ (retries + 1 : ℕ) := by
  induction retries generalizing ps with
  | zero =>
    rw [zero_add, passesMade_one, resultOf_one]
    cases h : (ps 0).result.isOk with
    | true => simp [firstSuccess_of_ok h]
    | false =>
      have hlate : (1 : ℕ∞) < firstSuccess ps := by
        rw [firstSuccess_of_error h]
        exact (by decide : (1 : ℕ∞) < 1 + 1).trans_le (add_le_add_left (one_le_firstSuccess _) 1)
      exact iff_of_false Bool.false_ne_true (not_le.mpr (by exact_mod_cast hlate))
  | succ retries ih =>
    cases h : (ps 0).result.isOk with
    | true =>
      rw [passesMade_of_ok h, firstSuccess_of_ok h, resultOf_one]
      exact iff_of_true h (by exact_mod_cast Nat.succ_pos (retries + 1))
    | false =>
      rw [passesMade_of_error h, resultOf_succ ps (passesMade_pos _ retries), ih,
        firstSuccess_of_error h, Nat.cast_succ (retries + 1)]
      exact (ENat.add_le_add_iff_right ENat.one_ne_top).symm

/-! ## Marking -/

lemma ends_mark_iff_marking {ds : List Deed} {r : Except NodeError Unit} :
    (mark c node).Ends ds r ↔ Marking c node (c.markAttempts - 1) ds r := ends_markWithRetries_iff

/-- Marking makes passes until one succeeds or no attempt is left. -/
lemma marking_passesMade (retries : ℕ) (ps : ℕ → Pass c node) :
    Marking c node retries (deedsOf ps (passesMade ps (retries + 1)))
      (resultOf ps (passesMade ps (retries + 1))) := by
  have hpass : Passed c node (failureNotice node) (ps 0).deeds (ps 0).result :=
    ends_pass_iff.mp (ps 0).ends
  induction retries generalizing ps with
  | zero =>
    rw [zero_add, passesMade_one, deedsOf_one, resultOf_one]
    exact Marking.last hpass
  | succ retries ih =>
    cases hr : (ps 0).result with
    | ok _ =>
      rw [passesMade_of_ok (by rw [hr]; rfl), deedsOf_one, resultOf_one, hr]
      rw [hr] at hpass
      exact Marking.succeeded retries hpass
    | error e =>
      have hpos := passesMade_pos (fun n => ps (n + 1)) retries
      rw [passesMade_of_error (by rw [hr]; rfl), deedsOf_succ ps hpos, resultOf_succ ps hpos]
      rw [hr] at hpass
      exact Marking.again hpass (ih _ (ends_pass_iff.mp (ps 1).ends))

/-- However marking went, it was the beginning of some passes. -/
lemma Marking.exists_passes {retries : ℕ} {ds : List Deed} {r : Except NodeError Unit}
    (h : Marking c node retries ds r) :
    ∃ ps : ℕ → Pass c node, ds = deedsOf ps (passesMade ps (retries + 1)) ∧
      r = resultOf ps (passesMade ps (retries + 1)) := by
  induction h with
  | @last ds r pass =>
    refine ⟨fun _ => ⟨ds, r, ends_pass_iff.mpr pass⟩, ?_⟩
    rw [zero_add, passesMade_one, deedsOf_one, resultOf_one]
    exact ⟨rfl, rfl⟩
  | @succeeded retries ds pass =>
    refine ⟨fun _ => ⟨ds, .ok (), ends_pass_iff.mpr pass⟩, ?_⟩
    rw [passesMade_of_ok rfl, deedsOf_one, resultOf_one]
    exact ⟨rfl, rfl⟩
  | @again retries ds e pass es r rest ih =>
    obtain ⟨ps, rfl, rfl⟩ := ih
    have hpos := passesMade_pos ps retries
    have hcount : passesMade (Pass.before ⟨ds, .error e, ends_pass_iff.mpr pass⟩ ps)
        (retries + 1 + 1) = passesMade ps (retries + 1) + 1 := passesMade_of_error rfl _
    refine ⟨Pass.before ⟨ds, .error e, ends_pass_iff.mpr pass⟩ ps, ?_⟩
    rw [hcount, deedsOf_succ _ hpos, resultOf_succ _ hpos]
    exact ⟨rfl, rfl⟩

/-- Marking a node makes passes over its claims: as many as it takes until one succeeds, but not
more than agreed, and at least one. -/
theorem ends_mark_iff {ds : List Deed} {r : Except NodeError Unit} :
    (mark c node).Ends ds r ↔ ∃ ps : ℕ → Pass c node,
      ds = deedsOf ps (passesMade ps (max 1 c.markAttempts)) ∧
      r = resultOf ps (passesMade ps (max 1 c.markAttempts)) := by
  have hattempts : max 1 c.markAttempts = c.markAttempts - 1 + 1 := by omega
  rw [hattempts, ends_mark_iff_marking]
  constructor
  · exact Marking.exists_passes
  · rintro ⟨ps, rfl, rfl⟩
    exact marking_passesMade _ ps

end Node

end StorageHealth
