import Mathlib.Data.List.Induction
import Mathlib.Tactic.Common

/-!
# What stands in a history

Much of what a system remembers is of one form: something happened, and nothing that happened later
has revoked it.  `Standing` is this form for any kind of happenings; `standing_concat_iff` says how
the last one changes what stands, so what is remembered can be compared with it step by step.
-/

namespace StorageHealth

/-- Something happened that nothing later has revoked.  Whether it counts may depend on what
happened before. -/
def Standing {α : Type} (tells : List α → α → Prop) (revokes : α → Prop) (hs : List α) : Prop :=
  ∃ before h later, hs = before ++ h :: later ∧ tells before h ∧ ∀ x ∈ later, ¬ revokes x

section Standing

variable {α : Type} {tells : List α → α → Prop} {revokes : α → Prop} {hs : List α}

lemma not_standing_nil : ¬ Standing tells revokes [] := by
  rintro ⟨before, h, later, hsplit, -⟩
  have hlength := congrArg List.length hsplit
  simp at hlength

/-- The last happening either tells it, or leaves what stood before. -/
lemma standing_concat_iff {h : α} :
    Standing tells revokes (hs ++ [h]) ↔ tells hs h ∨ ¬ revokes h ∧ Standing tells revokes hs := by
  constructor
  · rintro ⟨before, x, later, hsplit, hx, hlater⟩
    rcases List.eq_nil_or_concat later with rfl | ⟨earlier, last, rfl⟩
    · obtain ⟨rfl, rfl⟩ := List.append_singleton_inj.mp hsplit
      exact Or.inl hx
    · rw [List.concat_eq_append, ← List.cons_append, ← List.append_assoc] at hsplit
      obtain ⟨rfl, rfl⟩ := List.append_singleton_inj.mp hsplit
      rw [List.concat_eq_append] at hlater
      have hkeeps : ¬ revokes h := hlater h (List.mem_append_right _ List.mem_cons_self)
      exact Or.inr ⟨hkeeps, before, x, earlier, rfl, hx,
        fun y hy => hlater y (List.mem_append_left _ hy)⟩
  · rintro (hh | ⟨hkeeps, before, x, later, rfl, hx, hlater⟩)
    · exact ⟨hs, h, [], rfl, hh, fun x hx => absurd hx List.not_mem_nil⟩
    · refine ⟨before, x, later ++ [h], by rw [List.append_assoc, List.cons_append], hx, ?_⟩
      intro y hy
      rcases List.mem_append.mp hy with hy | hy
      · exact hlater y hy
      · rwa [List.mem_singleton.mp hy]

/-- Where every happening tells something or leaves it unless it revokes it, what holds in the end
is what stands. -/
lemma foldl_iff_standing {σ : Type} {step : σ → α → σ} {start : σ} {P : σ → Prop}
    (hstart : ¬ P start) (hstep : ∀ hs h, P (step (hs.foldl step start) h) ↔
      tells hs h ∨ ¬ revokes h ∧ P (hs.foldl step start)) (hs : List α) :
    P (hs.foldl step start) ↔ Standing tells revokes hs := by
  induction hs using List.reverseRecOn with
  | nil => exact iff_of_false hstart not_standing_nil
  | append_singleton hs h ih =>
    rw [List.foldl_append, List.foldl_cons, List.foldl_nil, hstep, ih, standing_concat_iff]

end Standing

end StorageHealth
