/-!
# Paths

Whatever goes on in steps goes along a `Path`, which is labelled with what happens in each step.
-/

namespace StorageHealth

/-- Steps one after the other, with what happens in each of them. -/
inductive Path {σ α : Type} (step : σ → α → σ → Prop) : σ → List α → σ → Prop where
  | nothing (s : σ) : Path step s [] s
  | step {s t s' : σ} {a : α} {as : List α} (first : step s a t) (rest : Path step t as s') :
      Path step s (a :: as) s'

namespace Path

variable {σ α : Type} {step : σ → α → σ → Prop} {s s' : σ} {as bs : List α}

theorem cons_iff {a : α} :
    Path step s (a :: as) s' ↔ ∃ t, step s a t ∧ Path step t as s' := by
  constructor
  · rintro (_ | ⟨first, rest⟩)
    exact ⟨_, first, rest⟩
  · rintro ⟨t, first, rest⟩
    exact Path.step first rest

theorem append_iff :
    Path step s (as ++ bs) s' ↔ ∃ t, Path step s as t ∧ Path step t bs s' := by
  induction as generalizing s with
  | nil =>
    constructor
    · exact fun h => ⟨s, nothing s, h⟩
    · rintro ⟨t, hnothing, h⟩
      cases hnothing
      exact h
  | cons a as ih =>
    constructor
    · intro h
      obtain ⟨u, first, rest⟩ := cons_iff.mp h
      obtain ⟨t, has, hbs⟩ := ih.mp rest
      exact ⟨t, Path.step first has, hbs⟩
    · rintro ⟨t, hcons, hbs⟩
      obtain ⟨u, first, has⟩ := cons_iff.mp hcons
      exact Path.step first (ih.mpr ⟨t, has, hbs⟩)

theorem concat_iff {a : α} :
    Path step s (as ++ [a]) s' ↔ ∃ t, Path step s as t ∧ step t a s' := by
  rw [append_iff]
  constructor
  · rintro ⟨t, has, hlast⟩
    obtain ⟨u, hstep, hnothing⟩ := cons_iff.mp hlast
    cases hnothing
    exact ⟨t, has, hstep⟩
  · rintro ⟨t, has, hstep⟩
    exact ⟨t, has, Path.step hstep (nothing s')⟩

theorem append {t : σ} (h : Path step s as t) (h' : Path step t bs s') :
    Path step s (as ++ bs) s' :=
  append_iff.mpr ⟨t, h, h'⟩

theorem single {a : α} (h : step s a s') : Path step s [a] s' := Path.step h (nothing s')

/-- What every step keeps is kept along a path. -/
theorem keeps {P : σ → Prop} (h : Path step s as s')
    (hstep : ∀ s, ∀ a ∈ as, ∀ t, step s a t → P s → P t) (hs : P s) : P s' := by
  induction h with
  | nothing s => exact hs
  | step first rest ih =>
    have ht := hstep _ _ List.mem_cons_self _ first hs
    exact ih (fun s a ha => hstep s a (List.mem_cons_of_mem _ ha)) ht

end Path

end StorageHealth
