import Mathlib.Data.List.Basic

/-!
# Texts that are joined

Names are put together from several parts with a character in between.  As long as the character
does not occur in the parts, they can be told apart again: the first place where it stands is the
place where the text was joined (`append_cons_inj`).
-/

namespace StorageHealth

/-- Lists that are cut at the first place where `c` stands are cut in one way only. -/
lemma append_cons_inj {c : Char} {a b x y : List Char} (ha : c ∉ a) (hb : c ∉ b)
    (h : a ++ c :: x = b ++ c :: y) : a = b ∧ x = y := by
  rcases List.append_eq_append_iff.mp h with ⟨d, rfl, hd⟩ | ⟨d, rfl, hd⟩
  · cases d with
    | nil => exact ⟨by simp, by simpa using hd⟩
    | cons e d =>
      obtain ⟨rfl, -⟩ := List.cons.inj hd
      exact absurd (by simp) hb
  · cases d with
    | nil => exact ⟨by simp, by simpa using hd.symm⟩
    | cons e d =>
      obtain ⟨rfl, -⟩ := List.cons.inj hd
      exact absurd (by simp) ha

/-- Two texts joined by a character that does not occur in the first one determine both. -/
lemma join_inj {sep : String} {c : Char} (hsep : sep.toList = [c]) {a b x y : String}
    (ha : c ∉ a.toList) (hb : c ∉ b.toList) (h : a ++ (sep ++ x) = b ++ (sep ++ y)) :
    a = b ∧ x = y := by
  have hlist := congrArg String.toList h
  simp only [String.toList_append, hsep, List.singleton_append] at hlist
  obtain ⟨hab, hxy⟩ := append_cons_inj ha hb hlist
  exact ⟨String.toList_injective hab, String.toList_injective hxy⟩

end StorageHealth
