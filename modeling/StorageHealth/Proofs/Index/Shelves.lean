import Mathlib.Logic.Function.Basic
import StorageHealth.Table

/-!
# Shelves

An index is most easily understood as one flat collection, but it is kept under its keys: every key
has a shelf with a list on it.  A shelf is set up when something is put on it, and it is taken down
as soon as nothing is left there, so that a key is in use exactly when its shelf is there.

`Shelves.Holds` compares the two views.  Shelves hold what a function `v` says when the shelf of
every key `k` carries the list `v k`, and there is none where `v k` is empty.  Both ways of changing
a shelf change the function at one key (`Holds.shelve`, `Holds.unshelve`), and `Table.under` is the
function that a flat table with two-part keys comes down to.
-/

namespace StorageHealth

/-- Lists on shelves, one shelf for each key. -/
abbrev Shelves (κ ε : Type) := Table κ (List ε)

namespace Shelves

variable {κ ε : Type} [DecidableEq κ]

/-- Changes the list on a shelf, which is set up if it is not there. -/
def shelve (t : Shelves κ ε) (k : κ) (f : List ε → List ε) : Shelves κ ε :=
  t.insert k (f ((t.get? k).getD []))

/-- Changes the list on a shelf if it is there, and takes the shelf down if nothing is left. -/
def unshelve (t : Shelves κ ε) (k : κ) (f : List ε → List ε) : Shelves κ ε :=
  match t.get? k with
  | none => t
  | some l => if f l = [] then t.erase k else t.insert k (f l)

/-- The shelves hold what a function says, and there are no others. -/
def Holds (t : Shelves κ ε) (v : κ → List ε) : Prop :=
  ∀ k, t.get? k = if v k = [] then none else some (v k)

variable {t : Shelves κ ε} {v : κ → List ε} {k : κ} {f : List ε → List ε}

lemma holds_empty : Holds (Table.empty : Shelves κ ε) fun _ => [] := fun _ => rfl

/-- An absent shelf counts as an empty list. -/
lemma Holds.getD_eq (h : Holds t v) (k : κ) : (t.get? k).getD [] = v k := by
  rw [h k]
  split
  · rename_i hk
    rw [hk, Option.getD_none]
  · rfl

/-- No shelf is empty. -/
lemma Holds.ne_nil (h : Holds t v) {l : List ε} (hl : t.get? k = some l) : l ≠ [] := by
  rw [h k] at hl
  split at hl
  · cases hl
  · rename_i hk
    cases hl
    exact hk

lemma Holds.contains_iff (h : Holds t v) : t.contains k = true ↔ v k ≠ [] := by
  rw [Table.contains, h k]
  split <;> simp [*]

/-- Shelving something changes what is held under its key. -/
lemma Holds.shelve (h : Holds t v) (hf : f (v k) ≠ []) :
    Holds (Shelves.shelve t k f) (Function.update v k (f (v k))) := by
  intro k'
  rw [Shelves.shelve, h.getD_eq, Table.get?_insert]
  by_cases hk : k = k'
  · subst hk
    rw [if_pos rfl, Function.update_self, if_neg hf]
  · rw [if_neg hk, Function.update_of_ne (Ne.symm hk), h k']

/-- Unshelving something changes what is held under its key. -/
lemma Holds.unshelve (h : Holds t v) (hf : f [] = []) :
    Holds (Shelves.unshelve t k f) (Function.update v k (f (v k))) := by
  intro k'
  unfold Shelves.unshelve
  rw [h k]
  by_cases hk : k = k'
  · subst hk
    rw [Function.update_self]
    by_cases hv : v k = []
    · simp [hv, hf, h k]
    · by_cases hleft : f (v k) = []
      · simp [hv, hleft]
      · simp [hv, hleft]
  · rw [Function.update_of_ne (Ne.symm hk)]
    by_cases hv : v k = []
    · simp [hv, h k']
    · by_cases hleft : f (v k) = []
      · simp [hv, hleft, Table.get?_erase, hk, h k']
      · simp [hv, hleft, Table.get?_insert, hk, h k']

end Shelves

/-! ## A flat table, key by key -/

namespace Table

variable {κ σ β : Type} [DecidableEq κ] [DecidableEq σ]

/-- What a flat table has under the first part of its keys. -/
def under (t : Table (κ × σ) β) (k : κ) : List (σ × β) :=
  (t.entries.filter (fun e => e.1.1 = k)).map fun e => (e.1.2, e.2)

/-- Writing a pair writes it under its key. -/
lemma under_insert (t : Table (κ × σ) β) (k : κ) (s : σ) (b : β) :
    (t.insert (k, s) b).under = Function.update t.under k (put s b (t.under k)) := by
  funext k'
  rw [Function.update_apply]
  unfold under Table.insert
  induction t.entries with
  | nil =>
    by_cases hk : k = k'
    · simp [put, hk]
    · simp [put, hk, Ne.symm hk]
  | cons e rest ih =>
    obtain ⟨⟨k₁, s₁⟩, b₁⟩ := e
    by_cases hk : k' = k
    · subst hk
      rw [if_pos rfl] at ih ⊢
      by_cases hk₁ : k₁ = k'
      · by_cases hs : s₁ = s <;> simp [put, hk₁, hs, ih]
      · simp [put, hk₁, ih]
    · rw [if_neg hk] at ih ⊢
      by_cases hk₁ : k₁ = k'
      · subst hk₁
        simp [put, hk, ih]
      · by_cases hsame : k₁ = k ∧ s₁ = s
        · simp [put, hsame, Ne.symm hk]
        · simp [put, hsame, hk₁, ih]

/-- Erasing a pair erases it under its key. -/
lemma under_erase (t : Table (κ × σ) β) (k : κ) (s : σ) :
    (t.erase (k, s)).under =
      Function.update t.under k ((t.under k).filter fun e => e.1 ≠ s) := by
  funext k'
  rw [Function.update_apply]
  unfold under Table.erase
  by_cases hk : k' = k
  · subst hk
    rw [if_pos rfl, List.filter_map, List.filter_filter, List.filter_filter]
    refine congrArg _ (List.filter_congr fun e _ => ?_)
    by_cases hk₁ : e.1.1 = k' <;> simp [Prod.ext_iff, hk₁]
  · rw [if_neg hk, List.filter_filter]
    refine congrArg _ (List.filter_congr fun e _ => ?_)
    by_cases hk₁ : e.1.1 = k' <;> simp [Prod.ext_iff, hk₁, hk]

end Table

end StorageHealth
