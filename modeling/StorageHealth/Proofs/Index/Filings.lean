import StorageHealth.Proofs.Index.Mirror
import StorageHealth.Proofs.Process.Standing

/-!
# The last word about a slot

Whatever an index follows, it does two things only: it puts objects into their slots and takes them
out again.  `Filing` is one of the two, and a change is one filing or, when it is an update, two.

Nothing is said here about where the filings come from.  Objects may be taken out that were never
put in, or put in again and again: what a slot holds is decided by the last filing that touches it
(`read_foldl_file_eq_some_iff`).
-/

namespace StorageHealth

/-- An object that is put into its slots, or taken out of them. -/
inductive Filing (α : Type) where
  | put (object : α)
  | take (object : α)

/-- The object of a filing. -/
def Filing.object {α : Type} : Filing α → α
  | .put a => a
  | .take a => a

/-- What a change comes down to: an update takes the old object out and puts the new one in. -/
def Change.filings {α : Type} : Change α → List (Filing α)
  | .added a => [.put a]
  | .updated old new => [.take old, .put new]
  | .deleted a => [.take a]

namespace Mirror

variable {α σ β ι : Type} [DecidableEq σ] (M : Mirror α σ β ι)

/-- Does what a filing says. -/
def file (x : ι) : Filing α → ι
  | .put a => M.insert x a
  | .take a => M.remove x a

lemma follow_eq_foldl_file (x : ι) (c : Change α) : M.follow x c = c.filings.foldl M.file x := by
  cases c <;> rfl

/-- To follow changes is to do what they come down to. -/
lemma foldl_follow_eq (x : ι) (changes : List (Change α)) :
    changes.foldl M.follow x = (changes.flatMap Change.filings).foldl M.file x := by
  rw [List.foldl_flatMap]
  exact congrArg (fun f => changes.foldl f x) (funext₂ M.follow_eq_foldl_file)

/-- A filing of an object that has the slot. -/
def Touches (s : σ) (f : Filing α) : Prop := s ∈ M.slots f.object

/-- A filing that puts something into the slot. -/
def Fills (s : σ) (b : β) (f : Filing α) : Prop :=
  ∃ a, f = .put a ∧ s ∈ M.slots a ∧ M.content a = b

/-- A filing fills a slot, or leaves it unless it touches it. -/
lemma read_file_eq_some_iff {x : ι} {f : Filing α} {s : σ} {b : β} :
    M.read (M.file x f) s = some b ↔ M.Fills s b f ∨ ¬ M.Touches s f ∧ M.read x s = some b := by
  cases f with
  | put a =>
    rw [file, M.read_insert]
    by_cases hs : s ∈ M.slots a <;> simp [Fills, Touches, Filing.object, hs]
  | take a =>
    rw [file, M.read_remove]
    by_cases hs : s ∈ M.slots a <;> simp [Fills, Touches, Filing.object, hs]

/-- A slot that was empty holds what the last filing that touches it has put there. -/
lemma read_foldl_file_eq_some_iff {x : ι} {s : σ} (hx : M.read x s = none) {b : β}
    (filings : List (Filing α)) : M.read (filings.foldl M.file x) s = some b ↔
      Standing (fun _ f => M.Fills s b f) (M.Touches s) filings := by
  have hstart : M.read x s ≠ some b := by
    rw [hx]
    exact (Option.some_ne_none b).symm
  exact foldl_iff_standing (P := fun y => M.read y s = some b) hstart
    (fun _ _ => M.read_file_eq_some_iff) filings

end Mirror

end StorageHealth
