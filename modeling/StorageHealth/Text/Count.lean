/-!
# Counts

Small unsigned numbers as they are written on a command line: decimal digits with an optional sign.
A minus sign is allowed in front of zero only, because nothing below zero fits.
-/

namespace StorageHealth

namespace Text

/-- The largest count. -/
def maxCount : Nat := 65535

/-- The value of a non-empty sequence of ASCII digits. -/
def digitsValue? : List Char → Option Nat
  | [] => none
  | cs =>
    if cs.all Char.isDigit then some (cs.foldl (fun n c => n * 10 + (c.toNat - '0'.toNat)) 0)
    else none

/-- Reads a count. -/
def count? (s : String) : Option Nat :=
  match s.toList with
  | '-' :: rest => (digitsValue? rest).filter (fun n => n = 0)
  | '+' :: rest => (digitsValue? rest).filter (fun n => n ≤ maxCount)
  | rest => (digitsValue? rest).filter (fun n => n ≤ maxCount)

/-- Every count that is read is within its bounds. -/
theorem count?_le {s : String} {n : Nat} (h : count? s = some n) : n ≤ maxCount := by
  unfold count? at h
  split at h
  · have := (Option.filter_eq_some_iff.1 h).2
    simp only [decide_eq_true_eq] at this
    omega
  · simpa using (Option.filter_eq_some_iff.1 h).2
  · simpa using (Option.filter_eq_some_iff.1 h).2

end Text

end StorageHealth
