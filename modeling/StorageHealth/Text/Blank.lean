/-!
# Blank characters

The white space of Unicode (property `White_Space`), used where text is trimmed and where blanks
may stand between the parts of a duration.  `isBlank_of_isWhitespace` says that every ASCII white
space character of the core library is blank; the examples fix how many blanks there are.
-/

namespace StorageHealth

namespace Text

/-- The ranges of code points that are white space, each from its first to its last member. -/
def blankRanges : List (Nat × Nat) :=
  [(0x09, 0x0d), (0x20, 0x20), (0x85, 0x85), (0xa0, 0xa0), (0x1680, 0x1680), (0x2000, 0x200a),
    (0x2028, 0x2029), (0x202f, 0x202f), (0x205f, 0x205f), (0x3000, 0x3000)]

/-- Whether a character is white space. -/
def isBlank (c : Char) : Bool :=
  blankRanges.any (fun r => decide (r.1 ≤ c.toNat) && decide (c.toNat ≤ r.2))

/-- Whether a text holds white space only. -/
def allBlank (s : String) : Bool := s.toList.all isBlank

/-- There are twenty-five blanks. -/
example : blankRanges.foldl (fun n r => n + (r.2 - r.1 + 1)) 0 = 25 := by decide

example : isBlank ' ' = true ∧ isBlank '\t' = true ∧ isBlank 'x' = false := by decide

/-- What the core library takes for white space is blank. -/
theorem isBlank_of_isWhitespace {c : Char} (h : c.isWhitespace) : isBlank c := by
  simp only [Char.isWhitespace, Bool.or_eq_true, decide_eq_true_eq] at h
  rcases h with ((rfl | rfl) | rfl) | rfl <;> decide

end Text

end StorageHealth
