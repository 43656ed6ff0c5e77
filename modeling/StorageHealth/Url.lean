/-!
# The syntax of URLs

What follows the scheme of a URL is an authority, a path and perhaps a query: an authority of
permitted characters with balanced brackets, at most one colon before a number and nothing
percent-encoded outside user and address, then a path and a query without blanks, controls and angle
brackets.  What follows a `#` does not count and may be anything.

`isWellFormed` judges what follows a scheme, `isPathAndQuery` the part after the authority, and
`path` is what a server is asked for.
-/

namespace StorageHealth

namespace Url

/-! ### Authorities -/

/-- Whether a character may stand in an authority. -/
def isAuthorityChar (c : Char) : Bool :=
  c.isAlphanum || "!$&'()*+,-.:;=@[]_~".toList.contains c

/-- What is known of an authority after some of its characters: the colons that may lead to
a number, the brackets seen, whether something was percent-encoded, and whether the last character
ended a user. -/
structure Scan where
  colons : Nat
  opened : Bool
  closed : Bool
  percent : Bool
  afterUser : Bool

/-- The next character of an authority, or nothing if it must not stand there. -/
def Scan.next (s : Scan) (c : Char) : Option Scan :=
  let s := { s with afterUser := false }
  if c = ':' then if 8 ≤ s.colons then none else some { s with colons := s.colons + 1 }
  else if c = '[' then if s.percent || s.opened then none else some { s with opened := true }
  else if c = ']' then
    if !s.opened || s.closed then none
    else some { s with closed := true, colons := 0, percent := false }
  else if c = '@' then some { s with afterUser := true, colons := 0, percent := false }
  else if c = '%' then some { s with percent := true }
  else if isAuthorityChar c then some s
  else none

/-- Whether an authority may end here. -/
def Scan.complete (s : Scan) : Bool :=
  s.opened == s.closed && decide (s.colons ≤ 1) && !s.afterUser && !s.percent

/-- Whether a text is an authority. -/
def isAuthority (a : List Char) : Bool :=
  !a.isEmpty && ((a.foldlM Scan.next ⟨0, false, false, false, false⟩).any Scan.complete)

/-! ### Paths and queries -/

/-- Whether a character may stand in a path. -/
def isPathChar (c : Char) : Bool :=
  0x21 ≤ c.toNat && c.toNat ≠ 0x7f && !"#<>?`".toList.contains c

/-- Whether a character may stand in a query. -/
def isQueryChar (c : Char) : Bool :=
  0x21 ≤ c.toNat && c.toNat ≠ 0x7f && !"\"#<>".toList.contains c

/-- What stands before a `#`. -/
def withoutFragment (p : List Char) : List Char := p.takeWhile (· != '#')

/-- The path of a text that may go on with a query or a `#`. -/
def path (p : List Char) : List Char := (withoutFragment p).takeWhile (· != '?')

/-- The query of such a text, with the `?` in front of it. -/
def query (p : List Char) : List Char := (withoutFragment p).dropWhile (· != '?')

/-- Whether a text is a path, with or without a query. -/
def isPathAndQuery (p : List Char) : Bool :=
  (path p).all isPathChar && ((query p).drop 1).all isQueryChar

/-! ### Whole URLs -/

/-- Whether a character ends the authority. -/
def endsAuthority (c : Char) : Bool := c == '/' || c == '?' || c == '#'

/-- Whether what follows the scheme of a URL is well formed. -/
def isWellFormed (rest : List Char) : Bool :=
  isAuthority (rest.takeWhile (fun c => !endsAuthority c)) &&
    isPathAndQuery (rest.dropWhile (fun c => !endsAuthority c))

/-- The longest URL in bytes. -/
def maxLength : Nat := 65534

/-! ### Laws -/

/-- A text with nothing but path characters in it is its own path. -/
theorem path_eq_self (p : List Char) (h : ∀ c ∈ p, isPathChar c = true) : path p = p := by
  induction p with
  | nil => rfl
  | cons c rest ih =>
    have hc := h c (by simp)
    have hash : c ≠ '#' := by rintro rfl; exact absurd hc (by decide)
    have mark : c ≠ '?' := by rintro rfl; exact absurd hc (by decide)
    have hr := ih (fun d hd => h d (by simp [hd]))
    simp only [path, withoutFragment] at hr
    simp [path, withoutFragment, hash, mark, hr]

/-- A path and a query are all there is before a `#`. -/
theorem path_append_query (p : List Char) : path p ++ query p = withoutFragment p :=
  List.takeWhile_append_dropWhile

end Url

end StorageHealth
