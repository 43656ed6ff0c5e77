/-!
# Spans of time

A span is a whole number of nanoseconds.  `Span.shown` writes it with the largest of the units
second, millisecond, microsecond and nanosecond that fits into it, and with no more decimals than
it needs: `15s`, `1.5s`, `250ms`, `0ns`.
-/

namespace StorageHealth

/-- A length of time. -/
structure Span where
  nanos : Nat
  deriving DecidableEq, Repr

namespace Span

instance : Inhabited Span := ⟨⟨0⟩⟩

/-- The number of nanoseconds in a second. -/
def nanosPerSecond : Nat := 1000000000

/-- A span of whole seconds. -/
def ofSeconds (n : Nat) : Span := ⟨n * nanosPerSecond⟩

/-- A span of whole milliseconds. -/
def ofMillis (n : Nat) : Span := ⟨n * 1000000⟩

/-- The whole seconds of a span. -/
def seconds (s : Span) : Nat := s.nanos / nanosPerSecond

/-- What a span has beyond its whole seconds, in nanoseconds. -/
def subsecond (s : Span) : Nat := s.nanos % nanosPerSecond

/-- Whole seconds and the rest make up the span. -/
theorem seconds_subsecond (s : Span) : s.seconds * nanosPerSecond + s.subsecond = s.nanos :=
  Nat.div_add_mod' s.nanos nanosPerSecond

/-! ### Written form -/

/-- The decimal digit of a number below ten. -/
def digit (n : Nat) : Char := Char.ofNat ('0'.toNat + n % 10)

/-- The powers of ten. -/
def powerOfTen : Nat → Nat
  | 0 => 1
  | width + 1 => 10 * powerOfTen width

/-- The last `width` decimal digits of `n`. -/
def digits : Nat → Nat → List Char
  | 0, _ => []
  | width + 1, n => digit (n / powerOfTen width) :: digits width n

/-- A fraction of `powerOfTen width` as decimals after a point; none when it is zero. -/
def decimals (width n : Nat) : List Char :=
  match ((digits width n).reverse.dropWhile (· = '0')).reverse with
  | [] => []
  | ds => '.' :: ds

/-- `n` in units of `powerOfTen width`. -/
def inUnits (width n : Nat) (unit : String) : String :=
  toString (n / powerOfTen width) ++ String.ofList (decimals width (n % powerOfTen width)) ++ unit

/-- The written form of a span. -/
def shown (s : Span) : String :=
  if 1000000000 ≤ s.nanos then inUnits 9 s.nanos "s"
  else if 1000000 ≤ s.nanos then inUnits 6 s.nanos "ms"
  else if 1000 ≤ s.nanos then inUnits 3 s.nanos "µs"
  else inUnits 0 s.nanos "ns"

@[simp] theorem length_digits (width n : Nat) : (digits width n).length = width := by
  induction width with
  | zero => rfl
  | succ w ih => simp [digits, ih]

end Span

end StorageHealth
