import StorageHealth.Span
import StorageHealth.Text.Blank

/-!
# Reading spans

A written span is a sequence of numbers with units, `2m 30s` or `1h30m`; a number may have a
decimal fraction, blanks may stand between all parts, and a lone `0` needs no unit.

All arithmetic is done in 64-bit words: a number, a scaled number or a sum that does not fit is
refused (`fits`), and so is a fraction that does not come out even (`share?`), such as `0.1M`.
`Span.read?` gives the span or nothing.
-/

namespace StorageHealth

namespace Span

/-! ### Units -/

/-- The units of a written span. -/
inductive TimeUnit where
  | nanosecond
  | microsecond
  | millisecond
  | second
  | minute
  | hour
  | day
  | week
  | month
  | year
  deriving DecidableEq, Repr

namespace TimeUnit

/-- The words for each unit.  They are case sensitive: `m` is a minute and `M` a month. -/
def words : TimeUnit → List String
  | nanosecond => ["nanos", "nsec", "ns"]
  | microsecond => ["usec", "us", "µs"]
  | millisecond => ["millis", "msec", "ms"]
  | second => ["seconds", "second", "secs", "sec", "s"]
  | minute => ["minutes", "minute", "mins", "min", "m"]
  | hour => ["hours", "hour", "hrs", "hr", "h"]
  | day => ["days", "day", "d"]
  | week => ["weeks", "week", "wks", "wk", "w"]
  | month => ["months", "month", "M"]
  | year => ["years", "year", "yrs", "yr", "y"]

/-- All units. -/
def all : List TimeUnit :=
  [nanosecond, microsecond, millisecond, second, minute, hour, day, week, month, year]

/-- The unit that a word stands for. -/
def ofWord? (s : String) : Option TimeUnit := all.find? (fun u => s ∈ u.words)

/-- The length of a unit below a second, in nanoseconds. -/
def nanos? : TimeUnit → Option Nat
  | nanosecond => some 1
  | microsecond => some 1000
  | millisecond => some 1000000
  | _ => none

/-- The length of a unit in seconds; a month has 30.44 days and a year 365.25. -/
def seconds : TimeUnit → Nat
  | nanosecond | microsecond | millisecond => 0
  | second => 1
  | minute => 60
  | hour => 3600
  | day => 86400
  | week => 604800
  | month => 2630016
  | year => 31557600

end TimeUnit

/-! ### Checked arithmetic -/

/-- The first number that does not fit into 64 bits. -/
def wordLimit : Nat := 18446744073709551616

/-- A number that fits into 64 bits, or nothing. -/
def fits (n : Nat) : Option Nat := if n < wordLimit then some n else none

/-- `out` with seconds and nanoseconds added, as long as every intermediate sum fits. -/
def plus? (out : Span) (secs nanos : Nat) : Option Span := do
  let sub ← fits (out.subsecond + nanos)
  let extra ← fits (secs + sub / nanosPerSecond)
  let total ← fits (out.seconds + extra)
  return ⟨total * nanosPerSecond + sub % nanosPerSecond⟩

/-- `out` with `n` whole units added. -/
def plusWhole? (out : Span) (u : TimeUnit) (n : Nat) : Option Span := do
  match u.nanos? with
  | some k => out.plus? 0 (← fits (n * k))
  | none => out.plus? (← fits (n * u.seconds)) 0

/-- `num * scale / den`, if that is a whole number. -/
def share? (num scale den : Nat) : Option Nat := do
  let scaled ← fits (num * scale)
  if scaled % den = 0 then some (scaled / den) else none

/-- A share is never rounded. -/
theorem mul_of_share? {num scale den n : Nat} (h : share? num scale den = some n) :
    n * den = num * scale := by
  simp only [share?, fits, Option.bind_eq_bind] at h
  split at h
  · simp only [Option.bind_some] at h
    split at h
    · rename_i even
      rw [← Option.some.inj h]
      exact Nat.div_mul_cancel (Nat.dvd_of_mod_eq_zero even)
    · simp at h
  · simp at h

/-- `out` with the fraction `num / den` of a unit added.  The fraction must come out even: in
nanoseconds up to the minute, in whole seconds from the hour on.  A nanosecond has no parts, not
even none of them. -/
def plusFraction? (out : Span) (u : TimeUnit) (num den : Nat) : Option Span := do
  match u with
  | .nanosecond => none
  | .microsecond => out.plus? 0 (← share? num 1000 den)
  | .millisecond => out.plus? 0 (← share? num 1000000 den)
  | .second | .minute => out.plus? 0 (← share? num (u.seconds * nanosPerSecond) den)
  | .hour | .day | .week | .month | .year => out.plus? (← share? num u.seconds den) 0

/-! ### Numbers and units -/

/-- Whether a character is a decimal digit. -/
def isDigit (c : Char) : Bool := decide ('0' ≤ c) && decide (c ≤ '9')

/-- Whether a character may occur in the word of a unit. -/
def isUnitChar (c : Char) : Bool :=
  (decide ('a' ≤ c) && decide (c ≤ 'z')) || (decide ('A' ≤ c) && decide (c ≤ 'Z')) || c == 'µ'

/-- The value of a decimal digit. -/
def digitValue (c : Char) : Nat := c.toNat - '0'.toNat

/-- Reads the rest of a whole number that starts with `n`.  Blanks between digits do not count. -/
def readWhole (n : Nat) : List Char → Option (Nat × List Char)
  | [] => some (n, [])
  | c :: rest =>
    if isDigit c then (fits (n * 10 + digitValue c)).bind (fun m => readWhole m rest)
    else if Text.isBlank c then readWhole n rest
    else if isUnitChar c || c == '.' then some (n, c :: rest)
    else none

/-- Reads decimals up to the unit: the numerator and the denominator of the fraction. -/
def readFraction (num den : Nat) : List Char → Option (Nat × Nat × List Char)
  | [] => some (num, den, [])
  | c :: rest =>
    if isDigit c then do
      let den ← fits (den * 10)
      let num ← fits (num * 10 + digitValue c)
      readFraction num den rest
    else if Text.isBlank c then readFraction num den rest
    else if isUnitChar c then some (num, den, c :: rest)
    else none

/-- The first digit of the next number: `none` for text that cannot start a number,
`some none` when only blanks are left. -/
def nextNumber : List Char → Option (Option (Nat × List Char))
  | [] => some none
  | c :: rest =>
    if isDigit c then some (some (digitValue c, rest))
    else if Text.isBlank c then nextNumber rest
    else none

/-- A point and decimals, if they follow: the fraction, or `(0, 1)` without one. -/
def readDecimals : List Char → Option (Nat × Nat × List Char)
  | '.' :: rest => do
    let (num, den, rest) ← readFraction 0 1 rest
    if den = 1 then none else return (num, den, rest)
  | rest => some (0, 1, rest)

/-- Reads the numbers with units in `rest`, the first of which starts with the digit `n`, and adds
them to `out`.  Each of them takes at least one character, so the length of the text bounds their
number. -/
def readParts : Nat → Nat → List Char → Span → Option Span
  | 0, _, _, _ => none
  | fuel + 1, n, rest, out => do
    let (n, rest) ← readWhole n rest
    let (num, den, rest) ← readDecimals rest
    let u ← TimeUnit.ofWord? (String.ofList (rest.takeWhile isUnitChar))
    let out ← out.plusWhole? u n
    let out ← if den = 1 then some out else out.plusFraction? u num den
    let rest := rest.dropWhile isUnitChar
    match ← nextNumber rest with
    | none => return out
    | some (n, rest) => readParts fuel n rest out

/-- Reads a written span. -/
def read? (s : String) : Option Span :=
  if s = "0" then some ⟨0⟩
  else
    match nextNumber s.toList with
    | some (some (n, rest)) => readParts (s.length + 1) n rest ⟨0⟩
    | _ => none

end Span

end StorageHealth
