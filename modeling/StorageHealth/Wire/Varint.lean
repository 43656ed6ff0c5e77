/-!
# Variable-length numbers

Numbers of 64 bits are written in groups of seven bits, the lowest group first; every byte but the
last has its high bit set.  A number takes at most ten bytes, so the tenth byte is 0 or 1.

`Varint.read_write` says that reading takes back what was written and leaves the bytes behind it;
a number need not be written in its shortest form to be read.
-/

namespace StorageHealth

namespace Wire

/-- What messages are made of. -/
abbrev Bytes := List UInt8

namespace Varint

/-- Writes `n` in at most `more + 1` bytes. -/
def groups : Nat → Nat → Bytes
  | 0, n => [UInt8.ofNat n]
  | more + 1, n =>
    if n < 128 then [UInt8.ofNat n] else UInt8.ofNat (n % 128 + 128) :: groups more (n / 128)

/-- The first number that does not fit into `more + 1` bytes, the last of which has one bit. -/
def limitFor : Nat → Nat
  | 0 => 2
  | more + 1 => 128 * limitFor more

/-- The first number that does not fit into 64 bits. -/
def limit : Nat := limitFor 9

/-- Writes a number below the limit. -/
def write (n : Nat) : Bytes := groups 9 n

/-- Reads a number of at most `more + 1` bytes, the last of which may only be 0 or 1, and what
follows it. -/
def readUpTo : Nat → Bytes → Option (Nat × Bytes)
  | _, [] => none
  | 0, b :: rest => if b.toNat < 2 then some (b.toNat, rest) else none
  | more + 1, b :: rest =>
    if b.toNat < 128 then some (b.toNat, rest)
    else (readUpTo more rest).map (fun r => (b.toNat - 128 + 128 * r.1, r.2))

/-- Reads a number and what follows it. -/
def read (b : Bytes) : Option (Nat × Bytes) := readUpTo 9 b

/-! ### Reading what was written -/

theorem toNat_ofNat {n : Nat} (h : n < 256) : (UInt8.ofNat n).toNat = n := by
  simp [Nat.mod_eq_of_lt h]

theorem readUpTo_groups (more n : Nat) (h : n < limitFor more) (rest : Bytes) :
    readUpTo more (groups more n ++ rest) = some (n, rest) := by
  induction more generalizing n with
  | zero =>
    have h2 : n < 2 := h
    simp [groups, readUpTo, toNat_ofNat (by omega : n < 256), h2]
  | succ more ih =>
    unfold groups
    split
    · rename_i small
      simp [readUpTo, toNat_ofNat (by omega : n < 256), small]
    · rename_i big
      have hdiv : n / 128 < limitFor more := Nat.div_lt_of_lt_mul h
      have hbyte := toNat_ofNat (by omega : n % 128 + 128 < 256)
      simp only [List.cons_append, readUpTo, hbyte, ih (n / 128) hdiv]
      simp only [show ¬(n % 128 + 128 < 128) by omega, if_false, Option.map_some,
        Option.some.injEq, Prod.mk.injEq, and_true]
      omega

/-- Reading takes back what was written. -/
theorem read_write {n : Nat} (h : n < limit) (rest : Bytes) :
    read (write n ++ rest) = some (n, rest) :=
  readUpTo_groups 9 n h rest

/-- The limit is the number of words of 64 bits. -/
example : limit = 18446744073709551616 := by decide

/-- Reading takes at least one byte. -/
theorem length_lt_of_readUpTo {more n : Nat} {b rest : Bytes}
    (h : readUpTo more b = some (n, rest)) : rest.length < b.length := by
  induction more generalizing b n with
  | zero =>
    cases b with
    | nil => simp [readUpTo] at h
    | cons x tail =>
      simp only [readUpTo] at h
      split at h
      · obtain ⟨_, rfl⟩ := Prod.mk.inj (Option.some.inj h)
        simp
      · simp at h
  | succ more ih =>
    cases b with
    | nil => simp [readUpTo] at h
    | cons x tail =>
      simp only [readUpTo] at h
      split at h
      · obtain ⟨_, rfl⟩ := Prod.mk.inj (Option.some.inj h)
        simp
      · obtain ⟨r, hr, he⟩ := Option.map_eq_some_iff.1 h
        obtain ⟨_, rfl⟩ := Prod.mk.inj he
        have := ih hr
        simp only [List.length_cons]
        omega

theorem length_lt_of_read {n : Nat} {b rest : Bytes} (h : read b = some (n, rest)) :
    rest.length < b.length :=
  length_lt_of_readUpTo h

end Varint

end Wire

end StorageHealth
