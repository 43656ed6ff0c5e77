import Mathlib.Data.Nat.Log
import StorageHealth.Wire.Length

/-!
# How long numbers are

`Varint.length_write` says that a number takes as many bytes as the position of its highest bit
tells, and `Varint.exists_piece_of_read` that reading takes a piece off the front that is at least
as long.  The estimates for sums and doubles are what the lengths of messages need.
-/

namespace StorageHealth

namespace Wire

namespace Varint

/-! ## Lengths -/

/-- Up to seven bits take one byte. -/
lemma len_of_lt {n : Nat} (h : n < 128) : len n = 1 := by
  have hlog : n.log2 ≤ 6 := by
    rw [Nat.log2_eq_log_two]
    exact (Nat.log_mono_right (by omega : n ≤ 127)).trans (by decide)
  unfold len
  omega

/-- Seven more bits take one more byte, as long as a number has at most 64 of them. -/
lemma len_of_le {n : Nat} (h : 128 ≤ n) (hn : n < limit) : len n = len (n / 128) + 1 := by
  have hdiv : (n / 128).log2 = n.log2 - 7 := by
    rw [Nat.log2_eq_log_two, Nat.log2_eq_log_two]
    exact Nat.log_div_base_pow 2 n 7
  have hlow : 7 ≤ n.log2 := (Nat.le_log2 (by omega)).mpr h
  have hhigh : n.log2 < 64 := (Nat.log2_lt (by omega)).mpr hn
  unfold len
  omega

lemma limitFor_le : ∀ {more : Nat}, more ≤ 9 → limitFor more ≤ limit := by
  decide

lemma length_groups {more n : Nat} (hmore : more ≤ 9) (h : n < limitFor more) :
    (groups more n).length = len n := by
  induction more generalizing n with
  | zero =>
    have htwo : n < 2 := h
    rw [len_of_lt (by omega)]
    rfl
  | succ more ih =>
    unfold groups
    split
    · rename_i hsmall
      rw [len_of_lt hsmall]
      rfl
    · rename_i hbig
      have hrest : n / 128 < limitFor more := Nat.div_lt_of_lt_mul h
      have hlimit : limitFor (more + 1) ≤ limit := limitFor_le hmore
      have hlen : len n = len (n / 128) + 1 := len_of_le (by omega) (by omega)
      rw [List.length_cons, ih (by omega) hrest, hlen]

/-- A number takes as many bytes as its highest bit tells. -/
theorem length_write {n : Nat} (h : n < limit) : (write n).length = len n :=
  length_groups (Nat.le_refl 9) h

lemma one_le_len (n : Nat) : 1 ≤ len n := by
  unfold len
  omega

lemma len_mono {m n : Nat} (h : m ≤ n) : len m ≤ len n := by
  have hlog : m.log2 ≤ n.log2 := by
    rw [Nat.log2_eq_log_two, Nat.log2_eq_log_two]
    exact Nat.log_mono_right h
  unfold len
  omega

/-- Doubling a number makes it longer by at most one byte. -/
lemma len_two_mul_le (n : Nat) : len (2 * n) ≤ len n + 1 := by
  rcases Nat.eq_zero_or_pos n with rfl | hpos
  · exact Nat.le_succ _
  · have hlog : (2 * n).log2 = n.log2 + 1 := Nat.log2_two_mul (by omega)
    unfold len
    omega

/-- A sum takes no more bytes than both of its parts. -/
lemma len_add_le (m n : Nat) : len (m + n) ≤ len m + len n := by
  have hm := one_le_len m
  have hn := one_le_len n
  rcases Nat.le_total m n with h | h
  · have hsum := len_mono (by omega : m + n ≤ 2 * n)
    have hdouble := len_two_mul_le n
    omega
  · have hsum := len_mono (by omega : m + n ≤ 2 * m)
    have hdouble := len_two_mul_le m
    omega

/-- A number with its highest bit at position 31 or above takes at least five bytes. -/
lemma five_le_len {n : Nat} (h : 2147483648 ≤ n) : 5 ≤ len n :=
  Nat.le_trans (by decide) (len_mono h)

lemma len_le_ten {n : Nat} (h : n < limit) : len n ≤ 10 :=
  Nat.le_trans (len_mono (Nat.le_of_lt_succ h)) (by decide)

lemma length_groups_le (more n : Nat) : (groups more n).length ≤ more + 1 := by
  induction more generalizing n with
  | zero => exact Nat.le_refl 1
  | succ more ih =>
    unfold groups
    split
    · exact Nat.le_add_left 1 _
    · exact Nat.succ_le_succ (ih (n / 128))

/-- A number that does not fit is cut off, so it takes no more bytes either. -/
lemma length_write_le (n : Nat) : (write n).length ≤ len n := by
  rcases Nat.lt_or_ge n limit with h | h
  · exact Nat.le_of_eq (length_write h)
  · have hten : 10 ≤ len n := Nat.le_trans (by decide) (len_mono h)
    exact (length_groups_le 9 n).trans hten

/-! ## Pieces -/

lemma limitFor_pos (more : Nat) : 0 < limitFor more := by
  induction more with
  | zero => decide
  | succ more ih =>
    rw [limitFor]
    omega

/-- Reading takes a piece off the front, and nothing behind the piece matters.  The number in it
fits, and would be written in no more bytes. -/
lemma exists_piece_of_readUpTo {more n : Nat} {b rest : Bytes} (hmore : more ≤ 9)
    (h : readUpTo more b = some (n, rest)) :
    ∃ piece : Bytes, b = piece ++ rest ∧ n < limitFor more ∧ len n ≤ piece.length ∧
      ∀ after, readUpTo more (piece ++ after) = some (n, after) := by
  induction more generalizing b n with
  | zero =>
    cases b with
    | nil => cases h
    | cons x tail =>
      rw [readUpTo] at h
      split at h
      · rename_i htwo
        obtain ⟨rfl, rfl⟩ := Prod.mk.inj (Option.some.inj h)
        refine ⟨[x], rfl, htwo, ?_, fun after => ?_⟩
        · rw [len_of_lt (by omega)]
          exact Nat.le_refl 1
        · rw [List.singleton_append, readUpTo, if_pos htwo]
      · cases h
  | succ more ih =>
    cases b with
    | nil => cases h
    | cons x tail =>
      rw [readUpTo] at h
      split at h
      · rename_i hsmall
        obtain ⟨rfl, rfl⟩ := Prod.mk.inj (Option.some.inj h)
        have hpos : 0 < limitFor more := limitFor_pos more
        refine ⟨[x], rfl, ?_, ?_, fun after => ?_⟩
        · rw [limitFor]
          omega
        · rw [len_of_lt hsmall]
          exact Nat.le_refl 1
        · rw [List.singleton_append, readUpTo, if_pos hsmall]
      · rename_i hbig
        obtain ⟨⟨high, rest'⟩, hhigh, he⟩ := Option.map_eq_some_iff.mp h
        obtain ⟨rfl, rfl⟩ := Prod.mk.inj he
        obtain ⟨piece, rfl, hlimit, hlen, hafter⟩ := ih (by omega) hhigh
        have hbyte : x.toNat < 256 := x.toNat_lt
        have hfits : limitFor (more + 1) ≤ limit := limitFor_le hmore
        have hsum : x.toNat - 128 + 128 * high < limitFor (more + 1) := by
          rw [limitFor]
          omega
        refine ⟨x :: piece, rfl, hsum, ?_, fun after => ?_⟩
        · rw [List.length_cons]
          rcases Nat.lt_or_ge (x.toNat - 128 + 128 * high) 128 with hlow | hhigh
          · rw [len_of_lt hlow]
            omega
          · have hdiv : (x.toNat - 128 + 128 * high) / 128 = high := by omega
            rw [len_of_le hhigh (by omega), hdiv]
            omega
        · rw [List.cons_append, readUpTo, if_neg hbig, hafter]
          rfl

lemma exists_piece_of_read {n : Nat} {b rest : Bytes} (h : read b = some (n, rest)) :
    ∃ piece : Bytes, b = piece ++ rest ∧ n < limit ∧ len n ≤ piece.length ∧
      ∀ after, read (piece ++ after) = some (n, after) :=
  exists_piece_of_readUpTo (Nat.le_refl 9) h

end Varint

end Wire

end StorageHealth
