import Mathlib.Data.String.Basic

/-!
# The order of texts

Texts are compared character by character.  UTF-8 gives a smaller character smaller bytes, whatever
comes after it (`encode_append_lt`), so the order is the one of their bytes (`bytes_lt_bytes`).
-/

namespace StorageHealth

namespace Text

/-- The bytes of a text in UTF-8. -/
def bytes (s : String) : List UInt8 := s.toUTF8.data.toList

lemma bytes_eq_flatMap (s : String) : bytes s = s.toList.flatMap String.utf8EncodeChar := by
  have h : s.toList.utf8Encode = s.toUTF8 := String.utf8Encode_toList
  rw [bytes, ← h, List.utf8Encode, List.data_toByteArray]

/-- Texts with the same bytes are the same. -/
lemma bytes_injective : Function.Injective bytes := by
  intro s t h
  have hdata : s.toUTF8.data = t.toUTF8.data := Array.toList_inj.mp h
  exact String.toByteArray_inj.mp (ByteArray.ext hdata)

/-- Whatever follows, a smaller character is encoded by smaller bytes. -/
lemma encode_append_lt {c d : Char} (h : c < d) (l l' : List UInt8) :
    String.utf8EncodeChar c ++ l < String.utf8EncodeChar d ++ l' := by
  have hlt : c.val.toNat < d.val.toNat := UInt32.lt_iff_toNat_lt.mp (Char.lt_def.mp h)
  have hbound : d.val.toNat < 1114112 := by
    have hvalid := d.valid
    unfold UInt32.isValidChar Nat.isValidChar at hvalid
    omega
  have hdigits : ∀ v : Nat, v / 4096 = v / 64 / 64 ∧ v / 262144 = v / 64 / 64 / 64 := by omega
  unfold String.utf8EncodeChar
  simp only [hdigits]
  -- the first byte grows with the number of bytes, and after it digits to base 64 are compared
  split_ifs <;>
    simp only [List.cons_append, List.nil_append, List.cons_lt_cons_iff, UInt8.lt_iff_toNat_lt,
      UInt8.toNat_ofNat', ← UInt8.toNat_inj] <;> omega

lemma flatMap_encode_lt {l l' : List Char} (h : l < l') :
    l.flatMap String.utf8EncodeChar < l'.flatMap String.utf8EncodeChar := by
  induction h with
  | @nil d rest =>
    rw [List.flatMap_cons, List.flatMap_nil]
    obtain ⟨x, xs, hx⟩ := List.exists_cons_of_ne_nil
      (String.utf8EncodeChar_ne_nil : String.utf8EncodeChar d ≠ [])
    rw [hx]
    exact List.nil_lt_cons x _
  | cons _ ih =>
    rw [List.flatMap_cons, List.flatMap_cons]
    exact List.append_left_lt ih
  | rel hlt =>
    rw [List.flatMap_cons, List.flatMap_cons]
    exact encode_append_lt hlt _ _

/-- The order of texts is the order of their bytes. -/
lemma bytes_lt_bytes {s t : String} (h : s < t) : bytes s < bytes t := by
  rw [bytes_eq_flatMap, bytes_eq_flatMap]
  exact flatMap_encode_lt (String.lt_iff_toList_lt.mp h)

/-! ## Sorted texts -/

lemma pairwise_mergeSort (texts : List String) :
    (texts.mergeSort fun a b => decide (a ≤ b)).Pairwise (· ≤ ·) := by
  have htrans : ∀ a b c : String, decide (a ≤ b) = true → decide (b ≤ c) = true →
      decide (a ≤ c) = true := by
    intro a b c hab hbc
    rw [decide_eq_true_eq] at *
    exact le_trans hab hbc
  have htotal : ∀ a b : String, (decide (a ≤ b) || decide (b ≤ a)) = true := by
    intro a b
    simpa using le_total a b
  exact (List.pairwise_mergeSort htrans htotal texts).imp of_decide_eq_true

/-- The order in which texts are given does not show once they are sorted. -/
lemma mergeSort_eq_of_perm {texts texts' : List String} (h : texts.Perm texts') :
    (texts.mergeSort fun a b => decide (a ≤ b)) = texts'.mergeSort fun a b => decide (a ≤ b) := by
  refine List.Perm.eq_of_pairwise (fun a b _ _ => le_antisymm) (pairwise_mergeSort texts)
    (pairwise_mergeSort texts') ?_
  exact ((List.mergeSort_perm texts _).trans h).trans (List.mergeSort_perm texts' _).symm

/-- Different texts, sorted, ascend byte by byte. -/
lemma pairwise_bytes_mergeSort {texts : List String} (h : texts.Nodup) :
    ((texts.mergeSort fun a b => decide (a ≤ b)).map bytes).Pairwise (· < ·) := by
  have hnodup : (texts.mergeSort fun a b => decide (a ≤ b)).Nodup :=
    (List.mergeSort_perm texts _).nodup_iff.mpr h
  rw [List.pairwise_map]
  exact ((pairwise_mergeSort texts).and hnodup).imp fun hab =>
    bytes_lt_bytes (lt_of_le_of_ne hab.1 hab.2)

end Text

end StorageHealth
