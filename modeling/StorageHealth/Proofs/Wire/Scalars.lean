import StorageHealth.Proofs.Wire.Fields

/-!
# Numbers and texts in fields

For every kind of value that a field can hold: the field written for it is plain, reading the field
gives the value back, it takes as many bytes as expected, and what is read from a field takes at
most twice what the field weighs.  Twice, because a negative number of 32 bits may come in five
bytes but goes out in ten.
-/

namespace StorageHealth

namespace Wire

namespace Field

variable {tag : Nat}

/-! ## Keys and contents -/

lemma keyLen_eq (h : Short tag) : keyLen tag = 1 :=
  Varint.len_of_lt (by have := h.2; omega)

lemma length_writeKey (h : Short tag) {layout : Nat} (hlayout : layout < 8) :
    (writeKey tag layout).length = keyLen tag := by
  have hsmall : tag * 8 + layout < 128 := by
    have := h.2
    omega
  have hfits : tag * 8 + layout < Varint.limit := Nat.lt_trans hsmall (by decide)
  rw [writeKey, Varint.length_write hfits, Varint.len_of_lt hsmall, keyLen_eq h]

lemma writeAll_singleton (f : Field) : writeAll [f] = write f := by
  rw [writeAll, writeAll, List.append_nil]

/-- Plain fields that take a number of bytes, as long as their lengths can be written at all, and
never more. -/
structure Writes (fs : List Field) (len : Nat) : Prop where
  plain : ∀ f ∈ fs, f.Plain
  length_le : (writeAll fs).length ≤ len
  length_eq : (writeAll fs).length < Varint.limit → (writeAll fs).length = len

lemma writes_nil : Writes [] 0 := ⟨nofun, Nat.le_refl 0, fun _ => rfl⟩

lemma Writes.append {fs gs : List Field} {m n : Nat} (hf : Writes fs m) (hg : Writes gs n) :
    Writes (fs ++ gs) (m + n) := by
  refine ⟨List.forall_mem_append.mpr ⟨hf.plain, hg.plain⟩, ?_, fun hlen => ?_⟩
  · have hfirst := hf.length_le
    have hsecond := hg.length_le
    rw [writeAll_append, List.length_append]
    omega
  · rw [writeAll_append, List.length_append] at hlen ⊢
    rw [hf.length_eq (by omega), hg.length_eq (by omega)]

lemma writes_varint (h : Short tag) {n : Nat} (hn : n < Varint.limit) :
    Writes [varint tag n] (keyLen tag + Varint.len n) := by
  have hlen : (writeAll [varint tag n]).length = keyLen tag + Varint.len n := by
    rw [writeAll_singleton, write, List.length_append, length_writeKey h (by decide),
      Varint.length_write hn]
  refine ⟨fun f hf => ?_, Nat.le_of_eq hlen, fun _ => hlen⟩
  rw [List.mem_singleton.mp hf]
  exact ⟨h, hn⟩

lemma writes_sized (h : Short tag) {content : Bytes} {size : Nat} (hle : content.length ≤ size)
    (hsize : content.length < Varint.limit → content.length = size) :
    Writes [sized tag content] (keyLen tag + prefixedLen size) := by
  refine ⟨fun f hf => ?_, ?_, fun hlen => ?_⟩
  · rw [List.mem_singleton.mp hf]
    exact h
  · have hnumber := (Varint.length_write_le content.length).trans (Varint.len_mono hle)
    rw [writeAll_singleton, write, List.length_append, List.length_append,
      length_writeKey h (by decide), prefixedLen]
    omega
  · rw [writeAll_singleton, write, List.length_append] at hlen ⊢
    have hfits : content.length < Varint.limit := by omega
    rw [List.length_append, length_writeKey h (by decide), Varint.length_write hfits,
      hsize hfits, prefixedLen]
    omega

/-! ## Texts -/

lemma text?_ofMember (tag : Nat) (s : String) : (ofMember tag s).text? = some s := by
  have hbytes : (⟨s.toUTF8.data.toList.toArray⟩ : ByteArray) = s.toByteArray := rfl
  rw [ofMember, text?, hbytes, String.fromUTF8?, dif_pos s.isValidUTF8]
  rfl

/-- A text that is read has the bytes of its field. -/
lemma weight_of_text? {f : Field} {s : String} (h : f.text? = some s) :
    f.weight = 1 + prefixedLen s.utf8ByteSize := by
  cases f with
  | sized t content =>
    rw [text?, String.fromUTF8?] at h
    split at h
    · rw [← Option.some.inj h]
      rfl
    · cases h
  | _ => cases h

lemma writes_ofMember (h : Short tag) (s : String) :
    Writes [ofMember tag s] (keyLen tag + prefixedLen s.utf8ByteSize) :=
  writes_sized h (Nat.le_refl _) fun _ => rfl

lemma writes_ofText (h : Short tag) (s : String) : Writes (ofText tag s) (textLen tag s) := by
  unfold ofText textLen
  split
  · exact writes_nil
  · exact writes_ofMember h s

lemma textLen_le (h : Short tag) {f : Field} {s : String} (hs : f.text? = some s) :
    textLen tag s ≤ f.weight := by
  rw [weight_of_text? hs]
  unfold textLen
  split
  · exact Nat.zero_le _
  · rw [keyLen_eq h]

lemma textsLen_cons (tag : Nat) (s : String) (l : List String) :
    textsLen tag (s :: l) = keyLen tag + prefixedLen s.utf8ByteSize + textsLen tag l := by
  simp only [textsLen, List.length_cons, List.foldr_cons, Nat.mul_succ]
  omega

lemma textsLen_append (tag : Nat) (l l' : List String) :
    textsLen tag (l ++ l') = textsLen tag l + textsLen tag l' := by
  induction l with
  | nil => exact (Nat.zero_add _).symm
  | cons s l ih =>
    rw [List.cons_append, textsLen_cons, textsLen_cons, ih]
    omega

lemma writes_members (h : Short tag) (l : List String) :
    Writes (l.map (ofMember tag)) (textsLen tag l) := by
  induction l with
  | nil => exact writes_nil
  | cons s l ih =>
    rw [textsLen_cons]
    exact (writes_ofMember h s).append ih

lemma textsLen_concat_le (h : Short tag) {f : Field} {s : String} (hs : f.text? = some s)
    (l : List String) : textsLen tag (l ++ [s]) ≤ textsLen tag l + f.weight := by
  have hone : textsLen tag [s] = f.weight := by
    rw [textsLen_cons, weight_of_text? hs, keyLen_eq h]
    rfl
  rw [textsLen_append, hone]

/-! ## Numbers -/

/-- A signed word of 32 bits in 64 bits: its own bits, with 32 ones above them if it is negative. -/
lemma toNat_toInt64 (n : Int32) : n.toInt64.toUInt64.toNat =
    n.toUInt32.toNat + if 2147483648 ≤ n.toUInt32.toNat then 18446744069414584320 else 0 := by
  have hbits : n.toInt64.toUInt64.toNat = (n.toBitVec.signExtend 64).toNat := rfl
  have hlow : (n.toBitVec.setWidth 64).toNat = n.toUInt32.toNat := by
    rw [BitVec.toNat_setWidth]
    exact Nat.mod_eq_of_lt (Nat.lt_trans n.toBitVec.isLt (by decide))
  have hsign : n.toBitVec.msb = decide (2147483648 ≤ n.toUInt32.toNat) := BitVec.msb_eq_decide _
  rw [hbits, BitVec.toNat_signExtend, hlow, hsign]
  simp

lemma int64?_varint (tag : Nat) (n : Int64) : (varint tag n.toUInt64.toNat).int64? = some n := by
  rw [int64?, UInt64.ofNat_toNat]
  rfl

lemma int32?_varint (tag : Nat) (n : Int32) :
    (varint tag n.toInt64.toUInt64.toNat).int32? = some n := by
  have hlow : UInt32.ofNat n.toInt64.toUInt64.toNat = n.toUInt32 := by
    have hlt : n.toUInt32.toNat < 4294967296 := n.toUInt32.toNat_lt
    apply UInt32.toNat.inj
    rw [UInt32.toNat_ofNat', toNat_toInt64]
    split <;> omega
  rw [int32?, hlow]
  rfl

lemma writes_ofInt64 (h : Short tag) (n : Int64) : Writes (ofInt64 tag n) (int64Len tag n) := by
  unfold ofInt64 int64Len
  split
  · exact writes_nil
  · exact writes_varint h n.toUInt64.toNat_lt

lemma int64Len_le_of_len_le (h : Short tag) {n : Int64} {k : Nat}
    (hn : Varint.len n.toUInt64.toNat ≤ k) : int64Len tag n ≤ 1 + k := by
  unfold int64Len
  split
  · exact Nat.zero_le _
  · rw [keyLen_eq h]
    omega

lemma int64Len_le (h : Short tag) {f : Field} {n : Int64} (hn : f.int64? = some n) :
    int64Len tag n ≤ f.weight := by
  cases f with
  | varint t m =>
    rw [int64?] at hn
    have hword : n.toUInt64.toNat = m % 2 ^ 64 := by
      rw [← Option.some.inj hn]
      exact UInt64.toNat_ofNat'
    have hlen : Varint.len n.toUInt64.toNat ≤ Varint.len m := by
      rw [hword]
      exact Varint.len_mono (Nat.mod_le m _)
    exact int64Len_le_of_len_le h hlen
  | _ => cases hn

/-- A negative number comes in at least five bytes, so ten are no more than twice as many. -/
lemma int32Len_le (h : Short tag) {f : Field} {n : Int32} (hn : f.int32? = some n) :
    int32Len tag n ≤ 2 * f.weight := by
  cases f with
  | varint t m =>
    rw [int32?] at hn
    have hlow : n.toUInt32.toNat = m % 2 ^ 32 := by
      rw [← Option.some.inj hn]
      exact UInt32.toNat_ofNat'
    have hle : m % 2 ^ 32 ≤ m := Nat.mod_le m _
    have hlen : Varint.len n.toInt64.toUInt64.toNat ≤ 2 * Varint.len m := by
      rw [toNat_toInt64, hlow]
      split
      · rename_i hsign
        have hten := Varint.len_le_ten (UInt64.toNat_lt n.toInt64.toUInt64)
        rw [toNat_toInt64, hlow, if_pos hsign] at hten
        have hfive := Varint.five_le_len (Nat.le_trans hsign hle)
        omega
      · have hmono := Varint.len_mono hle
        rw [Nat.add_zero]
        omega
    have hint := int64Len_le_of_len_le h hlen
    rw [int32Len, weight]
    omega
  | _ => cases hn

/-! ## Truth values -/

lemma writes_ofBool (h : Short tag) (b : Bool) : Writes (ofBool tag b) (boolLen tag b) := by
  cases b with
  | false => exact writes_nil
  | true => exact writes_varint h (by decide)

lemma boolLen_le (h : Short tag) {f : Field} {b : Bool} (hb : f.bool? = some b) :
    boolLen tag b ≤ f.weight := by
  cases f with
  | varint t m =>
    have hlen := Varint.one_le_len m
    have hkey := keyLen_eq h
    unfold boolLen
    rw [weight]
    split <;> omega
  | _ => cases hb

end Field

end Wire

end StorageHealth
