import Mathlib.Logic.Equiv.Basic
import StorageHealth.Proofs.Wire.Scalars

/-!
# Blocks of fields

A message is made of blocks, one for each of its tags.  A `Block` says how the values of such a
block are written, how long they are and how a field is merged into them, together with everything
that is needed for reading them back; the proofs go along with the block.  There are blocks for
single values, for lists and for messages inside messages, and `Block.and` puts two of them side by
side.

`Lawful` is the same for a whole type of messages.  `Lawful.ofBlock` derives it from a block that
the values of the type correspond to.
-/

namespace StorageHealth

namespace Wire

open StorageHealth.Wire.Field StorageHealth.Wire.Message StorageHealth.Wire.Measured

/-! ## Lawful types of messages -/

/-- What a type of messages keeps to, where `levels` is how deep messages are nested in its values
and `tags` are those that it declares. -/
class Lawful (α : Type) [Message α] [Measured α] where
  levels : Nat
  tags : List Nat
  writes : ∀ v : α, Writes (fields v) (encodedLen v)
  merge_fields : ∀ (v : α) (depth : Nat), levels < depth →
    (writeAll (fields v)).length < Varint.limit → mergeAll depth blank (fields v) = some v
  encodedLen_blank : encodedLen (blank : α) = 0
  encodedLen_le : ∀ (depth : Nat) (v w : α) (f : Field), merge depth v f = some w →
    encodedLen w ≤ encodedLen v + 2 * f.weight
  merge_of_not_mem : ∀ (depth : Nat) (v : α) (f : Field), f.tag ∉ tags → merge depth v f = some v

section Lawful

variable {α : Type} [Message α] [Measured α] [Lawful α]

/-- A message that can be written is read back at every depth that its values need. -/
lemma readInto_encode {v : α} {depth : Nat} (hdepth : Lawful.levels α < depth)
    (hlen : (encode v).length < Varint.limit) : readInto depth blank (encode v) = some v := by
  obtain ⟨d, rfl⟩ : ∃ d, depth = d + 1 := ⟨depth - 1, by omega⟩
  have hfields := readAll_writeAll (Lawful.writes v).plain hlen d
  rw [readInto, encode, hfields]
  exact Lawful.merge_fields v (d + 1) hdepth hlen

lemma encodedLen_mergeAll_le {depth : Nat} {v w : α} {fs : List Field}
    (h : mergeAll depth v fs = some w) :
    encodedLen w ≤ encodedLen v + 2 * totalWeight fs := by
  induction fs generalizing v with
  | nil =>
    rw [← Option.some.inj h]
    exact Nat.le_refl _
  | cons f fs ih =>
    obtain ⟨u, hu, hw⟩ := Option.bind_eq_some_iff.mp h
    have hfirst := Lawful.encodedLen_le depth v u f hu
    have hothers := ih hw
    have htotal : totalWeight (f :: fs) = f.weight + totalWeight fs := rfl
    omega

/-- What is read into a message makes it longer by at most twice the bytes that are read. -/
lemma encodedLen_readInto_le {depth : Nat} {v w : α} {b : Bytes}
    (h : readInto depth v b = some w) : encodedLen w ≤ encodedLen v + 2 * b.length := by
  obtain ⟨fs, hfs, hw⟩ := Option.bind_eq_some_iff.mp h
  have hmerged := encodedLen_mergeAll_le hw
  have hweight := totalWeight_le hfs
  omega

/-- A message inside a message is read back, one level deeper. -/
lemma readPart_part {v : α} {tag depth : Nat} (hdepth : Lawful.levels α + 1 < depth)
    (hlen : (write (part tag v)).length < Varint.limit) :
    readPart depth blank (part tag v) = some v := by
  obtain ⟨d, rfl⟩ : ∃ d, depth = d + 1 := ⟨depth - 1, by omega⟩
  rw [part, write, List.length_append] at hlen
  exact readInto_encode (by omega) (by omega)

lemma writes_part {tag : Nat} (h : Short tag) (v : α) : Writes [part tag v] (partLen tag v) :=
  writes_sized h (Lawful.writes v).length_le (Lawful.writes v).length_eq

/-- A message that is merged into another one makes it longer, and with it the number of its
length. -/
lemma partLen_le {tag : Nat} (h : Short tag) {depth : Nat} {start x : α} {f : Field}
    (hx : readPart depth start f = some x) :
    partLen tag x + 1 ≤ Varint.len (encodedLen start) + encodedLen start + 2 * f.weight := by
  cases f with
  | sized t content =>
    cases depth with
    | zero => cases hx
    | succ depth =>
      have hsize := encodedLen_readInto_le hx
      have hlen := (Varint.len_mono hsize).trans (Varint.len_add_le _ _)
      have hdouble := Varint.len_two_mul_le content.length
      have hone := Varint.one_le_len content.length
      rw [partLen, prefixedLen, keyLen_eq h, weight, prefixedLen]
      omega
  | _ => cases hx

lemma partLen_le_of_blank {tag : Nat} (h : Short tag) {depth : Nat} {x : α} {f : Field}
    (hx : readPart depth blank f = some x) : partLen tag x ≤ 2 * f.weight := by
  have hpart := partLen_le h hx
  have hone : Varint.len (encodedLen (blank : α)) + encodedLen (blank : α) = 1 := by
    rw [Lawful.encodedLen_blank]
    rfl
  omega

end Lawful

/-! ## Blocks -/

/-- The fields of a message that have certain tags, and the values that they hold together. -/
structure Block (tags : List Nat) (α : Type) where
  levels : Nat
  empty : α
  write : α → List Field
  len : α → Nat
  merge : Nat → α → Field → Option α
  writes : ∀ v, Writes (write v) (len v)
  tag_mem : ∀ v, ∀ f ∈ write v, f.tag ∈ tags
  merge_write : ∀ v depth, levels < depth → (writeAll (write v)).length < Varint.limit →
    (write v).foldlM (merge depth) empty = some v
  len_empty : len empty = 0
  len_le : ∀ depth v w f, f.tag ∈ tags → merge depth v f = some w →
    len w ≤ len v + 2 * f.weight

namespace Block

variable {α β : Type}

/-- A block that reads a single value from its field and does not write the empty one. -/
def single (tag : Nat) (empty : α) (write : α → List Field) (len : α → Nat)
    (read : Field → Option α) (writes : ∀ v, Writes (write v) (len v))
    (read_write : ∀ v, write v = [] ∧ v = empty ∨
      ∃ f : Field, write v = [f] ∧ f.tag = tag ∧ read f = some v)
    (len_empty : len empty = 0) (len_le : ∀ v f, read f = some v → len v ≤ 2 * f.weight) :
    Block [tag] α where
  levels := 0
  empty := empty
  write := write
  len := len
  merge _ _ := read
  writes := writes
  tag_mem v f hf := by
    rcases read_write v with ⟨hnil, -⟩ | ⟨g, hone, htag, -⟩
    · rw [hnil] at hf
      cases hf
    · rw [hone] at hf
      rw [List.mem_singleton.mp hf, htag]
      exact List.mem_cons_self
  merge_write v depth _ _ := by
    rcases read_write v with ⟨hnil, hempty⟩ | ⟨g, hone, -, hread⟩
    · rw [hnil, hempty]
      rfl
    · rw [hone, List.foldlM_cons, hread]
      rfl
  len_empty := len_empty
  len_le _ v w f _ hw := Nat.le_trans (len_le w f hw) (Nat.le_add_left _ _)

/-- A text. -/
def text (tag : Nat) (h : Short tag) : Block [tag] String :=
  single tag "" (ofText tag) (textLen tag) text? (writes_ofText h)
    (fun s => by
      by_cases hs : s = ""
      · exact Or.inl ⟨if_pos hs, hs⟩
      · exact Or.inr ⟨ofMember tag s, if_neg hs, rfl, text?_ofMember tag s⟩)
    rfl
    (fun s f hs => by
      have hle := textLen_le h hs
      omega)

/-- A 64-bit number. -/
def int64 (tag : Nat) (h : Short tag) : Block [tag] Int64 :=
  single tag 0 (ofInt64 tag) (int64Len tag) int64? (writes_ofInt64 h)
    (fun n => by
      by_cases hn : n = 0
      · exact Or.inl ⟨if_pos hn, hn⟩
      · exact Or.inr ⟨varint tag n.toUInt64.toNat, if_neg hn, rfl, int64?_varint tag n⟩)
    rfl
    (fun n f hn => by
      have hle := int64Len_le h hn
      omega)

/-- A 32-bit number. -/
def int32 (tag : Nat) (h : Short tag) : Block [tag] Int32 :=
  single tag 0 (ofInt32 tag) (int32Len tag) int32? (fun n => writes_ofInt64 h n.toInt64)
    (fun n => by
      by_cases hn : n.toInt64 = 0
      · have hzero : n = 0 := by
          rw [← Int32.toInt32_toInt64 n, hn]
          rfl
        exact Or.inl ⟨if_pos hn, hzero⟩
      · exact Or.inr ⟨varint tag n.toInt64.toUInt64.toNat, if_neg hn, rfl, int32?_varint tag n⟩)
    rfl
    (fun n f hn => int32Len_le h hn)

/-- A truth value. -/
def bool (tag : Nat) (h : Short tag) : Block [tag] Bool :=
  single tag false (ofBool tag) (boolLen tag) bool? (writes_ofBool h)
    (fun b => by
      cases b with
      | false => exact Or.inl ⟨rfl, rfl⟩
      | true => exact Or.inr ⟨varint tag 1, rfl, rfl, rfl⟩)
    rfl
    (fun b f hb => by
      have hle := boolLen_le h hb
      omega)

/-- The members of a list are taken up one after the other; those that were taken up before stand in
front. -/
lemma foldlM_members {levels depth : Nat} {write : α → Field} {read : Nat → Field → Option α}
    (read_write : ∀ v depth, levels < depth → (Field.write (write v)).length < Varint.limit →
      read depth (write v) = some v) (hdepth : levels < depth) {l : List α}
    (hlen : (writeAll (l.map write)).length < Varint.limit) (done : List α) :
    (l.map write).foldlM (fun l f => (read depth f).map fun v => l ++ [v]) done =
      some (done ++ l) := by
  induction l generalizing done with
  | nil =>
    rw [List.append_nil]
    rfl
  | cons v l ih =>
    rw [List.map_cons, writeAll, List.length_append] at hlen
    rw [List.map_cons, List.foldlM_cons, read_write v depth hdepth (by omega)]
    have hrest := ih (by omega) (done ++ [v])
    rw [List.append_assoc] at hrest
    exact hrest

/-- A block that takes up one member of a list from each of its fields. -/
def list (tag levels : Nat) (write : α → Field) (len : List α → Nat)
    (read : Nat → Field → Option α) (writes : ∀ l, Writes (l.map write) (len l))
    (tag_eq : ∀ v, (write v).tag = tag)
    (read_write : ∀ v depth, levels < depth → (Field.write (write v)).length < Varint.limit →
      read depth (write v) = some v)
    (len_nil : len [] = 0)
    (len_le : ∀ depth l v f, read depth f = some v → len (l ++ [v]) ≤ len l + 2 * f.weight) :
    Block [tag] (List α) where
  levels := levels
  empty := []
  write l := l.map write
  len := len
  merge depth l f := (read depth f).map fun v => l ++ [v]
  writes := writes
  tag_mem l f hf := by
    obtain ⟨v, -, rfl⟩ := List.mem_map.mp hf
    rw [tag_eq v]
    exact List.mem_cons_self
  merge_write l depth hdepth hlen := foldlM_members read_write hdepth hlen []
  len_empty := len_nil
  len_le depth l w f _ hw := by
    obtain ⟨v, hv, rfl⟩ := Option.map_eq_some_iff.mp hw
    exact len_le depth l v f hv

/-- A list of texts. -/
def texts (tag : Nat) (h : Short tag) : Block [tag] (List String) :=
  list tag 0 (ofMember tag) (textsLen tag) (fun _ => text?) (writes_members h) (fun _ => rfl)
    (fun s _ _ _ => text?_ofMember tag s) rfl
    (fun _ l s f hs => by
      have hle := textsLen_concat_le h hs l
      omega)

section Parts

variable [Message α] [Measured α] [Lawful α]

omit [Message α] [Lawful α] in
lemma partsLen_cons (tag : Nat) (v : α) (l : List α) :
    partsLen tag (v :: l) = partLen tag v + partsLen tag l := by
  simp only [partsLen, partLen, List.length_cons, List.foldr_cons, Nat.mul_succ]
  omega

omit [Message α] [Lawful α] in
lemma partsLen_append (tag : Nat) (l l' : List α) :
    partsLen tag (l ++ l') = partsLen tag l + partsLen tag l' := by
  induction l with
  | nil => exact (Nat.zero_add _).symm
  | cons v l ih =>
    rw [List.cons_append, partsLen_cons, partsLen_cons, ih]
    omega

lemma writes_parts {tag : Nat} (h : Short tag) (l : List α) :
    Writes (l.map (part tag)) (partsLen tag l) := by
  induction l with
  | nil => exact writes_nil
  | cons v l ih =>
    rw [partsLen_cons]
    exact (writes_part h v).append ih

/-- A list of messages. -/
def parts (tag : Nat) (h : Short tag) : Block [tag] (List α) :=
  list tag (Lawful.levels α + 1) (part tag) (partsLen tag) (fun depth => readPart depth blank)
    (writes_parts h) (fun _ => rfl) (fun _ _ => readPart_part) rfl
    (fun depth l v f hv => by
      have hle := partLen_le_of_blank h hv
      have hone : partsLen tag [v] = partLen tag v := partsLen_cons tag v []
      rw [partsLen_append]
      omega)

/-- A message that comes for the first time, or is merged into the one that is there. -/
lemma optionalLen_le {tag : Nat} (h : Short tag) {depth : Nat} {v : Option α} {x : α} {f : Field}
    (hx : readPart depth (v.getD blank) f = some x) :
    optionalLen tag (some x) ≤ optionalLen tag v + 2 * f.weight := by
  cases v with
  | none =>
    have hle := partLen_le_of_blank h hx
    rw [optionalLen, optionalLen]
    omega
  | some y =>
    have hle := partLen_le h hx
    have hold : partLen tag y = 1 + (Varint.len (encodedLen y) + encodedLen y) := by
      rw [partLen, keyLen_eq h, prefixedLen]
    rw [Option.getD_some] at hle
    rw [optionalLen, optionalLen]
    omega

/-- A message that may be absent; one that comes again is merged into the one that is there. -/
def optional (tag : Nat) (h : Short tag) : Block [tag] (Option α) where
  levels := Lawful.levels α + 1
  empty := none
  write := optionalPart tag
  len := optionalLen tag
  merge depth v f := (readPart depth (v.getD blank) f).map some
  writes v := by
    cases v with
    | none => exact writes_nil
    | some x => exact writes_part h x
  tag_mem v f hf := by
    cases v with
    | none => cases hf
    | some x =>
      rw [List.mem_singleton.mp hf]
      exact List.mem_cons_self
  merge_write v depth hdepth hlen := by
    cases v with
    | none => rfl
    | some x =>
      have hone : optionalPart tag (some x) = [part tag x] := rfl
      rw [hone, writeAll_singleton] at hlen
      rw [hone, List.foldlM_cons, Option.getD_none, readPart_part hdepth hlen]
      rfl
  len_empty := rfl
  len_le depth v w f _ hw := by
    obtain ⟨x, hx, rfl⟩ := Option.map_eq_some_iff.mp hw
    exact optionalLen_le h hx

end Parts

/-! ## Blocks side by side -/

/-- Merges a field into one of two values, by its tag. -/
def mergeEither (ts : List Nat) (f : α → Field → Option α) (g : β → Field → Option β) (v : α × β)
    (x : Field) : Option (α × β) :=
  if x.tag ∈ ts then (f v.1 x).map (·, v.2) else (g v.2 x).map (v.1, ·)

section Either

variable {ts : List Nat} {f : α → Field → Option α} {g : β → Field → Option β} {fs : List Field}

lemma foldlM_mergeEither_left (h : ∀ x ∈ fs, x.tag ∈ ts) (a : α) (b : β) :
    fs.foldlM (mergeEither ts f g) (a, b) = (fs.foldlM f a).map (·, b) := by
  induction fs generalizing a with
  | nil => rfl
  | cons x fs ih =>
    rw [List.foldlM_cons, List.foldlM_cons, mergeEither, if_pos (h x List.mem_cons_self)]
    cases f a x with
    | none => rfl
    | some a' => exact ih (fun y hy => h y (List.mem_cons_of_mem x hy)) a'

lemma foldlM_mergeEither_right (h : ∀ x ∈ fs, x.tag ∉ ts) (a : α) (b : β) :
    fs.foldlM (mergeEither ts f g) (a, b) = (fs.foldlM g b).map (a, ·) := by
  induction fs generalizing b with
  | nil => rfl
  | cons x fs ih =>
    rw [List.foldlM_cons, List.foldlM_cons, mergeEither, if_neg (h x List.mem_cons_self)]
    cases g b x with
    | none => rfl
    | some b' => exact ih (fun y hy => h y (List.mem_cons_of_mem x hy)) b'

end Either

section And

variable {ts us : List Nat} (A : Block ts α) (B : Block us β)

lemma merge_write_and (hdisjoint : ∀ t ∈ ts, t ∉ us) (v : α × β) {depth : Nat}
    (hdepth : max A.levels B.levels < depth)
    (hlen : (writeAll (A.write v.1 ++ B.write v.2)).length < Varint.limit) :
    (A.write v.1 ++ B.write v.2).foldlM (mergeEither ts (A.merge depth) (B.merge depth))
      (A.empty, B.empty) = some v := by
  rw [writeAll_append, List.length_append] at hlen
  have hfirst := A.merge_write v.1 depth (by omega) (by omega)
  have hsecond := B.merge_write v.2 depth (by omega) (by omega)
  have hother : ∀ f ∈ B.write v.2, f.tag ∉ ts :=
    fun f hf hA => hdisjoint f.tag hA (B.tag_mem v.2 f hf)
  rw [List.foldlM_append, foldlM_mergeEither_left (A.tag_mem v.1), hfirst]
  refine (foldlM_mergeEither_right hother v.1 B.empty).trans ?_
  rw [hsecond]
  rfl

lemma len_le_and {v w : α × β} {depth : Nat} {f : Field} (hf : f.tag ∈ ts ++ us)
    (hw : mergeEither ts (A.merge depth) (B.merge depth) v f = some w) :
    A.len w.1 + B.len w.2 ≤ A.len v.1 + B.len v.2 + 2 * f.weight := by
  unfold mergeEither at hw
  split at hw
  · rename_i hA
    obtain ⟨x, hx, rfl⟩ := Option.map_eq_some_iff.mp hw
    have hle := A.len_le depth v.1 x f hA hx
    dsimp only
    omega
  · rename_i hA
    obtain ⟨y, hy, rfl⟩ := Option.map_eq_some_iff.mp hw
    have hB := (List.mem_append.mp hf).resolve_left hA
    have hle := B.len_le depth v.2 y f hB hy
    dsimp only
    omega

/-- Two blocks side by side. -/
def and (hdisjoint : ∀ t ∈ ts, t ∉ us) : Block (ts ++ us) (α × β) where
  levels := max A.levels B.levels
  empty := (A.empty, B.empty)
  write v := A.write v.1 ++ B.write v.2
  len v := A.len v.1 + B.len v.2
  merge depth := mergeEither ts (A.merge depth) (B.merge depth)
  writes v := (A.writes v.1).append (B.writes v.2)
  tag_mem v f hf := by
    rcases List.mem_append.mp hf with hf | hf
    · exact List.mem_append_left _ (A.tag_mem v.1 f hf)
    · exact List.mem_append_right _ (B.tag_mem v.2 f hf)
  merge_write v _ hdepth hlen := merge_write_and A B hdisjoint v hdepth hlen
  len_empty := by rw [A.len_empty, B.len_empty]
  len_le _ _ _ _ hf hw := len_le_and A B hf hw

end And

/-! ## What blocks do with a field -/

section Merge

variable {tag depth : Nat} {h : Short tag} {f : Field}

@[simp]
lemma merge_text (s : String) : (text tag h).merge depth s f = f.text? := rfl

@[simp]
lemma merge_int64 (n : Int64) : (int64 tag h).merge depth n f = f.int64? := rfl

@[simp]
lemma merge_int32 (n : Int32) : (int32 tag h).merge depth n f = f.int32? := rfl

@[simp]
lemma merge_bool (b : Bool) : (bool tag h).merge depth b f = f.bool? := rfl

@[simp]
lemma merge_texts (l : List String) :
    (texts tag h).merge depth l f = f.text?.map fun s => l ++ [s] := rfl

@[simp]
lemma merge_parts [Message α] [Measured α] [Lawful α] (l : List α) :
    (parts tag h).merge depth l f = (readPart depth blank f).map fun v => l ++ [v] := rfl

@[simp]
lemma merge_optional [Message α] [Measured α] [Lawful α] (v : Option α) :
    (optional tag h).merge depth v f = (readPart depth (v.getD blank) f).map some := rfl

@[simp]
lemma merge_and {ts us : List Nat} (A : Block ts α) (B : Block us β)
    (hdisjoint : ∀ t ∈ ts, t ∉ us) (v : α × β) : (A.and B hdisjoint).merge depth v f =
      if f.tag ∈ ts then (A.merge depth v.1 f).map (·, v.2)
      else (B.merge depth v.2 f).map (v.1, ·) := rfl

end Merge

end Block

/-! ## Types of messages that consist of a block -/

/-- A type of messages is lawful if its values correspond to those of a block: they are written and
measured alike, the fields of the block are merged alike, and all other fields change nothing. -/
@[reducible]
def Lawful.ofBlock {α β : Type} [Message α] [Measured α] {ts : List Nat} (B : Block ts β)
    (e : α ≃ β) (hblank : e blank = B.empty) (hfields : ∀ v : α, fields v = B.write (e v))
    (hlen : ∀ v : α, encodedLen v = B.len (e v))
    (hmerge : ∀ depth (v : α) (f : Field), merge depth v f =
      if f.tag ∈ ts then (B.merge depth (e v) f).map e.symm else some v) : Lawful α where
  levels := B.levels
  tags := ts
  writes v := by
    rw [hfields, hlen]
    exact B.writes (e v)
  merge_fields v depth hdepth hv := by
    have hall : ∀ (fs : List Field) (v : α), (∀ f ∈ fs, f.tag ∈ ts) →
        mergeAll depth v fs = (fs.foldlM (B.merge depth) (e v)).map e.symm := by
      intro fs
      induction fs with
      | nil => exact fun v _ => congrArg some (e.symm_apply_apply v).symm
      | cons f fs ih =>
        intro v htags
        rw [mergeAll, List.foldlM_cons, List.foldlM_cons, hmerge,
          if_pos (htags f List.mem_cons_self)]
        cases B.merge depth (e v) f with
        | none => rfl
        | some x =>
          have hrest := ih (e.symm x) fun g hg => htags g (List.mem_cons_of_mem f hg)
          rw [e.apply_symm_apply] at hrest
          exact hrest
    rw [hfields] at hv ⊢
    rw [hall _ _ (B.tag_mem (e v)), hblank, B.merge_write (e v) depth hdepth hv, Option.map_some,
      e.symm_apply_apply]
  encodedLen_blank := by rw [hlen, hblank, B.len_empty]
  encodedLen_le depth v w f hw := by
    rw [hmerge] at hw
    split at hw
    · rename_i hf
      obtain ⟨x, hx, rfl⟩ := Option.map_eq_some_iff.mp hw
      rw [hlen, hlen, e.apply_symm_apply]
      exact B.len_le depth (e v) x f hf hx
    · rw [← Option.some.inj hw]
      exact Nat.le_add_right _ _
  merge_of_not_mem depth v f hf := by rw [hmerge, if_neg hf]

end Wire

end StorageHealth
