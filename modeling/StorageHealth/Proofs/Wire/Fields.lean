import Mathlib.Tactic.Common
import StorageHealth.Proofs.Wire.Varint

/-!
# Fields, one after another

A reader of fields takes a piece off the front of the bytes; the piece alone decides what is read
(`Local`).  So the bytes of a message fall into the pieces of its fields, and reading goes from
piece to piece (`Field.readAll_piece_append`).

Fields as messages write them are `Plain`: short tags, and no groups.  They are read back as they
were written (`Field.readAll_writeAll`).
-/

namespace StorageHealth

namespace Wire

/-! ## Readers that look at one piece only -/

/-- A reader takes a piece off the front, and it reads the same whatever stands behind the piece. -/
def Local {α : Type} (read : Bytes → Option (α × Bytes)) : Prop :=
  ∀ b a rest, read b = some (a, rest) →
    ∃ piece : Bytes, b = piece ++ rest ∧ ∀ after, read (piece ++ after) = some (a, after)

lemma Local.map {α β : Type} {read : Bytes → Option (α × Bytes)} (h : Local read) (f : α → β) :
    Local fun b => (read b).map fun r => (f r.1, r.2) := by
  intro b a rest hr
  obtain ⟨⟨x, rest'⟩, hx, he⟩ := Option.map_eq_some_iff.mp hr
  obtain ⟨rfl, rfl⟩ := Prod.mk.inj he
  obtain ⟨piece, hb, hafter⟩ := h b x rest' hx
  refine ⟨piece, hb, fun after => ?_⟩
  simp only [hafter, Option.map_some]

lemma Varint.local_read : Local read := by
  intro b n rest h
  obtain ⟨piece, hb, -, -, hafter⟩ := exists_piece_of_read h
  exact ⟨piece, hb, hafter⟩

namespace Field

lemma split_append (content rest : Bytes) :
    split content.length (content ++ rest) = some (content, rest) := by
  have hle : content.length ≤ (content ++ rest).length := by
    rw [List.length_append]
    omega
  rw [split, if_pos hle, List.take_left, List.drop_left]

lemma eq_of_split {n : Nat} {b content rest : Bytes} (h : split n b = some (content, rest)) :
    b = content ++ rest ∧ content.length = n := by
  unfold split at h
  split at h
  · rename_i hle
    obtain ⟨rfl, rfl⟩ := Prod.mk.inj (Option.some.inj h)
    exact ⟨(List.take_append_drop n b).symm, List.length_take_of_le hle⟩
  · cases h

lemma local_split (n : Nat) : Local (split n) := by
  intro b content rest h
  obtain ⟨hb, rfl⟩ := eq_of_split h
  exact ⟨content, hb, split_append content⟩

/-- Reading a key takes a piece that is not empty. -/
lemma exists_piece_of_readKey {b rest : Bytes} {tag layout : Nat}
    (h : readKey b = some (tag, layout, rest)) :
    ∃ piece : Bytes, b = piece ++ rest ∧ 1 ≤ piece.length ∧
      ∀ after, readKey (piece ++ after) = some (tag, layout, after) := by
  unfold readKey at h
  obtain ⟨⟨key, rest'⟩, hkey, h⟩ := Option.bind_eq_some_iff.mp h
  obtain ⟨piece, hb, -, hlen, hafter⟩ := Varint.exists_piece_of_read hkey
  have hone := Varint.one_le_len key
  dsimp only at h
  split at h
  · rename_i hvalid
    simp only [Option.pure_def, Option.some.injEq, Prod.mk.injEq] at h
    obtain ⟨rfl, rfl, rfl⟩ := h
    refine ⟨piece, hb, by omega, fun after => ?_⟩
    rw [readKey, hafter]
    exact if_pos hvalid
  · cases h

/-- The members of a group and its end take a piece, for which as many steps are enough as it has
bytes. -/
lemma exists_piece_of_readMembers {read : Nat → Nat → Bytes → Option (Field × Bytes)}
    (hread : ∀ tag layout, Local (read tag layout)) {tag fuel : Nat} {b rest : Bytes}
    {members : List Field} (h : readMembers read tag fuel b = some (members, rest)) :
    ∃ piece : Bytes, b = piece ++ rest ∧ ∀ after fuel', piece.length ≤ fuel' →
      readMembers read tag fuel' (piece ++ after) = some (members, after) := by
  induction fuel generalizing b members with
  | zero => cases h
  | succ fuel ih =>
    rw [readMembers, Option.bind_eq_bind, Option.bind_eq_some_iff] at h
    obtain ⟨⟨t, layout, b₁⟩, hkey, h⟩ := h
    obtain ⟨key, rfl, hpos, hkeyAfter⟩ := exists_piece_of_readKey hkey
    dsimp only at h
    split at h
    · rename_i hend
      split at h
      · rename_i htag
        simp only [Option.pure_def, Option.some.injEq, Prod.mk.injEq] at h
        obtain ⟨rfl, rfl⟩ := h
        refine ⟨key, rfl, fun after fuel' hfuel => ?_⟩
        obtain ⟨fuel'', rfl⟩ : ∃ n, fuel' = n + 1 := ⟨fuel' - 1, by omega⟩
        rw [readMembers, hkeyAfter]
        simp [hend, htag]
      · cases h
    · rename_i hgoes
      obtain ⟨⟨f, b₂⟩, hvalue, h⟩ := Option.bind_eq_some_iff.mp h
      obtain ⟨⟨fs, b₃⟩, hmembers, h⟩ := Option.bind_eq_some_iff.mp h
      simp only [Option.pure_def, Option.some.injEq, Prod.mk.injEq] at h
      obtain ⟨rfl, rfl⟩ := h
      obtain ⟨value, rfl, hvalueAfter⟩ := hread t layout b₁ f b₂ hvalue
      obtain ⟨others, rfl, hothersAfter⟩ := ih hmembers
      refine ⟨key ++ value ++ others, by simp, fun after fuel' hfuel => ?_⟩
      simp only [List.length_append] at hfuel
      obtain ⟨fuel'', rfl⟩ : ∃ n, fuel' = n + 1 := ⟨fuel' - 1, by omega⟩
      have hrest := hothersAfter after fuel'' (by omega)
      simp only [List.append_assoc]
      rw [readMembers, hkeyAfter]
      simp [hgoes, hvalueAfter, hrest]

/-- By induction on the depth, since a group holds fields that lie deeper. -/
lemma local_readValue (depth tag layout : Nat) : Local (readValue depth tag layout) := by
  induction depth generalizing tag layout with
  | zero => exact fun b a rest h => nomatch h
  | succ depth ih =>
    match layout with
    | 0 => exact Varint.local_read.map (varint tag)
    | 1 => exact (local_split 8).map (fixed64 tag)
    | 2 =>
      intro b f rest h
      obtain ⟨⟨n, b₁⟩, hlength, h⟩ := Option.bind_eq_some_iff.mp h
      obtain ⟨⟨content, b₂⟩, hsplit, h⟩ := Option.bind_eq_some_iff.mp h
      simp only [Option.pure_def, Option.some.injEq, Prod.mk.injEq] at h
      obtain ⟨rfl, rfl⟩ := h
      obtain ⟨length, rfl, hlengthAfter⟩ := Varint.local_read _ _ _ hlength
      obtain ⟨rfl, rfl⟩ := eq_of_split hsplit
      refine ⟨length ++ content, (List.append_assoc ..).symm, fun after => ?_⟩
      rw [readValue, List.append_assoc, hlengthAfter]
      simp [split_append]
    | 3 =>
      intro b f rest h
      obtain ⟨⟨members, rest'⟩, hmembers, he⟩ := Option.map_eq_some_iff.mp h
      obtain ⟨rfl, rfl⟩ := Prod.mk.inj he
      obtain ⟨piece, rfl, hafter⟩ := exists_piece_of_readMembers ih hmembers
      refine ⟨piece, rfl, fun after => ?_⟩
      have henough : piece.length ≤ (piece ++ after).length := by
        rw [List.length_append]
        omega
      rw [readValue, hafter after _ henough]
      rfl
    | 4 => exact fun b a rest h => nomatch h
    | 5 => exact (local_split 4).map (fixed32 tag)
    | _ + 6 => exact fun b a rest h => nomatch h

/-! ## One field -/

/-- Reads one field, its key and its value. -/
def readField (depth : Nat) (b : Bytes) : Option (Field × Bytes) := do
  let (tag, layout, b) ← readKey b
  readValue depth tag layout b

/-- Reading a field takes a piece that is not empty. -/
lemma exists_piece_of_readField {depth : Nat} {b rest : Bytes} {f : Field}
    (h : readField depth b = some (f, rest)) :
    ∃ piece : Bytes, b = piece ++ rest ∧ 1 ≤ piece.length ∧
      ∀ after, readField depth (piece ++ after) = some (f, after) := by
  obtain ⟨⟨tag, layout, b₁⟩, hkey, hvalue⟩ := Option.bind_eq_some_iff.mp h
  obtain ⟨key, rfl, hpos, hkeyAfter⟩ := exists_piece_of_readKey hkey
  obtain ⟨value, rfl, hvalueAfter⟩ := local_readValue _ _ _ _ _ _ hvalue
  refine ⟨key ++ value, (List.append_assoc ..).symm, ?_, fun after => ?_⟩
  · rw [List.length_append]
    omega
  · rw [readField, List.append_assoc, hkeyAfter]
    exact hvalueAfter after

/-- The bytes of one field, at a depth. -/
def IsPiece (depth : Nat) (piece : Bytes) (f : Field) : Prop := readField depth piece = some (f, [])

lemma IsPiece.readField_append {depth : Nat} {piece : Bytes} {f : Field}
    (h : IsPiece depth piece f) (after : Bytes) :
    readField depth (piece ++ after) = some (f, after) := by
  obtain ⟨piece', hpiece, -, hafter⟩ := exists_piece_of_readField h
  rw [List.append_nil] at hpiece
  rw [hpiece]
  exact hafter after

/-! ## All fields -/

lemma readUpTo_succ {depth fuel : Nat} {b : Bytes} (hb : b ≠ []) :
    readUpTo depth (fuel + 1) b =
      (readField depth b).bind fun r => (readUpTo depth fuel r.2).map (r.1 :: ·) := by
  rw [readUpTo, readField]
  · cases readKey b with
    | none => rfl
    | some k =>
      simp only [Option.bind_eq_bind, Option.bind_some]
      cases readValue depth k.1 k.2.1 k.2.2 with
      | none => rfl
      | some r =>
        simp only [Option.bind_some]
        cases readUpTo depth fuel r.2 with
        | none => rfl
        | some fs => rfl
  · exact hb

/-- As many steps are enough as there are bytes, since every field takes at least one. -/
lemma readUpTo_eq_readAll {depth fuel : Nat} {b : Bytes} (h : b.length ≤ fuel) :
    readUpTo depth fuel b = readAll depth b := by
  have hsame : ∀ n fuel fuel' : Nat, ∀ b : Bytes, b.length ≤ n → n ≤ fuel → n ≤ fuel' →
      readUpTo depth fuel b = readUpTo depth fuel' b := by
    intro n
    induction n with
    | zero =>
      intro fuel fuel' b hb _ _
      rw [List.eq_nil_of_length_eq_zero (Nat.le_zero.mp hb), readUpTo, readUpTo]
    | succ n ih =>
      intro fuel fuel' b hb hfuel hfuel'
      obtain ⟨fuel, rfl⟩ : ∃ m, fuel = m + 1 := ⟨fuel - 1, by omega⟩
      obtain ⟨fuel', rfl⟩ : ∃ m, fuel' = m + 1 := ⟨fuel' - 1, by omega⟩
      by_cases hnil : b = []
      · rw [hnil, readUpTo, readUpTo]
      · rw [readUpTo_succ hnil, readUpTo_succ hnil]
        cases hfield : readField depth b with
        | none => rfl
        | some r =>
          obtain ⟨piece, rfl, hpos, -⟩ := exists_piece_of_readField hfield
          rw [List.length_append] at hb
          rw [Option.bind_some, Option.bind_some,
            ih fuel fuel' r.2 (by omega) (by omega) (by omega)]
  exact hsame b.length fuel b.length b (Nat.le_refl _) h (Nat.le_refl _)

lemma readAll_nil (depth : Nat) : readAll depth [] = some [] := by
  rw [readAll, readUpTo]

/-- The bytes of a message are read field by field. -/
lemma readAll_eq_bind {depth : Nat} {b : Bytes} (hb : b ≠ []) :
    readAll depth b =
      (readField depth b).bind fun r => (readAll depth r.2).map (r.1 :: ·) := by
  obtain ⟨n, hn⟩ : ∃ n, b.length = n + 1 :=
    ⟨b.length - 1, by have := List.length_pos_iff.mpr hb; omega⟩
  rw [readAll, hn, readUpTo_succ hb]
  cases hfield : readField depth b with
  | none => rfl
  | some r =>
    obtain ⟨piece, rfl, hpos, -⟩ := exists_piece_of_readField hfield
    rw [List.length_append] at hn
    rw [Option.bind_some, Option.bind_some, readUpTo_eq_readAll (by omega)]

/-- Reading goes on behind the piece of a field. -/
theorem readAll_piece_append {depth : Nat} {piece : Bytes} {f : Field} (h : IsPiece depth piece f)
    (b : Bytes) : readAll depth (piece ++ b) = (readAll depth b).map (f :: ·) := by
  have hne : piece ++ b ≠ [] := by
    obtain ⟨piece', hpiece, hpos, -⟩ := exists_piece_of_readField h
    rw [List.append_nil] at hpiece
    rw [← hpiece] at hpos
    intro hnil
    rw [(List.append_eq_nil_iff.mp hnil).1] at hpos
    cases hpos
  rw [readAll_eq_bind hne, h.readField_append, Option.bind_some]

/-! ## Fields as messages write them -/

/-- A tag is valid, and its keys fit into one byte. -/
def Short (tag : Nat) : Prop := 0 < tag ∧ tag < 16

instance (tag : Nat) : Decidable (Short tag) := instDecidableAnd

/-- Fields as messages write them: numbers and contents with short tags. -/
def Plain : Field → Prop
  | varint t n => Short t ∧ n < Varint.limit
  | sized t _ => Short t
  | _ => False

lemma readKey_writeKey {tag layout : Nat} (htag : Short tag) (hlayout : layout < 6)
    (after : Bytes) : readKey (writeKey tag layout ++ after) = some (tag, layout, after) := by
  obtain ⟨hpos, htag⟩ := htag
  have hfits : tag * 8 + layout < Varint.limit := Nat.lt_trans (by omega : _ < 256) (by decide)
  have hkey : tag * 8 + layout < keyLimit := Nat.lt_trans (by omega : _ < 256) (by decide)
  have htag' : (tag * 8 + layout) / 8 = tag := by omega
  have hlayout' : (tag * 8 + layout) % 8 = layout := by omega
  rw [readKey, writeKey, Varint.read_write hfits, Option.bind_eq_bind, Option.bind_some]
  dsimp only
  rw [if_pos ⟨hkey, by omega, by omega⟩, htag', hlayout']
  rfl

/-- A plain field is read back as it was written. -/
lemma isPiece_write {f : Field} (h : f.Plain) (hlen : (write f).length < Varint.limit)
    (depth : Nat) : IsPiece (depth + 1) (write f) f := by
  cases f with
  | varint t n =>
    have hvalue : Varint.read (Varint.write n) = some (n, []) := by
      simpa using Varint.read_write h.2 []
    rw [IsPiece, readField, write, readKey_writeKey h.1 (by decide)]
    simp [readValue, hvalue]
  | sized t content =>
    rw [write, List.length_append] at hlen
    have hsize : content.length < Varint.limit := by omega
    have hcontent : split content.length content = some (content, []) := by
      simpa using split_append content []
    rw [IsPiece, readField, write, List.append_assoc, readKey_writeKey h (by decide)]
    simp [readValue, Varint.read_write hsize, hcontent]
  | fixed64 t content => exact h.elim
  | group t members => exact h.elim
  | fixed32 t content => exact h.elim

/-- Plain fields are read back as they were written. -/
theorem readAll_writeAll {fs : List Field} (h : ∀ f ∈ fs, f.Plain)
    (hlen : (writeAll fs).length < Varint.limit) (depth : Nat) :
    readAll (depth + 1) (writeAll fs) = some fs := by
  induction fs with
  | nil => rw [writeAll, readAll_nil]
  | cons f fs ih =>
    rw [writeAll, List.length_append] at hlen
    have hpiece := isPiece_write (h f List.mem_cons_self) (by omega) depth
    rw [writeAll, readAll_piece_append hpiece,
      ih (fun g hg => h g (List.mem_cons_of_mem f hg)) (by omega)]
    rfl

/-! ## What fields weigh -/

/-- How many bytes a field takes at least, as far as messages keep what is in it. -/
def weight : Field → Nat
  | varint _ n => 1 + Varint.len n
  | sized _ content => 1 + prefixedLen content.length
  | _ => 0

lemma weight_readValue_le {depth tag layout : Nat} {b rest : Bytes} {f : Field}
    (h : readValue depth tag layout b = some (f, rest)) :
    f.weight + rest.length ≤ b.length + 1 := by
  have hlocal := local_readValue depth tag layout b f rest h
  have hrest : rest.length ≤ b.length := by
    obtain ⟨piece, rfl, -⟩ := hlocal
    rw [List.length_append]
    omega
  cases depth with
  | zero => cases h
  | succ depth =>
    match layout with
    | 0 =>
      obtain ⟨⟨n, rest'⟩, hread, he⟩ := Option.map_eq_some_iff.mp h
      obtain ⟨rfl, rfl⟩ := Prod.mk.inj he
      obtain ⟨piece, rfl, -, hlen, -⟩ := Varint.exists_piece_of_read hread
      simp only [weight, List.length_append]
      omega
    | 2 =>
      obtain ⟨⟨n, b₁⟩, hlength, h⟩ := Option.bind_eq_some_iff.mp h
      obtain ⟨⟨content, b₂⟩, hsplit, h⟩ := Option.bind_eq_some_iff.mp h
      simp only [Option.pure_def, Option.some.injEq, Prod.mk.injEq] at h
      obtain ⟨rfl, rfl⟩ := h
      obtain ⟨length, rfl, -, hlen, -⟩ := Varint.exists_piece_of_read hlength
      obtain ⟨rfl, rfl⟩ := eq_of_split hsplit
      simp only [weight, prefixedLen, List.length_append]
      omega
    | 1 | 3 | 5 =>
      obtain ⟨r, -, he⟩ := Option.map_eq_some_iff.mp h
      obtain ⟨rfl, rfl⟩ := Prod.mk.inj he
      simp only [weight]
      omega
    | 4 | _ + 6 => cases h

/-- What fields weigh together. -/
def totalWeight (fs : List Field) : Nat := fs.foldr (fun f total => f.weight + total) 0

/-- All fields of a message weigh no more than its bytes. -/
theorem totalWeight_le {depth : Nat} {b : Bytes} {fs : List Field}
    (h : readAll depth b = some fs) : totalWeight fs ≤ b.length := by
  induction hn : b.length using Nat.strongRecOn generalizing b fs with
  | ind n ih =>
    by_cases hnil : b = []
    · rw [hnil, readAll_nil] at h
      rw [← Option.some.inj h]
      exact Nat.zero_le n
    · rw [readAll_eq_bind hnil] at h
      obtain ⟨⟨f, rest⟩, hfield, h⟩ := Option.bind_eq_some_iff.mp h
      obtain ⟨others, hothers, rfl⟩ := Option.map_eq_some_iff.mp h
      obtain ⟨⟨tag, layout, b₁⟩, hkey, hvalue⟩ := Option.bind_eq_some_iff.mp hfield
      obtain ⟨key, rfl, hpos, -⟩ := exists_piece_of_readKey hkey
      have hweight := weight_readValue_le hvalue
      rw [List.length_append] at hn
      have hrest : rest.length < n := by
        obtain ⟨piece, hb, hpiece, -⟩ := exists_piece_of_readField hfield
        have hlength := congrArg List.length hb
        simp only [List.length_append] at hlength
        omega
      have hsum := ih rest.length hrest hothers rfl
      rw [totalWeight] at hsum ⊢
      rw [List.foldr_cons]
      dsimp only at hsum ⊢
      omega

end Field

end Wire

end StorageHealth
