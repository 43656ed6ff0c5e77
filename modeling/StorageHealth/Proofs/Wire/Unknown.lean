import StorageHealth.Proofs.Wire.RoundTrip

/-!
# Fields that a message does not declare

A driver may send more than the monitor knows.  `Trims` relates the bytes of a message to what is
left when fields with undeclared tags are taken out, at the top and inside the messages that it
holds, where the numbers of the enclosing lengths follow.  `MessageKind.decode_of_trims` says that
this makes no difference to what is read.
-/

namespace StorageHealth

namespace Wire

open StorageHealth.Wire.Field StorageHealth.Wire.Message

/-! ## Field by field -/

/-- A field is merged before all that stands behind it is read. -/
lemma readInto_piece_append {α : Type} [Message α] {depth : Nat} {piece : Bytes} {f : Field}
    (h : IsPiece depth piece f) (v : α) (b : Bytes) :
    readInto depth v (piece ++ b) = (merge depth v f).bind fun w => readInto depth w b := by
  unfold readInto
  rw [readAll_piece_append h]
  cases readAll depth b with
  | none => cases merge depth v f <;> rfl
  | some fs => rfl

/-- A key, the number of a length and that many bytes are a field, however the number is written. -/
lemma isPiece_sized {depth tag : Nat} {key number content : Bytes}
    (hkey : readKey key = some (tag, 2, []))
    (hnumber : Varint.read number = some (content.length, [])) :
    IsPiece (depth + 1) (key ++ (number ++ content)) (.sized tag content) := by
  obtain ⟨key', hkey', -, hkeyAfter⟩ := exists_piece_of_readKey hkey
  obtain ⟨number', hnumber', hnumberAfter⟩ := Varint.local_read _ _ _ hnumber
  rw [List.append_nil] at hkey' hnumber'
  rw [← hkey'] at hkeyAfter
  rw [← hnumber'] at hnumberAfter
  have hcontent := split_append content []
  rw [List.append_nil] at hcontent
  rw [IsPiece, readField, hkeyAfter]
  simp [readValue, hnumberAfter, hcontent]

namespace MessageKind

/-- The tags of a lawful type are those that the catalog declares. -/
lemma tags_eq (k : MessageKind) : Lawful.tags k.Value = k.declared.map Prod.fst := by
  cases k <;> rfl

lemma merge_of_not_declares {k : MessageKind} {f : Field} (hf : ¬ k.Declares f.tag) (depth : Nat)
    (v : k.Value) : merge depth v f = some v := by
  refine Lawful.merge_of_not_mem depth v f ?_
  rw [tags_eq]
  exact hf

/-- Of a message that it holds, a message takes no more than what is read from it. -/
lemma merge_sized_congr {k part : MessageKind} {tag : Nat} (hpart : (tag, some part) ∈ k.declared)
    {depth : Nat} {content content' : Bytes}
    (h : ∀ start : part.Value, readInto depth start content' = readInto depth start content)
    (v : k.Value) :
    merge (depth + 1) v (.sized tag content') = merge (depth + 1) v (.sized tag content) := by
  -- at most two tags of a message hold messages
  cases k <;> simp only [declared, List.mem_cons, List.not_mem_nil, or_false, Prod.mk.injEq,
    Option.some.injEq, reduceCtorEq, and_false, false_or] at hpart
  all_goals
    first
    | (rcases hpart with ⟨rfl, rfl⟩ | ⟨rfl, rfl⟩ <;> exact congrArg (Option.map _) (h _))
    | (obtain ⟨rfl, rfl⟩ := hpart
       exact congrArg (Option.map _) (h _))

/-! ## Taking out fields -/

/-- What is left of the bytes of a message when fields with undeclared tags are taken out.  A
message that it holds may lose such fields as well; then the number of its length is written
anew. -/
inductive Trims : Nat → MessageKind → Bytes → Bytes → Prop
  | nil {depth : Nat} {k : MessageKind} : Trims depth k [] []
  | keep {depth : Nat} {k : MessageKind} {piece b b' : Bytes} {f : Field}
      (hpiece : IsPiece depth piece f) (h : Trims depth k b b') :
      Trims depth k (piece ++ b) (piece ++ b')
  | drop {depth : Nat} {k : MessageKind} {piece b b' : Bytes} {f : Field}
      (hpiece : IsPiece depth piece f) (hf : ¬ k.Declares f.tag) (h : Trims depth k b b') :
      Trims depth k (piece ++ b) b'
  | inside {depth tag : Nat} {k part : MessageKind}
      {key number number' content content' b b' : Bytes}
      (hpart : (tag, some part) ∈ k.declared) (hkey : readKey key = some (tag, 2, []))
      (hnumber : Varint.read number = some (content.length, []))
      (hnumber' : Varint.read number' = some (content'.length, []))
      (hcontent : Trims depth part content content') (h : Trims (depth + 1) k b b') :
      Trims (depth + 1) k (key ++ (number ++ content) ++ b) (key ++ (number' ++ content') ++ b')

/-- Whatever a message is read into, the fields that are taken out make no difference.  By induction
on the fields; inside a message the same is known for the message that holds it. -/
lemma readInto_of_trims {depth : Nat} {k : MessageKind} {b b' : Bytes} (h : Trims depth k b b') :
    ∀ v : k.Value, readInto depth v b' = readInto depth v b := by
  induction h with
  | nil => exact fun v => rfl
  | keep hpiece h ih =>
    intro v
    rw [readInto_piece_append hpiece, readInto_piece_append hpiece]
    exact congrArg _ (funext ih)
  | drop hpiece hf h ih =>
    intro v
    rw [readInto_piece_append hpiece, merge_of_not_declares hf, Option.bind_some]
    exact ih v
  | inside hpart hkey hnumber hnumber' hcontent h ihcontent ih =>
    intro v
    rw [readInto_piece_append (isPiece_sized hkey hnumber'),
      readInto_piece_append (isPiece_sized hkey hnumber), merge_sized_congr hpart ihcontent v]
    exact congrArg _ (funext ih)

/-- What is left when fields with undeclared tags are taken out reads the same. -/
lemma decode_of_trims {k : MessageKind} {b b' : Bytes} (h : Trims maxDepth k b b') :
    (decode b' : Option k.Value) = decode b := readInto_of_trims h blank

/-- Bytes that consist of fields are those of which nothing may be taken out. -/
lemma trims_self_iff {depth : Nat} {k : MessageKind} {b : Bytes} :
    Trims depth k b b ↔ ∃ fs, readAll depth b = some fs := by
  constructor
  · intro h
    have hread : ∀ {depth : Nat} {k : MessageKind} {b b' : Bytes}, Trims depth k b b' →
        ∃ fs, readAll depth b = some fs := by
      intro depth k b b' h
      induction h with
      | nil => exact ⟨[], readAll_nil _⟩
      | keep hpiece h ih | drop hpiece hf h ih =>
        obtain ⟨fs, hfs⟩ := ih
        exact ⟨_, by rw [readAll_piece_append hpiece, hfs, Option.map_some]⟩
      | inside hpart hkey hnumber hnumber' hcontent h ihcontent ih =>
        obtain ⟨fs, hfs⟩ := ih
        exact ⟨_, by rw [readAll_piece_append (isPiece_sized hkey hnumber), hfs, Option.map_some]⟩
    exact hread h
  · rintro ⟨fs, hfs⟩
    induction fs generalizing b with
    | nil =>
      by_cases hb : b = []
      · rw [hb]
        exact .nil
      · rw [readAll_eq_bind hb] at hfs
        obtain ⟨r, -, hrest⟩ := Option.bind_eq_some_iff.mp hfs
        obtain ⟨gs, -, hcons⟩ := Option.map_eq_some_iff.mp hrest
        cases hcons
    | cons f fs ih =>
      have hb : b ≠ [] := by
        intro hb
        rw [hb, readAll_nil] at hfs
        cases hfs
      rw [readAll_eq_bind hb] at hfs
      obtain ⟨⟨g, rest⟩, hfield, hrest⟩ := Option.bind_eq_some_iff.mp hfs
      obtain ⟨gs, hgs, hcons⟩ := Option.map_eq_some_iff.mp hrest
      obtain ⟨rfl, rfl⟩ := List.cons.inj hcons
      obtain ⟨piece, rfl, -, hafter⟩ := exists_piece_of_readField hfield
      have hpiece : IsPiece depth piece g := by
        have hend := hafter []
        rwa [List.append_nil] at hend
      exact .keep hpiece (ih hgs)

end MessageKind

end Wire

end StorageHealth
