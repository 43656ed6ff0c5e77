import StorageHealth.Wire.Varint

/-!
# Fields

A message is a sequence of fields.  Each field starts with a key, which holds its tag and the way
its value is laid out: as a number, as four or eight bytes, as bytes with a length in front, or as
a group of fields that an end key with the same tag closes.

Reading is bounded in depth: a value inside `d` groups or messages can only be read while `d` is
below `maxDepth`.  Layouts beyond the six known ones, the tag 0, keys that do not fit 32 bits and
end keys that close nothing are refused.
-/

namespace StorageHealth

namespace Wire

/-- A field of a message, with its tag. -/
inductive Field where
  | varint (tag : Nat) (value : Nat)
  | fixed64 (tag : Nat) (content : Bytes)
  | sized (tag : Nat) (content : Bytes)
  | group (tag : Nat) (members : List Field)
  | fixed32 (tag : Nat) (content : Bytes)
  deriving Repr

namespace Field

/-- How deep messages and groups may be nested. -/
def maxDepth : Nat := 100

/-- The tag of a field. -/
def tag : Field → Nat
  | varint t _ | fixed64 t _ | sized t _ | group t _ | fixed32 t _ => t

/-! ### Keys -/

/-- The number for each layout. -/
def layout : Field → Nat
  | varint .. => 0
  | fixed64 .. => 1
  | sized .. => 2
  | group .. => 3
  | fixed32 .. => 5

/-- The layout number that closes a group. -/
def endLayout : Nat := 4

/-- Keys are numbers of 32 bits; the first that is too large. -/
def keyLimit : Nat := 4294967296

/-- Writes a key. -/
def writeKey (tag layout : Nat) : Bytes := Varint.write (tag * 8 + layout)

/-- Reads a key: the tag, the number of the layout, and what follows. -/
def readKey (b : Bytes) : Option (Nat × Nat × Bytes) := do
  let (key, rest) ← Varint.read b
  if key < keyLimit ∧ key % 8 < 6 ∧ 0 < key / 8 then return (key / 8, key % 8, rest) else none

/-! ### Values -/

/-- The first `n` bytes and what follows them, if there are that many. -/
def split (n : Nat) (b : Bytes) : Option (Bytes × Bytes) :=
  if n ≤ b.length then some (b.take n, b.drop n) else none

/-- Reads fields with `read` up to the end key of the group `tag`. -/
def readMembers (read : Nat → Nat → Bytes → Option (Field × Bytes)) (tag : Nat) :
    Nat → Bytes → Option (List Field × Bytes)
  | 0, _ => none
  | fuel + 1, b => do
    let (t, layout, b) ← readKey b
    if layout = endLayout then
      if t = tag then return ([], b) else none
    else
      let (f, b) ← read t layout b
      let (fs, b) ← readMembers read tag fuel b
      return (f :: fs, b)

/-- Reads the value behind a key while there is depth left. -/
def readValue : Nat → Nat → Nat → Bytes → Option (Field × Bytes)
  | 0, _, _, _ => none
  | depth + 1, tag, layout, b =>
    match layout with
    | 0 => (Varint.read b).map (fun r => (varint tag r.1, r.2))
    | 1 => (split 8 b).map (fun r => (fixed64 tag r.1, r.2))
    | 2 => do
      let (n, b) ← Varint.read b
      let (content, b) ← split n b
      return (sized tag content, b)
    | 3 => (readMembers (readValue depth) tag b.length b).map (fun r => (group tag r.1, r.2))
    | 5 => (split 4 b).map (fun r => (fixed32 tag r.1, r.2))
    | _ => none

/-- Reads at most `fuel` fields, which must use up all bytes. -/
def readUpTo (depth : Nat) : Nat → Bytes → Option (List Field)
  | _, [] => some []
  | 0, _ => none
  | fuel + 1, b => do
    let (tag, layout, b) ← readKey b
    let (f, b) ← readValue depth tag layout b
    let fs ← readUpTo depth fuel b
    return f :: fs

/-- Reads all fields of a message that has `depth` levels left.  Every field takes at least one
byte, so the number of bytes bounds the number of fields. -/
def readAll (depth : Nat) (b : Bytes) : Option (List Field) := readUpTo depth b.length b

/-! ### Writing -/

mutual

/-- The bytes of a field. -/
def write : Field → Bytes
  | varint t n => writeKey t 0 ++ Varint.write n
  | fixed64 t content => writeKey t 1 ++ content
  | sized t content => writeKey t 2 ++ Varint.write content.length ++ content
  | group t members => writeKey t 3 ++ writeAll members ++ writeKey t endLayout
  | fixed32 t content => writeKey t 5 ++ content

/-- The bytes of a sequence of fields. -/
def writeAll : List Field → Bytes
  | [] => []
  | f :: fs => write f ++ writeAll fs

end

theorem writeAll_append (fs gs : List Field) :
    writeAll (fs ++ gs) = writeAll fs ++ writeAll gs := by
  induction fs with
  | nil => simp [writeAll]
  | cons f fs ih => simp [writeAll, ih]

/-! ### Scalars in fields -/

/-- The low 32 bits of a number, as a signed word. -/
def int32? : Field → Option Int32
  | varint _ n => some (UInt32.ofNat n).toInt32
  | _ => none

/-- All 64 bits of a number, as a signed word. -/
def int64? : Field → Option Int64
  | varint _ n => some (UInt64.ofNat n).toInt64
  | _ => none

/-- Every number but zero is true. -/
def bool? : Field → Option Bool
  | varint _ n => some (n != 0)
  | _ => none

/-- A text must be proper UTF-8. -/
def text? : Field → Option String
  | sized _ content => String.fromUTF8? ⟨content.toArray⟩
  | _ => none

/-- The field for a 64-bit number; zero is not written. -/
def ofInt64 (tag : Nat) (n : Int64) : List Field :=
  if n = 0 then [] else [varint tag n.toUInt64.toNat]

/-- The field for a 32-bit number, with its sign extended; zero is not written. -/
def ofInt32 (tag : Nat) (n : Int32) : List Field := ofInt64 tag n.toInt64

/-- The field for a truth value; false is not written. -/
def ofBool (tag : Nat) (b : Bool) : List Field := if b then [varint tag 1] else []

/-- The field for a text as a member of a list, which is written even when it is empty. -/
def ofMember (tag : Nat) (s : String) : Field := sized tag s.toUTF8.data.toList

/-- The field for a text; the empty one is not written. -/
def ofText (tag : Nat) (s : String) : List Field := if s = "" then [] else [ofMember tag s]

end Field

end Wire

end StorageHealth
