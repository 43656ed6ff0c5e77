import StorageHealth.Wire.Field

/-!
# Messages

A type of messages says which fields a message consists of and how one more field changes it.  The
rest is the same for all of them: a message is written as the bytes of its fields, and read by
merging the fields into the blank message from left to right.

So a field that occurs twice keeps its last value, a part that occurs twice is merged, and fields
with unknown tags change nothing.
-/

namespace StorageHealth

namespace Wire

/-- A type of messages.  `merge depth v f` is the message `v` after the field `f`, when messages
inside it have `depth` levels left. -/
class Message (α : Type) where
  blank : α
  fields : α → List Field
  merge : Nat → α → Field → Option α

namespace Message

variable {α β : Type} [Message α] [Message β]

/-- The bytes of a message. -/
def encode (v : α) : Bytes := Field.writeAll (fields v)

/-- A message with further fields merged into it. -/
def mergeAll (depth : Nat) (v : α) (fs : List Field) : Option α := fs.foldlM (merge depth) v

/-- A message with the fields in `b` merged into it. -/
def readInto (depth : Nat) (v : α) (b : Bytes) : Option α :=
  (Field.readAll depth b).bind (mergeAll depth v)

/-- Reads a message. -/
def decode (b : Bytes) : Option α := readInto Field.maxDepth blank b

/-- A message inside a message, merged into the one that is there. -/
def readPart (depth : Nat) (start : α) : Field → Option α
  | .sized _ content =>
    match depth with
    | 0 => none
    | depth + 1 => readInto depth start content
  | _ => none

/-- The field for a message inside a message. -/
def part (tag : Nat) (v : α) : Field := .sized tag (encode v)

/-- The field for a message that may be absent; a blank one is written. -/
def optionalPart (tag : Nat) (v : Option α) : List Field := (v.map (part tag)).toList

end Message

end Wire

end StorageHealth
