import StorageHealth.Wire.Schema

/-!
# Lengths of messages

How long a message will be when it is written, found from its fields alone.  A number takes one byte
for every seven bits, a field its key and its value, and a message inside a message its key, the
number of its length, and its own length.
-/

namespace StorageHealth

namespace Wire

/-- How many bytes a number takes, found from the position of its highest bit. -/
def Varint.len (n : Nat) : Nat := (n.log2 * 9 + 73) / 64

namespace Field

/-- How many bytes the key of a field takes. -/
def keyLen (tag : Nat) : Nat := Varint.len (tag * 8)

/-- How many bytes some content takes together with the number of its length. -/
def prefixedLen (size : Nat) : Nat := Varint.len size + size

/-- How many bytes a 64-bit number takes as a field. -/
def int64Len (tag : Nat) (n : Int64) : Nat :=
  if n = 0 then 0 else keyLen tag + Varint.len n.toUInt64.toNat

/-- How many bytes a 32-bit number takes as a field. -/
def int32Len (tag : Nat) (n : Int32) : Nat := int64Len tag n.toInt64

/-- How many bytes a truth value takes as a field. -/
def boolLen (tag : Nat) (b : Bool) : Nat := if b then keyLen tag + 1 else 0

/-- How many bytes a text takes as a field. -/
def textLen (tag : Nat) (s : String) : Nat :=
  if s = "" then 0 else keyLen tag + prefixedLen s.utf8ByteSize

/-- How many bytes the texts of a list take as fields. -/
def textsLen (tag : Nat) (l : List String) : Nat :=
  keyLen tag * l.length + l.foldr (fun s total => prefixedLen s.utf8ByteSize + total) 0

end Field

/-- A type of messages with the lengths that its values take. -/
class Measured (α : Type) where
  encodedLen : α → Nat

namespace Measured

variable {α : Type} [Measured α]

/-- How many bytes a message inside a message takes as a field. -/
def partLen (tag : Nat) (v : α) : Nat := Field.keyLen tag + Field.prefixedLen (encodedLen v)

/-- How many bytes a message that may be absent takes as a field. -/
def optionalLen (tag : Nat) : Option α → Nat
  | none => 0
  | some v => partLen tag v

/-- How many bytes the messages of a list take as fields. -/
def partsLen (tag : Nat) (l : List α) : Nat :=
  Field.keyLen tag * l.length + l.foldr (fun v total => Field.prefixedLen (encodedLen v) + total) 0

end Measured

open StorageHealth.Wire.Field StorageHealth.Wire.Measured

instance : Measured EmptyRequest where
  encodedLen _ := 0

instance : Measured PluginInfo where
  encodedLen v := textLen 1 v.name + textLen 2 v.vendorVersion

instance : Measured Feature where
  encodedLen v := int32Len 1 v.number

instance : Measured Capability where
  encodedLen v := optionalLen 1 v.feature

instance : Measured CapabilityList where
  encodedLen v := partsLen 1 v.capabilities

instance : Measured VolumeInfo where
  encodedLen v := int64Len 1 v.capacity + textLen 2 v.id

instance : Measured Condition where
  encodedLen v := boolLen 1 v.abnormal + textLen 2 v.message

instance : Measured VolumeStatus where
  encodedLen v := textsLen 1 v.publishedNodes + optionalLen 2 v.condition

instance : Measured VolumeEntry where
  encodedLen v := optionalLen 1 v.volume + optionalLen 2 v.status

instance : Measured ListRequest where
  encodedLen v := int32Len 1 v.maxEntries + textLen 2 v.startingToken

instance : Measured ListPage where
  encodedLen v := partsLen 1 v.entries + textLen 2 v.nextToken

instance : Measured VolumeRequest where
  encodedLen v := textLen 1 v.volumeId

instance : Measured StatsRequest where
  encodedLen v := textLen 1 v.volumeId + textLen 2 v.volumePath + textLen 3 v.stagingPath

instance : Measured StatsReply where
  encodedLen v := optionalLen 2 v.condition

end Wire

end StorageHealth
