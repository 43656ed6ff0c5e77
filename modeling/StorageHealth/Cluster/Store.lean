import StorageHealth.Table
import StorageHealth.Cluster.Object

/-!
# Object stores

A store holds the objects of one kind under their namespace and name.  A look-up that finds
nothing in a namespace is tried again without one, so an object stored without a namespace answers
for all of them (`Store.lookup?`); `Store.stored?` does not fall back.
-/

namespace StorageHealth

/-- Where an object is stored. -/
structure ObjectKey where
  name : String
  ns : Option String
  deriving DecidableEq, Repr

/-- The key of an object. -/
def ObjectKey.of {α : Type} [Identified α] (a : α) : ObjectKey := ⟨nameOf a, namespaceOf a⟩

/-- The key of a name inside a namespace. -/
def ObjectKey.within (ns name : String) : ObjectKey := ⟨name, some ns⟩

/-- The key of a name without a namespace. -/
def ObjectKey.unscoped (name : String) : ObjectKey := ⟨name, none⟩

/-- The objects of one kind. -/
abbrev Store (α : Type) := Table ObjectKey α

namespace Store

variable {α : Type}

/-- The object stored under exactly this key. -/
def stored? (s : Store α) (k : ObjectKey) : Option α := Table.get? s k

/-- The object stored under a key, or else the one stored under its name alone. -/
def lookup? (s : Store α) (k : ObjectKey) : Option α :=
  (s.stored? k).or (s.stored? (.unscoped k.name))

/-- Stores an object under its own key. -/
def write [Identified α] (s : Store α) (a : α) : Store α := Table.insert s (.of a) a

/-- Removes the object with the key of `a`. -/
def remove [Identified α] (s : Store α) (a : α) : Store α := Table.erase s (.of a)

/-- The store that results from writing the objects one after the other. -/
def ofObjects [Identified α] (objects : List α) : Store α :=
  objects.foldl write Table.empty

/-- All objects. -/
def objects (s : Store α) : List α := Table.values s

theorem stored?_write [Identified α] (s : Store α) (a : α) (k : ObjectKey) :
    (s.write a).stored? k = if .of a = k then some a else s.stored? k :=
  Table.get?_insert s _ k a

theorem stored?_remove [Identified α] (s : Store α) (a : α) (k : ObjectKey) :
    (s.remove a).stored? k = if .of a = k then none else s.stored? k :=
  Table.get?_erase s _ k

theorem lookup?_write_self [Identified α] (s : Store α) (a : α) :
    (s.write a).lookup? (.of a) = some a := by
  simp [lookup?, stored?_write]

end Store

end StorageHealth
