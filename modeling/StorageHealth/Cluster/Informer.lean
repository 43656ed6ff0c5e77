import StorageHealth.Cluster.Store

/-!
# Informers

An informer keeps a store in step with a watch and says what changed.  A watch either applies or
deletes single objects, or lists all of them again: such a list starts with `init`, names objects
with `initApply`, and takes effect as a whole with `initDone`.

The store itself is kept by a `Writer`, which collects the objects of a list in a buffer and puts
the buffer in the place of the store when the list is done.  The informer has no access to the
buffer.  It remembers for itself what is listed, and compares the store before the list with the
store after it.  Every object that it remembers is reported in the order of the list, as an update
if it was there before and as an addition otherwise; each earlier object answers for one listing
only.  What was there before and was never listed is reported as deleted at the end.
-/

namespace StorageHealth

/-- What a watch says. -/
inductive WatchEvent (α : Type) where
  | apply (object : α)
  | delete (object : α)
  | init
  | initApply (object : α)
  | initDone
  deriving Repr

/-- A change of a stored object. -/
inductive Change (α : Type) where
  | added (object : α)
  | updated (old new : α)
  | deleted (object : α)
  deriving DecidableEq, Repr

/-- A store, the objects that the next store will have, and whether any list was completed yet. -/
structure Writer (α : Type) where
  store : Store α
  buffer : Store α
  ready : Bool

namespace Writer

variable {α : Type}

/-- A writer that has not seen anything. -/
def fresh : Writer α := ⟨Table.empty, Table.empty, false⟩

/-- Follows one watch event. -/
def follow [Identified α] (w : Writer α) : WatchEvent α → Writer α
  | .apply a => { w with store := w.store.write a }
  | .delete a => { w with store := w.store.remove a }
  | .init => { w with buffer := Table.empty }
  | .initApply a => { w with buffer := w.buffer.write a }
  | .initDone => ⟨w.buffer, Table.empty, true⟩

end Writer

/-- A writer, and the objects of the list that is going on, if there is one. -/
structure Informer (α : Type) extends Writer α where
  relist : Option (List α)

namespace Informer

variable {α : Type}

/-- An informer that has not seen anything. -/
def fresh : Informer α := ⟨.fresh, none⟩

instance : Inhabited (Informer α) := ⟨fresh⟩

/-- The objects that were listed since the last list was begun or completed. -/
def listed (i : Informer α) : List α := i.relist.getD []

variable [Identified α]

/-- The changes that a list makes known: `previous` are the earlier objects that no listing has
answered for yet, `current` is the store after the list. -/
def relistChanges (current : Store α) : Store α → List α → List (Change α)
  | previous, [] => previous.objects.map .deleted
  | previous, a :: rest =>
    let new := (current.lookup? (.of a)).getD a
    match previous.stored? (.of a) with
    | some old => .updated old new :: relistChanges current (Table.erase previous (.of a)) rest
    | none => .added new :: relistChanges current (Table.erase previous (.of a)) rest

/-- Follows one watch event: the informer afterwards and the changes it reports. -/
def observe (i : Informer α) (e : WatchEvent α) : Informer α × List (Change α) :=
  let writer := i.toWriter.follow e
  match e with
  | .apply a =>
    let new := (writer.store.lookup? (.of a)).getD a
    let change := match i.store.lookup? (.of a) with
      | some old => Change.updated old new
      | none => Change.added new
    (⟨writer, i.relist⟩, [change])
  | .delete a => (⟨writer, i.relist⟩, [.deleted ((i.store.lookup? (.of a)).getD a)])
  | .init => (⟨writer, some []⟩, [])
  | .initApply a => (⟨writer, some (i.listed ++ [a])⟩, [])
  | .initDone => (⟨writer, none⟩, relistChanges writer.store i.store i.listed)

/-- Follows a sequence of watch events; the changes are in order. -/
def observeAll (i : Informer α) : List (WatchEvent α) → Informer α × List (Change α)
  | [] => (i, [])
  | e :: rest =>
    let (i, changes) := i.observe e
    let (i, more) := i.observeAll rest
    (i, changes ++ more)

/-- The watch events that list the given objects. -/
def listing (objects : List α) : List (WatchEvent α) :=
  .init :: objects.map .initApply ++ [.initDone]

/-- An informer that has listed the given objects. -/
def holding (objects : List α) : Informer α := (fresh.observeAll (listing objects)).1

/-! ### What each event does -/

@[simp] theorem store_observe_apply (i : Informer α) (a : α) :
    (i.observe (.apply a)).1.store = i.store.write a := rfl

@[simp] theorem store_observe_delete (i : Informer α) (a : α) :
    (i.observe (.delete a)).1.store = i.store.remove a := rfl

@[simp] theorem observe_init (i : Informer α) :
    i.observe .init = (⟨i.toWriter.follow .init, some []⟩, []) := rfl

@[simp] theorem observe_initApply (i : Informer α) (a : α) :
    i.observe (.initApply a) = (⟨i.toWriter.follow (.initApply a), some (i.listed ++ [a])⟩, []) :=
  rfl

@[simp] theorem store_observe_initDone (i : Informer α) :
    (i.observe .initDone).1.store = i.buffer := rfl

end Informer

end StorageHealth
