import StorageHealth.Cluster.Store
import StorageHealth.Cluster.Caches
import StorageHealth.Cluster.Query

/-!
# A simulated cluster server

The server holds the objects of the cluster, each with the version of its last change.  Versions
count the changes of all kinds together.  Listings are ordered by namespace and name.
-/

namespace StorageHealth

namespace Simulation

/-! ### Reads -/

/-- How the server is read. -/
inductive Read where
  | list (query : Query)
  | watch (query : Query)
  deriving DecidableEq, Repr

/-- A read as text. -/
def Read.shown : Read → String
  | list query => "list " ++ query.shown
  | watch query => "watch " ++ query.shown

/-! ### The server -/

/-- The objects of the cluster and the last version given. -/
structure Server where
  content : ByKind List
  version : Nat

/-- How an object changes. -/
inductive Edit where
  | put
  | remove
  deriving DecidableEq, Repr

namespace Server

/-- A server without objects. -/
def empty : Server := ⟨⟨[], [], [], [], []⟩, 0⟩

/-- Whether two objects have the same place. -/
def samePlace {α : Type} [Identified α] (a b : α) : Bool :=
  decide (ObjectKey.of a = ObjectKey.of b)

/-- The order of listings. -/
def listedBefore {α : Type} [Identified α] (a b : α) : Bool :=
  ClaimKey.le ⟨(namespaceOf a).getD "", nameOf a⟩ ⟨(namespaceOf b).getD "", nameOf b⟩

/-- Changes an object: the server afterwards, and the object with its new version. -/
def edit (s : Server) (k : Kind) (e : Edit) (a : k.Object) : Server × k.Object :=
  let version := s.version + 1
  let a := withIdentity a { identity a with version := some (toString version) }
  let others := (s.content.get k).filter (fun b => !samePlace a b)
  let objects := match e with
    | .put => others ++ [a]
    | .remove => others
  (⟨s.content.set k objects, version⟩, a)

/-- The objects of a kind that a query asks for, as they are listed. -/
def list (s : Server) (q : Query) (k : Kind) : List k.Object :=
  ((s.content.get k).filter (q.selects k)).mergeSort listedBefore

end Server

end Simulation

end StorageHealth
