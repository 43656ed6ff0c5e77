import StorageHealth.Cluster.Object

/-!
# One of each kind

`ByKind F` has an `F` for each kind of object, such as an informer or a list.  A kind that is only
known at run time selects its part with `get` and replaces it with `set`.
-/

namespace StorageHealth

/-- Something for each kind of object. -/
structure ByKind (F : Type → Type) where
  volumes : F Volume
  claims : F Claim
  pods : F Pod
  nodes : F Node
  events : F Event

namespace ByKind

variable {F : Type → Type}

/-- The part of a kind. -/
def get (b : ByKind F) : (k : Kind) → F k.Object
  | .volume => b.volumes
  | .claim => b.claims
  | .pod => b.pods
  | .node => b.nodes
  | .event => b.events

/-- Replaces the part of a kind. -/
def set (b : ByKind F) : (k : Kind) → F k.Object → ByKind F
  | .volume, x => { b with volumes := x }
  | .claim, x => { b with claims := x }
  | .pod, x => { b with pods := x }
  | .node, x => { b with nodes := x }
  | .event, x => { b with events := x }

@[simp] theorem get_set_self (b : ByKind F) (k : Kind) (x : F k.Object) :
    (b.set k x).get k = x := by
  cases k <;> rfl

theorem get_set_of_ne (b : ByKind F) {k k' : Kind} (h : k ≠ k') (x : F k.Object) :
    (b.set k x).get k' = b.get k' := by
  cases k <;> cases k' <;> first | rfl | exact absurd rfl h

end ByKind

end StorageHealth
