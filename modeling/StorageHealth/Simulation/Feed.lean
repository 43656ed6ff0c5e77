import StorageHealth.Simulation.Stage

/-!
# Watches

Whoever watches the server first lists, then learns of every change.  When the watch expires it
lists again after a pause.  A `Feed` is the watch that keeps the cache of one kind.
-/

namespace StorageHealth

namespace Simulation

/-- The state of a watch: it is about to list, or it learns of changes. -/
inductive Watch where
  | listing (starts : Nat)
  | following
  deriving DecidableEq, Repr

namespace Watch

/-- How long an expired watch pauses. -/
def pause : Span := .ofSeconds 1

/-- An expired watch lists again. -/
def expire (w : Watch) (now : Nat) : Watch :=
  match w with
  | .following => .listing (now + pause.nanos)
  | w => w

/-- When the watch has to be served. -/
def due : Watch → List Nat
  | .listing starts => [starts]
  | .following => []

end Watch

/-- The watch behind a cache. -/
structure Feed where
  query : Query
  watch : Watch

namespace Feed

/-- Serves a feed. -/
def wake (server : Server) (f : Feed) (s : Stage) : Stage × Feed :=
  match f.watch with
  | .following => (s, f)
  | .listing starts =>
    if starts ≤ s.now then
      let s := (s.noteRead (.list f.query)).observe f.query.kind
        (Informer.listing (server.list f.query f.query.kind))
      (s.noteRead (.watch f.query), { f with watch := .following })
    else (s, f)

/-- Tells a feed of a change. -/
def learn (f : Feed) (k : Kind) (e : Edit) (a : k.Object) (s : Stage) : Stage :=
  if f.watch = .following ∧ f.query.selects k a then
    s.observe k [match e with
      | .put => .apply a
      | .remove => .delete a]
  else s

end Feed

end Simulation

end StorageHealth
