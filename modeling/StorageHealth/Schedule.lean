import StorageHealth.Span

/-!
# When to look again

Every time an object was looked after, it is decided when to do so again: only after it changed, or
also after some time.
-/

namespace StorageHealth

/-- When an object is looked after again. -/
inductive Schedule where
  | onChange
  | after (delay : Span)
  deriving DecidableEq, Repr

end StorageHealth
