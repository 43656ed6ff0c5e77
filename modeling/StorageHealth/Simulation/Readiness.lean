import StorageHealth.Simulation.Stage

/-!
# Waiting for caches

Some tasks begin only when the caches they need are complete.  Such a task asks the caches in
groups, one group after the other and those of a group at the same time (`askAll`).  A cache that is
not complete calls back, once, as soon as it is complete or nobody fills it any more
(`Stage.callBack`).

A cache remembers only the task that asked last.  Whoever asked before is not called, and waits for
good unless another cache calls it.
-/

namespace StorageHealth

namespace Simulation

namespace Stage

/-! ### Asking -/

/-- Whether a cache has nothing more to tell: it is complete, or it never will be. -/
def isSettled (s : Stage) (k : Kind) : Bool := s.isReady k || decide (k ∈ s.dropped)

/-- A cache is to call a task back, and nobody else. -/
def enlist (s : Stage) (k : Kind) (task : Nat) : Stage :=
  { s with callbacks := s.callbacks.insert k task }

/-- The tasks that the settled caches call back, and the stage after that. -/
def callBack (s : Stage) : Stage × List Nat :=
  let due := s.callbacks.entries.filter (fun e => s.isSettled e.1)
  let rest := s.callbacks.entries.filter (fun e => !s.isSettled e.1)
  ({ s with callbacks := ⟨rest⟩ }, due.map Prod.snd)

/-- Only the last task to ask is on record with a cache. -/
theorem get?_callbacks_enlist (s : Stage) (k k' : Kind) (task : Nat) :
    (s.enlist k task).callbacks.get? k' = if k = k' then some task else s.callbacks.get? k' :=
  Table.get?_insert s.callbacks k k' task

end Stage

/-! ### Groups -/

/-- What a task that asked for its caches has to do: begin, give up, or wait for what it still
needs. -/
inductive Readiness where
  | complete
  | hopeless
  | waiting (needs : List (List Kind))
  deriving DecidableEq, Repr

/-- Asks the caches of one group: whether all of them are complete, or nothing as soon as one of
them never will be. -/
def askGroup (task : Nat) : List Kind → Stage → Stage × Option Bool
  | [], s => (s, some true)
  | k :: rest, s =>
    if s.isReady k then askGroup task rest s
    else if k ∈ s.dropped then (s, none)
    else
      let (s, answer) := askGroup task rest (s.enlist k task)
      (s, answer.map (fun _ => false))

/-- Asks the caches of several groups, up to the first group that is not complete. -/
def askAll (task : Nat) : List (List Kind) → Stage → Stage × Readiness
  | [], s => (s, .complete)
  | group :: rest, s =>
    match askGroup task group s with
    | (s, none) => (s, .hopeless)
    | (s, some true) => askAll task rest s
    | (s, some false) => (s, .waiting (group :: rest))

theorem askGroup_of_isReady (task : Nat) (s : Stage) (group : List Kind)
    (h : ∀ k ∈ group, s.isReady k = true) : askGroup task group s = (s, some true) := by
  induction group with
  | nil => rfl
  | cons k rest ih => simp [askGroup, h k (by simp), ih (fun k' hk => h k' (by simp [hk]))]

/-- Caches that are complete are asked once, and nobody has to be called back. -/
theorem askAll_of_isReady (task : Nat) (s : Stage) (needs : List (List Kind))
    (h : ∀ group ∈ needs, ∀ k ∈ group, s.isReady k = true) :
    askAll task needs s = (s, .complete) := by
  induction needs with
  | nil => rfl
  | cons group rest ih =>
    simp [askAll, askGroup_of_isReady task s group (h group (by simp)),
      ih (fun g hg => h g (by simp [hg]))]

end Simulation

end StorageHealth
