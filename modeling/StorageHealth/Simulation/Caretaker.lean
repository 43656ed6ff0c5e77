import StorageHealth.Simulation.Feed
import StorageHealth.Simulation.Readiness
import StorageHealth.Care

/-!
# Caretakers

A caretaker watches the objects of one kind and looks after each of them: at once when it is listed
or announced, again when its schedule says so, and for some kinds at a regular interval.  Of two
times set for one object the earlier counts.  An object is never looked after twice at the same
time, and only so many objects at once.

Deleting an object triggers nothing; the next time set for it finds it missing, or finds the object
of that name that has no namespace.
-/

namespace StorageHealth

namespace Simulation

/-! ### Caretakers -/

/-- An object that is being looked after. -/
structure Running where
  key : ObjectKey
  wakes : Nat
  rest : Rest Schedule

/-- A caretaker.  `watch` is absent until the caches it `needs` are complete; `agenda` has the time
set for each object. -/
structure Caretaker where
  care : Care
  needs : List (List Kind)
  watch : Option Watch
  store : Store care.kind.Object
  agenda : Table ObjectKey Nat
  running : List Running
  resync : Option (Nat × Span)
  stopping : Bool
  ended : Bool

namespace Caretaker

/-- A caretaker that has just been started. -/
def start (c : Conduct) (care : Care) (now : Nat) : Caretaker :=
  { care
    needs := care.needs
    watch := none
    store := Table.empty
    agenda := Table.empty
    running := []
    resync := (care.resync c).bind (fun period =>
      if period.nanos = 0 then none else some (now + period.nanos, period))
    stopping := false
    ended := false }

/-! ### The agenda -/

/-- Sets a time for an object. -/
def plan (t : Caretaker) (k : ObjectKey) (time : Nat) : Caretaker :=
  match t.agenda.get? k with
  | some earlier => if earlier ≤ time then t else { t with agenda := t.agenda.insert k time }
  | none => { t with agenda := t.agenda.insert k time }

/-- Sets a time for several objects. -/
def planAll (t : Caretaker) (ks : List ObjectKey) (time : Nat) : Caretaker :=
  ks.foldl (fun t k => t.plan k time) t

/-- Nothing is planned further ahead than half a year of thirty-day months. -/
def horizon : Span := .ofSeconds (180 * 86400)

/-- Sets the next time for an object as scheduled. -/
def follow (t : Caretaker) (k : ObjectKey) (now : Nat) : Schedule → Caretaker
  | .onChange => t
  | .after delay =>
    if t.stopping then t else t.plan k (again now ⟨min delay.nanos horizon.nanos⟩)

/-! ### Reading from the server -/

/-- Lists the objects; each of them is looked after at once. -/
def list (server : Server) (t : Caretaker) (s : Stage) : Stage × Caretaker :=
  let s := s.noteRead (.list t.care.query)
  let objects := server.list t.care.query t.care.kind
  let t := { t with watch := some .following, store := Store.ofObjects objects }
  (s.noteRead (.watch t.care.query), t.planAll (objects.map ObjectKey.of) s.now)

/-- Begins or renews the watch when it is time to.  A caretaker that was stopped before never
begins, and never ends either. -/
def openWatch (server : Server) (task : Nat) (called : Bool) (t : Caretaker) (s : Stage) :
    Stage × Caretaker :=
  match t.watch with
  | some .following => (s, t)
  | some (.listing starts) =>
    if starts ≤ s.now ∧ !t.stopping then list server t s else (s, t)
  | none =>
    if called then
      match askAll task t.needs s with
      | (s, .hopeless) => (s, { t with ended := true })
      | (s, .waiting needs) => (s, { t with needs })
      | (s, .complete) => if t.stopping then (s, t) else list server t s
    else (s, t)

/-- Tells a caretaker of a change.  Only objects that are there are looked after. -/
def learn (t : Caretaker) (k : Kind) (e : Edit) (a : k.Object) (now : Nat) : Caretaker :=
  if h : k = t.care.kind then
    if t.watch = some .following ∧ !t.stopping ∧ t.care.query.selects k a then
      let a : t.care.kind.Object := h ▸ a
      match e with
      | .put => { t with store := t.store.write a }.plan (.of a) now
      | .remove => { t with store := t.store.remove a }
    else t
  else t

/-! ### Looking after objects -/

/-- Makes every object due when the regular interval has passed.  Intervals that pass while there is
no watch are lost. -/
def resyncDue (t : Caretaker) (now : Nat) : Caretaker :=
  match t.resync with
  | none => t
  | some (next, period) =>
    if next ≤ now then
      let next := next + ((now - next) / period.nanos + 1) * period.nanos
      let t := { t with resync := some (next, period) }
      if t.watch.isSome then t.planAll (t.store.objects.map ObjectKey.of) now else t
    else t

/-- Takes the result of looking after an object. -/
def settled (t : Caretaker) (k : ObjectKey) (now : Nat) : Status Schedule → Caretaker
  | .finished schedule => t.follow k now schedule
  | .waiting wakes rest => { t with running := t.running ++ [⟨k, wakes, rest⟩] }

/-- Goes on with the objects that are being looked after. -/
def goOn (t : Caretaker) (s : Stage) : List Running → Stage × Caretaker
  | [] => (s, t)
  | r :: rest =>
    if r.wakes ≤ s.now then
      let (s, status) := settle (r.rest s) s
      goOn (t.settled r.key s.now status) s rest
    else goOn { t with running := t.running ++ [r] } s rest

/-- Whether an object may be looked after now. -/
def mayBegin (c : Conduct) (t : Caretaker) (k : ObjectKey) : Bool :=
  t.running.all (fun r => r.key ≠ k) &&
    (t.care.workers c = 0 || t.running.length < t.care.workers c)

/-- What becomes of an object that is missing: the stage afterwards, and the nodes that are gone. -/
def missing (care : Care) (k : ObjectKey) (s : Stage) : Stage × List String :=
  match care with
  | .volumes => ((settle (Volume.vanished k.name) s).1, [])
  | .pods _ => (s, [])
  | .nodes => (s, [k.name])

/-- Looks after the given objects as far as possible; the answer includes the nodes that are
gone. -/
def begin (c : Conduct) (t : Caretaker) (s : Stage) :
    List ObjectKey → Stage × Caretaker × List String
  | [] => (s, t, [])
  | k :: rest =>
    if t.mayBegin c k then
      let t := { t with agenda := t.agenda.erase k }
      match t.store.lookup? k with
      | some a =>
        let (s, status) := settle (t.care.cycle c s.now a) s
        begin c (t.settled k s.now status) s rest
      | none =>
        let (s, gone) := missing t.care k s
        let (s, t, more) := begin c t s rest
        (s, t, gone ++ more)
    else begin c t s rest

/-- The objects whose time has come, those that wait longest first. -/
def dueKeys (t : Caretaker) (now : Nat) : List ObjectKey :=
  ((t.agenda.entries.filter (fun e => e.2 ≤ now)).mergeSort (fun a b => a.2 ≤ b.2)).map Prod.fst

/-- Serves a caretaker, which has this number as a task; the answer includes the nodes that are
gone. -/
def wake (c : Conduct) (server : Server) (task : Nat) (called : Bool) (t : Caretaker) (s : Stage) :
    Stage × Caretaker × List String :=
  if t.ended then (s, t, [])
  else
    let (s, t) := openWatch server task called t s
    let t := t.resyncDue s.now
    let (s, t) := goOn { t with running := [] } s t.running
    let (s, t, gone) := if t.watch.isSome then begin c t s (t.dueKeys s.now) else (s, t, [])
    (s, { t with ended := t.ended || t.stopping && t.watch.isSome && t.running.isEmpty }, gone)

/-- Tells a caretaker to stop: nothing new is begun. -/
def stop (t : Caretaker) : Caretaker :=
  { t with stopping := true, agenda := Table.empty, resync := none }

/-- When a caretaker has to be served. -/
def due (t : Caretaker) : List Nat :=
  (if t.stopping then [] else (t.watch.map Watch.due).getD []) ++ t.agenda.values ++
    t.running.map Running.wakes ++ (t.resync.map (fun r => [r.1])).getD []

end Caretaker

end Simulation

end StorageHealth
