import StorageHealth.Simulation.Caretaker
import StorageHealth.Simulation.Sweeper
import StorageHealth.Simulation.Deletion

/-!
# A whole monitor on a virtual clock

The `World` is a monitor with its scripted surroundings and the tasks that run in the background.
The clock stands still until it is told to move on.  At every moment at which some task is due, all
tasks are served (`World.serve`): the feeds first, then the others in the order in which they were
started, and last the handling of nodes that were found to be gone.  A task that waits for caches
does something only after a cache has called it.

`World.elapse` lets the clock run, `World.run` runs a process in the foreground while the tasks go
on in the background.
-/

namespace StorageHealth

namespace Simulation

/-! ### Tasks -/

/-- What runs in the background. -/
inductive Job where
  | feed (feed : Feed) (ended : Bool)
  | sweeper (sweeper : Sweeper)
  | caretaker (caretaker : Caretaker)
  | deletion (deletion : Deletion)

namespace Job

/-- The handling of a deleted node. -/
def deleted (node : String) : Job := .deletion ⟨node, .starting⟩

/-- Whether a job feeds a cache. -/
def isFeed : Job → Bool
  | feed .. => true
  | _ => false

/-- Whether a job has come to its end. -/
def hasEnded : Job → Bool
  | feed _ ended => ended
  | sweeper .ended => true
  | sweeper _ => false
  | caretaker t => t.ended
  | deletion d =>
    match d.phase with
    | .ended => true
    | _ => false

/-- When a job has to be served. -/
def due : Job → List Nat
  | feed f ended => if ended then [] else f.watch.due
  | sweeper x => x.due
  | caretaker t => if t.ended then [] else t.due
  | deletion d => d.due

/-- Tells a job to stop. -/
def stop : Job → Job
  | feed f _ => feed f true
  | sweeper x => sweeper x
  | caretaker t => caretaker t.stop
  | deletion d => deletion d

end Job

/-- A job with its number and the name under which its end is told, if it is.  `called` tells it
that a cache has called, or that it may ask the caches for the first time. -/
structure Task where
  number : Nat
  label : Option String
  job : Job
  cancelled : Bool
  called : Bool

/-- A task that has just been started. -/
def Task.fresh (label : Option String) (number : Nat) (job : Job) : Task :=
  ⟨number, label, job, false, true⟩

/-! ### The world -/

/-- A monitor, its surroundings and what runs in the background.  `started` counts the tasks. -/
structure World where
  conduct : Conduct
  stage : Stage
  server : Server
  started : Nat
  tasks : List Task

namespace World

/-- The surroundings that the tasks of a world share. -/
structure Setting where
  conduct : Conduct
  server : Server

/-- The setting of a world. -/
def setting (w : World) : Setting := ⟨w.conduct, w.server⟩

/-- Serves a task; the answer includes the nodes that are gone. -/
def wake (e : Setting) (task : Task) (s : Stage) : Stage × Task × List String :=
  let t := { task with called := false }
  match t.job with
  | .feed _ true => (s, t, [])
  | .feed f false =>
    let (s, f) := f.wake e.server s
    (s, { t with job := .feed f false }, [])
  | .sweeper x =>
    let (s, x) := x.wake e.conduct t.number task.called t.cancelled s
    (s, { t with job := .sweeper x }, [])
  | .caretaker x =>
    let (s, x, gone) := x.wake e.conduct e.server t.number task.called s
    (s, { t with job := .caretaker x }, gone)
  | .deletion d =>
    let (s, d) := d.wake e.conduct t.cancelled s
    (s, { t with job := .deletion d }, [])

/-- Serves those of some tasks that are chosen. -/
def wakeAll (e : Setting) (chosen : Job → Bool) :
    List Task → Stage → Stage × List Task × List String
  | [], s => (s, [], [])
  | t :: rest, s =>
    let (s, t, gone) := if chosen t.job then wake e t s else (s, t, [])
    let (s, rest, more) := wakeAll e chosen rest s
    (s, t :: rest, gone ++ more)

/-- Tells the tasks which of them the caches have called. -/
def passOn (called : List Nat) (tasks : List Task) : List Task :=
  tasks.map (fun t => { t with called := t.called || called.contains t.number })

/-- Serves all tasks at this moment. -/
def serve (w : World) : World :=
  let (s, tasks, _) := wakeAll w.setting Job.isFeed w.tasks w.stage
  let (s, called) := s.callBack
  let (s, tasks, gone) := wakeAll w.setting (fun j => !j.isFeed) (passOn called tasks) s
  let spawned := gone.zipIdx.map (fun x => Task.fresh none (w.started + x.2) (.deleted x.1))
  let (s, spawned, _) := wakeAll w.setting (fun _ => true) spawned s
  { w with stage := s, tasks := tasks ++ spawned, started := w.started + gone.length }

/-! ### The clock -/

/-- The next moment after `now` at which some task is due. -/
def nextDue (w : World) (now : Nat) : Option Nat :=
  ((w.tasks.flatMap (fun t => t.job.due)).filter (now < ·)).min?

/-- Sets the clock. -/
def atTime (w : World) (now : Nat) : World := { w with stage := { w.stage with now } }

/-- Serves all tasks at every moment from `now` up to the limit, at which the clock stops before
anything is served. -/
def serveUntil (limit now : Nat) (w : World) : World :=
  let w := (w.atTime now).serve
  match w.nextDue now with
  | some next =>
    if now < next ∧ next < limit then serveUntil limit next w else w.atTime limit
  | none => w.atTime limit
termination_by limit - now

/-- Lets time pass.  What is due at the end is left to whoever acts next, so that a process in the
foreground goes on before the tasks in the background do. -/
def elapse (w : World) (length : Span) : World :=
  if length.nanos = 0 then w else serveUntil (w.stage.now + length.nanos) w.stage.now w

/-- Runs a process in the foreground. -/
def run {α : Type} : Process α → World → World × α
  | .done a, w => (w, a)
  | .ask e next, w =>
    let (s, wait, answer) := w.stage.answer e
    let w := elapse { w with stage := s } wait
    run (next (answer w.stage)) w

/-! ### What may happen to a world -/

/-- A world with nothing in it. -/
def fresh (c : Conduct) : World :=
  ⟨c, ⟨0, .fresh c, [], Table.empty, .silent, .willing, .blank⟩, .empty, 0, []⟩

/-- Changes the monitor. -/
def updateMonitor (w : World) (f : Monitor → Monitor) : World :=
  { w with stage := { w.stage with monitor := f w.stage.monitor } }

/-- Lets the monitor take in a watch event in the foreground. -/
def observe (w : World) (k : Kind) (e : WatchEvent k.Object) : World × List (Change k.Object) :=
  let (monitor, changes) := w.stage.monitor.observe k e
  ({ w with stage := { w.stage with monitor } }, changes)

/-- Starts a task. -/
def start (w : World) (label : Option String) (job : Job) : World :=
  serve { w with
    tasks := w.tasks ++ [Task.fresh label w.started job]
    started := w.started + 1 }

/-- Nobody fills the cache of a kind any more. -/
def drop (w : World) (k : Kind) : World :=
  serve { w with stage := { w.stage with dropped := k :: w.stage.dropped } }

/-- Changes the server without telling anybody. -/
def editSilently (w : World) (k : Kind) (e : Edit) (a : k.Object) : World × k.Object :=
  let (server, a) := w.server.edit k e a
  ({ w with server }, a)

/-- Tells the watches of a change. -/
def tell (k : Kind) (e : Edit) (a : k.Object) (s : Stage) : List Task → Stage × List Task
  | [] => (s, [])
  | t :: rest =>
    let (s, t) := match t.job with
      | .feed f false => (f.learn k e a s, t)
      | .caretaker x => (s, { t with job := .caretaker (x.learn k e a s.now) })
      | _ => (s, t)
    let (s, rest) := tell k e a s rest
    (s, t :: rest)

/-- Changes the server. -/
def edit (w : World) (k : Kind) (e : Edit) (a : k.Object) : World :=
  let (w, a) := w.editSilently k e a
  let (stage, tasks) := tell k e a w.stage w.tasks
  serve { w with stage, tasks }

/-- Ends all watches of a kind. -/
def expire (w : World) (k : Kind) : World :=
  let expired (t : Task) : Task :=
    match t.job with
    | .feed f false =>
      if f.query.kind = k then
        { t with job := .feed { f with watch := f.watch.expire w.stage.now } false }
      else t
    | .caretaker x =>
      if x.care.kind = k then
        { t with
          job := .caretaker { x with watch := x.watch.map (fun y => y.expire w.stage.now) } }
      else t
    | _ => t
  serve { w with tasks := w.tasks.map expired }

/-- Tells all tasks to stop. -/
def stop (w : World) : World :=
  serve { w with tasks := w.tasks.map (fun t => { t with job := t.job.stop, cancelled := true }) }

/-- Lets the clock run and serves what is due on the way and at the end. -/
def advance (w : World) (length : Span) : World := (w.elapse length).serve

/-- The tasks that ended, by name. -/
def finished (w : World) : List String :=
  (w.tasks.filter (fun t => t.job.hasEnded)).filterMap Task.label

/-- Clears the record and takes away the tasks that ended. -/
def turnPage (w : World) : World :=
  { w with
    stage := { w.stage with record := .blank }
    tasks := w.tasks.filter (fun t => !t.job.hasEnded) }

end World

end Simulation

end StorageHealth
