import StorageHealth.Monitor
import StorageHealth.Driver.Deadline
import StorageHealth.Publisher

/-!
# Processes

What a monitor does takes time: calls to the driver, publishing, pauses.  A `Process` is such an
activity as data.  It is finished, or it asks for an `Effect` and goes on with the answer; between
two effects nothing else happens, and other activities may run while an answer is awaited.

The effects are the only ways to touch the world.  `Effect.update` changes what the monitor
remembers in one step and answers with what it was before.
-/

namespace StorageHealth

/-! ### Effects -/

/-- A call about a single volume. -/
inductive Call where
  | controller (handle : String)
  | node (handle path staging : String)
  deriving DecidableEq, Repr

/-- The handle of the volume a call is about. -/
def Call.handle : Call → String
  | controller handle => handle
  | node handle _ _ => handle

/-- The method a call uses. -/
def Call.method : Call → Method
  | controller _ => .getVolume
  | node .. => .volumeStats

/-- Why an event was not published. -/
structure PublishError where
  detail : String
  deriving DecidableEq, Repr

/-- The text of a publishing error. -/
def PublishError.message (e : PublishError) : String := "record event error: " ++ e.detail

/-- What a process can ask for. -/
inductive Effect where
  | update (change : Monitor → Monitor)
  | listing (deadline : Span)
  | probe (call : Call) (deadline : Span)
  | publish (notice : Notice)
  | pause (length : Span)

/-- What the answer to an effect is. -/
@[reducible] def Effect.Answer : Effect → Type
  | .update _ => Monitor
  | .listing _ => Outcome Conditions
  | .probe _ _ => Outcome Condition
  | .publish _ => Except PublishError Unit
  | .pause _ => Unit

/-! ### Processes -/

/-- An activity that ends with an `α`. -/
inductive Process (α : Type) where
  | done (result : α)
  | ask (effect : Effect) (next : effect.Answer → Process α)

namespace Process

variable {α β γ : Type}

/-- Goes on with what a process found. -/
def bind : Process α → (α → Process β) → Process β
  | done a, f => f a
  | ask e next, f => ask e (fun answer => (next answer).bind f)

instance : Monad Process where
  pure := done
  bind := bind

/-- A single effect. -/
def perform (e : Effect) : Process e.Answer := ask e done

/-- What the monitor remembers at this moment. -/
def look : Process Monitor := perform (.update id)

/-- Changes what the monitor remembers. -/
def change (f : Monitor → Monitor) : Process Unit := ask (.update f) (fun _ => done ())

/-! ### Laws -/

@[simp] theorem pure_eq (a : α) : (pure a : Process α) = done a := rfl

@[simp] theorem bind_eq (p : Process α) (f : α → Process β) : p >>= f = p.bind f := rfl

@[simp] theorem done_bind (a : α) (f : α → Process β) : (done a).bind f = f a := rfl

@[simp] theorem ask_bind (e : Effect) (next : e.Answer → Process α) (f : α → Process β) :
    (ask e next).bind f = ask e (fun answer => (next answer).bind f) := rfl

theorem bind_done (p : Process α) : p.bind done = p := by
  induction p with
  | done a => rfl
  | ask e next ih => exact congrArg (ask e) (funext ih)

theorem bind_assoc (p : Process α) (f : α → Process β) (g : β → Process γ) :
    (p.bind f).bind g = p.bind (fun a => (f a).bind g) := by
  induction p with
  | done a => rfl
  | ask e next ih => exact congrArg (ask e) (funext ih)

instance : LawfulMonad Process :=
  LawfulMonad.mk' Process bind_done (fun _ _ => rfl) bind_assoc

end Process

end StorageHealth
