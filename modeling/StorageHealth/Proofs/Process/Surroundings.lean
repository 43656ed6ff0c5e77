import StorageHealth.Proofs.Process.Traffic

/-!
# Processes in given surroundings

When it is settled what a driver answers and what becomes of every notice, and nobody else is at
work, there is only one way for a process to go on.  `Surroundings.run` goes this way.  What becomes
of a notice may depend on everything that was sent before, so publishing may fail at any time.

`exists_ends_run` says that a run is one of the histories of a process.
-/

namespace StorageHealth

/-- What a driver answers, and what becomes of a notice after others were sent. -/
structure Surroundings where
  probe : Call → Outcome Condition
  listing : Outcome Conditions
  publish : List Notice → Notice → Except PublishError Unit

/-- What a monitor remembers, and all notices that were sent so far. -/
structure Scene where
  monitor : Monitor
  sent : List Notice

/-- The scene after a deed. -/
def Scene.after (s : Scene) (d : Deed) : Scene :=
  ⟨d.effect.leaves s.monitor, s.sent ++ d.notice?.toList⟩

namespace Surroundings

variable {α β ε : Type} (w : Surroundings)

/-- The answer to an effect. -/
def answer (s : Scene) : (e : Effect) → e.Answer
  | .update _ => s.monitor
  | .listing _ => w.listing
  | .probe call _ => w.probe call
  | .publish n => w.publish s.sent n
  | .pause _ => ()

/-- Goes through a process to its end. -/
def run : Process α → Scene → α × Scene
  | .done a, s => (a, s)
  | .ask e next, s => run (next (w.answer s e)) (s.after ⟨e, w.answer s e⟩)

/-! ## Laws -/

lemma run_ask (e : Effect) (next : e.Answer → Process α) (s : Scene) :
    w.run (.ask e next) s = w.run (next (w.answer s e)) (s.after ⟨e, w.answer s e⟩) := rfl

/-- A process that goes on with another one is gone through one after the other. -/
lemma run_bind (p : Process α) (f : α → Process β) (s : Scene) :
    w.run (p.bind f) s = w.run (f (w.run p s).1) (w.run p s).2 := by
  induction p generalizing s with
  | done a => rfl
  | ask e next ih => rw [Process.ask_bind, run_ask, run_ask, ih]

/-- Looking changes nothing. -/
lemma run_look (s : Scene) : w.run Process.look s = (s.monitor, s) :=
  congrArg (fun sent => (s.monitor, Scene.mk s.monitor sent)) (List.append_nil s.sent)

/-- Asking about a volume changes nothing. -/
lemma run_probe (call : Call) (deadline : Span) (s : Scene) :
    w.run (Process.perform (.probe call deadline)) s = (w.probe call, s) :=
  congrArg (fun sent => (w.probe call, Scene.mk s.monitor sent)) (List.append_nil s.sent)

/-- Listing changes nothing. -/
lemma run_listing (deadline : Span) (s : Scene) :
    w.run (Process.perform (.listing deadline)) s = (w.listing, s) :=
  congrArg (fun sent => (w.listing, Scene.mk s.monitor sent)) (List.append_nil s.sent)

lemma run_ofExcept (x : Except ε α) (s : Scene) :
    w.run (liftM x : Attempt ε α).run s = (x, s) := rfl

lemma run_lift (p : Process α) (s : Scene) :
    w.run (liftM p : Attempt ε α).run s = (.ok (w.run p s).1, (w.run p s).2) := w.run_bind p _ s

/-- An attempt goes on after a result and stops with an error. -/
lemma run_attempt_bind (x : Attempt ε α) (f : α → Attempt ε β) (s : Scene) :
    w.run (x >>= f).run s =
      match w.run x.run s with
      | (.ok a, t) => w.run (f a).run t
      | (.error e, t) => (.error e, t) := by
  change w.run (x.run.bind (ExceptT.bindCont f)) s = _
  rw [run_bind]
  rcases w.run x.run s with ⟨e | a, t⟩
  · rfl
  · rfl

/-! ## Runs are histories -/

/-- An answer fits what is remembered when it is given. -/
lemma fits_answer (s : Scene) (e : Effect) : Deed.Fits s.monitor ⟨e, w.answer s e⟩ := by
  cases e with
  | update f => exact rfl
  | listing deadline => trivial
  | probe call deadline => trivial
  | publish n => trivial
  | pause length => trivial

/-- A run is a history that nobody interferes with. -/
theorem exists_ends_run (p : Process α) (s : Scene) : ∃ ds, p.Ends ds (w.run p s).1 ∧
    s.monitor.Leads ds (w.run p s).2.monitor ∧ (w.run p s).2.sent = s.sent ++ Deed.notices ds := by
  induction p generalizing s with
  | done a => exact ⟨[], Process.Does.nothing _, Path.nothing _, (List.append_nil _).symm⟩
  | ask e next ih =>
    obtain ⟨ds, hends, hleads, hsent⟩ := ih (w.answer s e) (s.after ⟨e, w.answer s e⟩)
    refine ⟨⟨e, w.answer s e⟩ :: ds, Process.Does.step _ hends,
      Path.step ⟨w.fits_answer s e, rfl⟩ hleads, ?_⟩
    rw [run_ask, hsent, Deed.notices_cons, Scene.after, List.append_assoc]

end Surroundings

end StorageHealth
