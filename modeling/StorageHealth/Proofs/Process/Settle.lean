import StorageHealth.Proofs.Process.Workplace
import StorageHealth.Simulation.Stage

/-!
# Processes on the virtual clock

What the virtual clock makes of a process is one of the histories of the process: until it is
finished or has to wait, it does what `Process.Does` says, every update is answered with what the
monitor remembers, and what it publishes is recorded (`exists_leads_settle`).
-/

namespace StorageHealth

/-- The event that was published, if it was one. -/
def Deed.published? : Deed → Option Notice
  | ⟨.publish n, .ok _⟩ => some n
  | _ => none

namespace Simulation

/-- The events that were published up to now. -/
def Stage.published (s : Stage) : List Notice := s.record.published.toList

lemma Stage.monitor_answer (s : Stage) (e : Effect) :
    (s.answer e).1.monitor = e.leaves s.monitor := by
  cases e with
  | update f => rfl
  | listing deadline => rfl
  | probe call deadline => rfl
  | publish notice => rfl
  | pause length => rfl

lemma Stage.fits_answer (s : Stage) (e : Effect) (later : Stage) :
    Deed.Fits s.monitor ⟨e, (s.answer e).2.2 later⟩ := by
  cases e with
  | update f => rfl
  | listing deadline => trivial
  | probe call deadline => trivial
  | publish notice => trivial
  | pause length => trivial

/-- What is published is recorded. -/
lemma Stage.published_answer (s : Stage) (e : Effect) (later : Stage) :
    (s.answer e).1.published =
      s.published ++ (Deed.published? ⟨e, (s.answer e).2.2 later⟩).toList := by
  cases e with
  | publish notice =>
    have hanswer : (s.answer (.publish notice)).1 = (s.publish notice).1 ∧
        (s.answer (.publish notice)).2.2 later = (s.publish notice).2 := ⟨rfl, rfl⟩
    rw [hanswer.1, hanswer.2, Stage.publish]
    cases hresult : s.sink.receive.2 with
    | ok _ => simp [Stage.published, Deed.published?, hresult]
    | error e => simp [Stage.published, Deed.published?, hresult]
  | _ => exact (List.append_nil _).symm

/-- Only what changes nothing takes time; it publishes nothing, and its answer fits whatever the
monitor remembers. -/
lemma Stage.waits {s : Stage} {e : Effect} (h : (s.answer e).2.1.nanos ≠ 0) (later : Stage) :
    Deed.published? ⟨e, (s.answer e).2.2 later⟩ = none ∧
      ∀ m, e.leaves m = m ∧ Deed.Fits m ⟨e, (s.answer e).2.2 later⟩ := by
  cases e with
  | update f => exact absurd rfl h
  | listing deadline => exact ⟨rfl, fun _ => ⟨rfl, trivial⟩⟩
  | probe call deadline => exact ⟨rfl, fun _ => ⟨rfl, trivial⟩⟩
  | publish notice => exact absurd rfl h
  | pause length => exact ⟨rfl, fun _ => ⟨rfl, trivial⟩⟩

/-- What is left of a process that has come so far: nothing, or to go on after some answer. -/
def Status.Leaves {α : Type} (q : Process α) : Status α → Prop
  | .finished a => q = .done a
  | .waiting _ rest => ∃ e next, q = .ask e next ∧
      ∀ later, ∃ answer, rest later = next answer ∧ Deed.published? ⟨e, answer⟩ = none ∧
        ∀ m, e.leaves m = m ∧ Deed.Fits m ⟨e, answer⟩

/-- What a process does until it is finished or has to wait. -/
theorem exists_leads_settle {α : Type} (p : Process α) (s : Stage) :
    ∃ ds q, p.Does ds q ∧ s.monitor.Leads ds (settle p s).1.monitor ∧
      (settle p s).1.published = s.published ++ ds.filterMap Deed.published? ∧
      (settle p s).2.Leaves q := by
  induction p generalizing s with
  | done a =>
    exact ⟨[], .done a, Process.Does.nothing _, Path.nothing _, (List.append_nil _).symm, rfl⟩
  | ask e next ih =>
    have hpublished := s.published_answer e
    by_cases hwait : (s.answer e).2.1.nanos = 0
    · have hsettle : settle (.ask e next) s =
          settle (next ((s.answer e).2.2 (s.answer e).1)) (s.answer e).1 := if_pos hwait
      rw [hsettle]
      obtain ⟨ds, q, hdoes, hleads, hmore, hleaves⟩ :=
        ih ((s.answer e).2.2 (s.answer e).1) (s.answer e).1
      refine ⟨_ :: ds, q, Process.Does.step _ hdoes, ?_, ?_, hleaves⟩
      · exact Path.step ⟨s.fits_answer e _, s.monitor_answer e⟩ hleads
      · rw [hmore, hpublished (s.answer e).1, List.append_assoc]
        cases h : Deed.published? ⟨e, (s.answer e).2.2 (s.answer e).1⟩ <;>
          simp [h]
    · have hsettle : settle (.ask e next) s = ((s.answer e).1,
          .waiting ((s.answer e).1.now + (s.answer e).2.1.nanos)
            fun later => next ((s.answer e).2.2 later)) := if_neg hwait
      obtain ⟨hsilent, hstill⟩ := Stage.waits hwait s
      rw [hsettle, s.monitor_answer e, (hstill s.monitor).1]
      refine ⟨[], .ask e next, Process.Does.nothing _, Path.nothing _, ?_, e, next, rfl, ?_⟩
      · rw [hpublished s, hsilent]
        rfl
      · exact fun later => ⟨_, rfl, Stage.waits hwait later⟩

end Simulation

end StorageHealth
