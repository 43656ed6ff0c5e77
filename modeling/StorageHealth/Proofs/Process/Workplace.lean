import Mathlib.Logic.Function.Basic
import StorageHealth.Proofs.Process.Path
import StorageHealth.Proofs.Process.Trace

/-!
# Activities side by side

A `Workplace` is a monitor with any number of activities that use it.  In one step either a watch
event comes in, or one of the activities gets the answer to what it asked for; the order is left
open.  Updates are answered with what the monitor remembers at that moment, all other answers come
from the world and may be anything.

`Run.does` says that every activity only sees its own part of a run, `Run.monitor_eq` that the
monitor only depends on what happened.
-/

namespace StorageHealth

/-- The answer of a deed fits what the monitor remembers: an update hands it out. -/
def Deed.Fits (m : Monitor) : Deed → Prop
  | ⟨.update _, before⟩ => before = m
  | _ => True

/-- These deeds, with nothing in between, lead from one monitor to another. -/
abbrev Monitor.Leads : Monitor → List Deed → Monitor → Prop :=
  Path fun m d m' => d.Fits m ∧ m' = d.effect.leaves m

/-- Something that happens: a watch event comes in, or an activity does something. -/
inductive Happening (ι : Type) where
  | observed (k : Kind) (e : WatchEvent k.Object)
  | did (who : ι) (d : Deed)

/-- A monitor and the activities that use it. -/
structure Workplace (ι : Type) where
  monitor : Monitor
  activity : ι → Process Unit

namespace Happening

variable {ι : Type}

/-- What the monitor remembers after something happened. -/
def leaves (m : Monitor) : Happening ι → Monitor
  | observed k e => (m.observe k e).1
  | did _ d => d.effect.leaves m

/-- What the monitor remembers after a history. -/
def leavesAll (m : Monitor) (hs : List (Happening ι)) : Monitor := hs.foldl leaves m

variable [DecidableEq ι]

/-- The part of an activity. -/
def own? (i : ι) : Happening ι → Option Deed
  | observed _ _ => none
  | did who d => if who = i then some d else none

/-- What an activity does in a history. -/
def own (i : ι) (hs : List (Happening ι)) : List Deed := hs.filterMap (own? i)

/-- An activity has no part in a history. -/
def Idle (i : ι) (hs : List (Happening ι)) : Prop := own i hs = []

@[simp] lemma own_append (i : ι) (hs hs' : List (Happening ι)) :
    own i (hs ++ hs') = own i hs ++ own i hs' := List.filterMap_append

@[simp] lemma own_cons_did_self (i : ι) (d : Deed) (hs : List (Happening ι)) :
    own i (.did i d :: hs) = d :: own i hs := by
  simp [own, own?]

lemma own_cons_did_of_ne {i who : ι} (h : who ≠ i) (d : Deed) (hs : List (Happening ι)) :
    own i (.did who d :: hs) = own i hs := by
  simp [own, own?, h]

lemma own?_eq_some_iff {i : ι} {h : Happening ι} {d : Deed} :
    own? i h = some d ↔ h = .did i d := by
  cases h with
  | observed k e => simp [own?]
  | did who d' => simp [own?]

lemma mem_own_of_mem {i : ι} {d : Deed} {hs : List (Happening ι)} (h : .did i d ∈ hs) :
    d ∈ own i hs :=
  List.mem_filterMap.mpr ⟨_, h, own?_eq_some_iff.mpr rfl⟩

/-- The first thing an activity does in a history. -/
lemma exists_first {i : ι} {hs : List (Happening ι)} {d : Deed} {ds : List Deed}
    (h : own i hs = d :: ds) : ∃ before after, hs = before ++ .did i d :: after ∧ Idle i before ∧
      own i after = ds := by
  obtain ⟨before, a, after, rfl, hbefore, ha, hafter⟩ := List.filterMap_eq_cons_iff.mp h
  rw [own?_eq_some_iff.mp ha]
  exact ⟨before, after, rfl, List.filterMap_eq_nil_iff.mpr hbefore, hafter⟩

/-- The last thing an activity does in a history. -/
lemma exists_last {i : ι} {hs : List (Happening ι)} {d : Deed} {ds : List Deed}
    (h : own i hs = ds ++ [d]) : ∃ before after, hs = before ++ .did i d :: after ∧
      own i before = ds ∧ Idle i after := by
  obtain ⟨before, last, rfl, hbefore, hlast⟩ := List.filterMap_eq_append_iff.mp h
  obtain ⟨between, after, rfl, hbetween, hafter⟩ := exists_first hlast
  refine ⟨before ++ between, after, by rw [List.append_assoc], ?_, hafter⟩
  rw [own_append, hbetween, List.append_nil]
  exact hbefore

end Happening

namespace Workplace

variable {ι : Type} [DecidableEq ι]

/-- One step of a workplace. -/
inductive Step : Workplace ι → Happening ι → Workplace ι → Prop where
  | observe (s : Workplace ι) (k : Kind) (e : WatchEvent k.Object) :
      Step s (.observed k e) { s with monitor := (s.monitor.observe k e).1 }
  | perform {s : Workplace ι} (i : ι) {e : Effect} {next : e.Answer → Process Unit}
      (hasks : s.activity i = .ask e next) (answer : e.Answer)
      (hfits : Deed.Fits s.monitor ⟨e, answer⟩) :
      Step s (.did i ⟨e, answer⟩)
        ⟨e.leaves s.monitor, Function.update s.activity i (next answer)⟩

/-- A workplace goes through a history. -/
inductive Run : Workplace ι → List (Happening ι) → Workplace ι → Prop where
  | nothing (s : Workplace ι) : Run s [] s
  | step {s t s' : Workplace ι} {h : Happening ι} {hs : List (Happening ι)} (first : Step s h t)
      (rest : Run t hs s') : Run s (h :: hs) s'

lemma run_append_iff {s s' : Workplace ι} {hs hs' : List (Happening ι)} :
    Run s (hs ++ hs') s' ↔ ∃ t, Run s hs t ∧ Run t hs' s' := by
  induction hs generalizing s with
  | nil =>
    constructor
    · exact fun h => ⟨s, Run.nothing s, h⟩
    · rintro ⟨t, hnil, h⟩
      cases hnil
      exact h
  | cons h hs ih =>
    constructor
    · rintro (_ | ⟨first, rest⟩)
      obtain ⟨t, hrun, hrest⟩ := ih.mp rest
      exact ⟨t, Run.step first hrun, hrest⟩
    · rintro ⟨t, _ | ⟨first, rest⟩, hrest⟩
      exact Run.step first (ih.mpr ⟨t, rest, hrest⟩)

lemma exists_run_cons {s t : Workplace ι} {h : Happening ι} {hs : List (Happening ι)}
    (first : Step s h t) (rest : ∃ s', Run t hs s') : ∃ s', Run s (h :: hs) s' := by
  obtain ⟨s', hrest⟩ := rest
  exact ⟨s', Run.step first hrest⟩

lemma Step.monitor_eq {s s' : Workplace ι} {h : Happening ι} (hstep : Step s h s') :
    s'.monitor = h.leaves s.monitor := by
  cases hstep <;> rfl

/-- What the monitor remembers only depends on what happened. -/
lemma Run.monitor_eq {s s' : Workplace ι} {hs : List (Happening ι)} (hrun : Run s hs s') :
    s'.monitor = Happening.leavesAll s.monitor hs := by
  induction hrun with
  | nothing s => rfl
  | step first _ ih => rw [ih, first.monitor_eq]; rfl

/-- In one step, an activity does what it has part in. -/
lemma Step.does {s s' : Workplace ι} {h : Happening ι} (hstep : Step s h s') (i : ι) :
    (s.activity i).Does (Happening.own i [h]) (s'.activity i) := by
  cases hstep with
  | observe k e => exact Process.Does.nothing _
  | perform j hasks answer hfits =>
    dsimp only
    by_cases hj : j = i
    · subst hj
      rw [hasks, Happening.own_cons_did_self, Function.update_self]
      exact Process.Does.step answer (Process.Does.nothing _)
    · rw [Happening.own_cons_did_of_ne hj, Function.update_of_ne (Ne.symm hj)]
      exact Process.Does.nothing _

/-- Over a run, every activity does its own part. -/
lemma Run.does {s s' : Workplace ι} {hs : List (Happening ι)} (hrun : Run s hs s') (i : ι) :
    (s.activity i).Does (Happening.own i hs) (s'.activity i) := by
  induction hrun with
  | nothing s => exact Process.Does.nothing _
  | @step s t s' h hs first _ ih =>
    have hsplit : Happening.own i (h :: hs) = Happening.own i [h] ++ Happening.own i hs :=
      Happening.own_append i [h] hs
    rw [hsplit]
    exact (first.does i).append ih

/-- An update is answered with what the monitor remembers when it happens. -/
lemma Run.answer_eq {s s' : Workplace ι} {pre post : List (Happening ι)} {i : ι}
    {f : Monitor → Monitor} {m : Monitor}
    (hrun : Run s (pre ++ .did i ⟨.update f, m⟩ :: post) s') :
    m = Happening.leavesAll s.monitor pre := by
  obtain ⟨t, hpre, hpost⟩ := run_append_iff.mp hrun
  rw [← hpre.monitor_eq]
  cases hpost with
  | step first _ =>
    cases first with
    | perform _ hasks answer hfits => exact hfits

end Workplace

end StorageHealth
