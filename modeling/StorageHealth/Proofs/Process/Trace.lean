import Mathlib.Tactic.Common
import StorageHealth.Check

/-!
# What a process has done

A process only asks for effects, so what it has done so far is a list of effects with their answers.
`Process.Does` relates a process, such a list and what is left of the process; the answers are not
restricted here, whatever the world may say is a possible history of the process.

The lemmas take histories apart along the way a process was put together.  They speak of finished
processes (`Process.Ends`); a process that is interrupted has done an initial part of what it would
have done (`Does.exists_ends`).
-/

namespace StorageHealth

/-- What the monitor remembers after an effect. -/
def Effect.leaves (m : Monitor) : Effect → Monitor
  | .update f => f m
  | .listing _ => m
  | .probe _ _ => m
  | .publish _ => m
  | .pause _ => m

/-- An effect and the answer it got. -/
structure Deed where
  effect : Effect
  answer : effect.Answer

/-- A look at what the monitor remembers. -/
def Deed.looked (m : Monitor) : Deed := ⟨.update id, m⟩

namespace Process

variable {α β : Type}

/-- After these deeds, the process `q` is left of a process. -/
inductive Does : Process α → List Deed → Process α → Prop where
  | nothing (p : Process α) : Does p [] p
  | step {e : Effect} {next : e.Answer → Process α} (answer : e.Answer) {ds : List Deed}
      {q : Process α} (rest : Does (next answer) ds q) : Does (ask e next) (⟨e, answer⟩ :: ds) q

/-- A process ends with a result after these deeds. -/
def Ends (p : Process α) (ds : List Deed) (a : α) : Prop := p.Does ds (done a)

/-! ## Histories of processes -/

lemma ends_done_iff {a b : α} {ds : List Deed} : (done a).Ends ds b ↔ ds = [] ∧ b = a := by
  constructor
  · intro h
    cases h
    exact ⟨rfl, rfl⟩
  · rintro ⟨rfl, rfl⟩
    exact Does.nothing _

lemma ends_ask_iff {e : Effect} {next : e.Answer → Process α} {ds : List Deed} {a : α} :
    (ask e next).Ends ds a ↔
      ∃ answer rest, ds = ⟨e, answer⟩ :: rest ∧ (next answer).Ends rest a := by
  constructor
  · intro h
    cases h with
    | step answer rest => exact ⟨answer, _, rfl, rest⟩
  · rintro ⟨answer, rest, rfl, h⟩
    exact Does.step answer h

/-- What is left of a process may do goes on with what was done before. -/
lemma Does.append {p q r : Process α} {ds es : List Deed} (h : p.Does ds q) (h' : q.Does es r) :
    p.Does (ds ++ es) r := by
  induction h with
  | nothing p => exact h'
  | step answer _ ih => exact Does.step answer (ih h')

/-- Every process can end. -/
lemma exists_ends (p : Process α) : ∃ ds a, p.Ends ds a := by
  induction p with
  | done a => exact ⟨[], a, Does.nothing _⟩
  | ask e next ih =>
    have hanswer : Nonempty e.Answer := by
      cases e with
      | update f => exact ⟨(default : Monitor)⟩
      | listing deadline => exact ⟨Outcome.late⟩
      | probe call deadline => exact ⟨Outcome.late⟩
      | publish notice => exact ⟨Except.ok ()⟩
      | pause length => exact ⟨()⟩
    obtain ⟨answer⟩ := hanswer
    obtain ⟨ds, a, h⟩ := ih answer
    exact ⟨⟨e, answer⟩ :: ds, a, Does.step answer h⟩

/-- What a process has done is an initial part of what it does until it ends. -/
lemma Does.exists_ends {p q : Process α} {ds : List Deed} (h : p.Does ds q) :
    ∃ rest a, p.Ends (ds ++ rest) a := by
  obtain ⟨rest, a, hq⟩ := q.exists_ends
  exact ⟨rest, a, h.append hq⟩

/-- A process that goes on with another one does the deeds of both, one after the other. -/
lemma ends_bind_iff {p : Process α} {f : α → Process β} {ds : List Deed} {b : β} :
    (p.bind f).Ends ds b ↔
      ∃ first a rest, ds = first ++ rest ∧ p.Ends first a ∧ (f a).Ends rest b := by
  induction p generalizing ds with
  | done a =>
    rw [done_bind]
    constructor
    · intro h
      exact ⟨[], a, ds, rfl, Does.nothing _, h⟩
    · rintro ⟨first, a', rest, rfl, hfirst, hrest⟩
      obtain ⟨rfl, rfl⟩ := ends_done_iff.mp hfirst
      exact hrest
  | ask e next ih =>
    rw [ask_bind, ends_ask_iff]
    constructor
    · rintro ⟨answer, ds', rfl, h⟩
      obtain ⟨first, a, rest, rfl, hfirst, hrest⟩ := (ih answer).mp h
      exact ⟨⟨e, answer⟩ :: first, a, rest, rfl, Does.step answer hfirst, hrest⟩
    · rintro ⟨first, a, rest, rfl, hfirst, hrest⟩
      obtain ⟨answer, first', rfl, hnext⟩ := ends_ask_iff.mp hfirst
      exact ⟨answer, first' ++ rest, rfl, (ih answer).mpr ⟨first', a, rest, rfl, hnext, hrest⟩⟩

lemma ends_perform_iff {e : Effect} {ds : List Deed} {answer : e.Answer} :
    (perform e).Ends ds answer ↔ ds = [⟨e, answer⟩] := by
  rw [perform, ends_ask_iff]
  simp [ends_done_iff]

lemma ends_look_iff {ds : List Deed} {m : Monitor} : look.Ends ds m ↔ ds = [.looked m] :=
  ends_perform_iff

lemma ends_change_iff {f : Monitor → Monitor} {ds : List Deed} {u : Unit} :
    (change f).Ends ds u ↔ ∃ m, ds = [⟨.update f, m⟩] := by
  rw [change, ends_ask_iff]
  simp [ends_done_iff]

end Process

/-! ## Histories of attempts -/

namespace Attempt

open Process

variable {ε ε' α β : Type}

/-- An attempt ends with a result or an error after these deeds. -/
def Ends (x : Attempt ε α) (ds : List Deed) (r : Except ε α) : Prop := Process.Ends x.run ds r

lemma ends_pure_iff {a : α} {ds : List Deed} {r : Except ε α} :
    (pure a : Attempt ε α).Ends ds r ↔ ds = [] ∧ r = .ok a := ends_done_iff

lemma ends_throw_iff {e : ε} {ds : List Deed} {r : Except ε α} :
    (throw e : Attempt ε α).Ends ds r ↔ ds = [] ∧ r = .error e := ends_done_iff

lemma ends_ofExcept_iff {x : Except ε α} {ds : List Deed} {r : Except ε α} :
    (liftM x : Attempt ε α).Ends ds r ↔ ds = [] ∧ r = x := ends_done_iff

lemma ends_lift_iff {p : Process α} {ds : List Deed} {r : Except ε α} :
    (liftM p : Attempt ε α).Ends ds r ↔ ∃ a, r = .ok a ∧ p.Ends ds a := by
  change (p.bind fun a => done (Except.ok a)).Ends ds r ↔ _
  rw [Process.ends_bind_iff]
  constructor
  · rintro ⟨first, a, rest, rfl, hfirst, hrest⟩
    obtain ⟨rfl, rfl⟩ := ends_done_iff.mp hrest
    exact ⟨a, rfl, by rwa [List.append_nil]⟩
  · rintro ⟨a, rfl, h⟩
    exact ⟨ds, a, [], by rw [List.append_nil], h, Does.nothing _⟩

/-- An attempt goes on after a result and stops with an error. -/
lemma ends_bind_iff {x : Attempt ε α} {f : α → Attempt ε β} {ds : List Deed} {r : Except ε β} :
    (x >>= f).Ends ds r ↔
      (∃ first a rest, ds = first ++ rest ∧ x.Ends first (.ok a) ∧ (f a).Ends rest r) ∨
        ∃ e, r = .error e ∧ x.Ends ds (.error e) := by
  change (x.run.bind (ExceptT.bindCont f)).Ends ds r ↔ _
  rw [Process.ends_bind_iff]
  constructor
  · rintro ⟨first, a | a, rest, rfl, hfirst, hrest⟩
    · obtain ⟨rfl, rfl⟩ := ends_done_iff.mp hrest
      exact Or.inr ⟨a, rfl, by rwa [List.append_nil]⟩
    · exact Or.inl ⟨first, a, rest, rfl, hfirst, hrest⟩
  · rintro (⟨first, a, rest, rfl, hfirst, hrest⟩ | ⟨e, rfl, h⟩)
    · exact ⟨first, .ok a, rest, rfl, hfirst, hrest⟩
    · exact ⟨ds, .error e, [], by rw [List.append_nil], h, Does.nothing _⟩

/-- An attempt after which something is returned. -/
lemma ends_bind_pure_iff {x : Attempt ε α} {b : β} {ds : List Deed} {r : Except ε β} :
    (x >>= fun _ => pure b).Ends ds r ↔ ∃ r', x.Ends ds r' ∧ r = r'.map fun _ => b := by
  rw [ends_bind_iff]
  constructor
  · rintro (⟨first, a, rest, rfl, hfirst, hrest⟩ | ⟨e, rfl, h⟩)
    · obtain ⟨rfl, rfl⟩ := ends_pure_iff.mp hrest
      exact ⟨.ok a, by rwa [List.append_nil], rfl⟩
    · exact ⟨.error e, h, rfl⟩
  · rintro ⟨a | a, h, rfl⟩
    · exact Or.inr ⟨a, rfl, h⟩
    · exact Or.inl ⟨ds, a, [], (List.append_nil ds).symm, h, ends_pure_iff.mpr ⟨rfl, rfl⟩⟩

/-- An attempt that starts with a process goes on with what that found. -/
lemma ends_lift_bind_iff {p : Process α} {f : α → Attempt ε β} {ds : List Deed} {r : Except ε β} :
    ((liftM p : Attempt ε α) >>= f).Ends ds r ↔
      ∃ first a rest, ds = first ++ rest ∧ p.Ends first a ∧ (f a).Ends rest r := by
  rw [ends_bind_iff]
  constructor
  · rintro (⟨first, a, rest, rfl, hfirst, hrest⟩ | ⟨e, -, he⟩)
    · obtain ⟨a', ha, hp⟩ := ends_lift_iff.mp hfirst
      cases ha
      exact ⟨first, a, rest, rfl, hp, hrest⟩
    · obtain ⟨_, he, -⟩ := ends_lift_iff.mp he
      cases he
  · rintro ⟨first, a, rest, rfl, hp, hrest⟩
    exact Or.inl ⟨first, a, rest, rfl, ends_lift_iff.mpr ⟨a, rfl, hp⟩, hrest⟩

lemma ends_look_bind_iff {f : Monitor → Attempt ε β} {ds : List Deed} {r : Except ε β} :
    ((liftM look : Attempt ε Monitor) >>= f).Ends ds r ↔
      ∃ m rest, ds = .looked m :: rest ∧ (f m).Ends rest r := by
  rw [ends_lift_bind_iff]
  constructor
  · rintro ⟨first, m, rest, rfl, hlook, hrest⟩
    rw [ends_look_iff.mp hlook]
    exact ⟨m, rest, rfl, hrest⟩
  · rintro ⟨m, rest, rfl, hrest⟩
    exact ⟨[.looked m], m, rest, rfl, ends_look_iff.mpr rfl, hrest⟩

lemma ends_change_bind_iff {g : Monitor → Monitor} {f : Unit → Attempt ε β} {ds : List Deed}
    {r : Except ε β} : ((liftM (change g) : Attempt ε Unit) >>= f).Ends ds r ↔
      ∃ m rest, ds = ⟨.update g, m⟩ :: rest ∧ (f ()).Ends rest r := by
  rw [ends_lift_bind_iff]
  constructor
  · rintro ⟨first, _, rest, rfl, hchange, hrest⟩
    obtain ⟨m, rfl⟩ := ends_change_iff.mp hchange
    exact ⟨m, rest, rfl, hrest⟩
  · rintro ⟨m, rest, rfl, hrest⟩
    exact ⟨[⟨.update g, m⟩], (), rest, rfl, ends_change_iff.mpr ⟨m, rfl⟩, hrest⟩

lemma ends_mapError_iff {f : ε → ε'} {x : Attempt ε α} {ds : List Deed} {r : Except ε' α} :
    (x.mapError f).Ends ds r ↔ ∃ r', x.Ends ds r' ∧ r = r'.mapError f := by
  change (x.run.bind fun r' => done (r'.mapError f)).Ends ds r ↔ _
  rw [Process.ends_bind_iff]
  constructor
  · rintro ⟨first, r', rest, rfl, hfirst, hrest⟩
    obtain ⟨rfl, rfl⟩ := ends_done_iff.mp hrest
    exact ⟨r', by rwa [List.append_nil], rfl⟩
  · rintro ⟨r', h, rfl⟩
    exact ⟨ds, r', [], by rw [List.append_nil], h, Does.nothing _⟩

end Attempt

/-! ## What all histories have in common -/

/-- A property of histories that also holds for one history after another. -/
structure Deed.Closed (P : List Deed → Prop) : Prop where
  nothing : P []
  append : ∀ {ds es : List Deed}, P ds → P es → P (ds ++ es)

lemma Deed.closed_forall (Q : Deed → Prop) : Deed.Closed fun ds => ∀ d ∈ ds, Q d where
  nothing := fun d hd => absurd hd List.not_mem_nil
  append := by
    intro ds es h h' d hd
    exact (List.mem_append.mp hd).elim (h d) (h' d)

/-- Whatever a process does until it ends has a property. -/
def Process.Always {α : Type} (P : List Deed → Prop) (p : Process α) : Prop :=
  ∀ ds a, p.Ends ds a → P ds

/-- Whatever an attempt does until it ends has a property. -/
def Attempt.Always {ε α : Type} (P : List Deed → Prop) (x : Attempt ε α) : Prop :=
  ∀ ds r, x.Ends ds r → P ds

namespace Deed.Closed

variable {ε α β : Type} {P : List Deed → Prop} (hP : Closed P)

include hP

lemma done (a : α) : (Process.done a).Always P := by
  intro ds b h
  rw [(Process.ends_done_iff.mp h).1]
  exact hP.nothing

lemma bind {p : Process α} {f : α → Process β} (hp : p.Always P) (hf : ∀ a, (f a).Always P) :
    (p.bind f).Always P := by
  intro ds b h
  obtain ⟨first, a, rest, rfl, hfirst, hrest⟩ := Process.ends_bind_iff.mp h
  exact hP.append (hp first a hfirst) (hf a rest b hrest)

lemma pure (a : α) : (Pure.pure a : Attempt ε α).Always P := hP.done _

lemma throw (e : ε) : (throw e : Attempt ε α).Always P := hP.done _

lemma ofExcept (x : Except ε α) : (liftM x : Attempt ε α).Always P := hP.done x

/-- What goes on after an attempt has the property when both do. -/
lemma andThen {x : Attempt ε α} {f : α → Attempt ε β} (hx : x.Always P)
    (hf : ∀ a, (f a).Always P) : (x >>= f).Always P := by
  intro ds r h
  rcases Attempt.ends_bind_iff.mp h with ⟨first, a, rest, rfl, hfirst, hrest⟩ | ⟨e, -, hx'⟩
  · exact hP.append (hx first _ hfirst) (hf a rest r hrest)
  · exact hx ds _ hx'

end Deed.Closed

lemma Process.Always.lift {ε α : Type} {P : List Deed → Prop} {p : Process α} (hp : p.Always P) :
    (liftM p : Attempt ε α).Always P := by
  intro ds r h
  obtain ⟨a, -, h⟩ := Attempt.ends_lift_iff.mp h
  exact hp ds a h

/-- A single effect has a property when it does whatever the answer is. -/
lemma Process.always_perform {P : List Deed → Prop} {e : Effect}
    (he : ∀ answer, P [⟨e, answer⟩]) : (Process.perform e).Always P := by
  intro ds answer h
  rw [Process.ends_perform_iff.mp h]
  exact he answer

lemma Process.always_change {P : List Deed → Prop} {f : Monitor → Monitor}
    (hf : ∀ m, P [⟨.update f, m⟩]) : (Process.change f).Always P := by
  intro ds a h
  obtain ⟨m, rfl⟩ := Process.ends_change_iff.mp h
  exact hf m

lemma Attempt.Always.mapError {ε ε' α : Type} {P : List Deed → Prop} {f : ε → ε'}
    {x : Attempt ε α} (hx : x.Always P) : (x.mapError f).Always P := by
  intro ds r h
  obtain ⟨r', hends, -⟩ := Attempt.ends_mapError_iff.mp h
  exact hx ds r' hends

end StorageHealth
