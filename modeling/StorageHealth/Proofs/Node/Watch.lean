import StorageHealth.Proofs.Node.Passes
import StorageHealth.Proofs.Process.Settle
import StorageHealth.Simulation.Deletion

/-!
# Watching nodes

Nodes are visited one at a time, while any number of handlers warn the claims on nodes that are
gone.  A `Watch` is a monitor with the visit that is going on, with all handlers, and with who of
them was told to stop.  In one step (`Watch.Step`) a watch event comes in, the visit or a handler
gets the answer to what it asked for, one of them begins, rests, goes on or ends, or a handler is
told to stop; the order is left open, and publishing may always fail.

The handling of deleted nodes on the virtual clock goes through such steps
(`Simulation.Deletion.exists_serves_wake`), so what holds for all runs of a watch holds there as
well.
-/

namespace StorageHealth

/-- What somebody works at: the handling of a deleted node is not begun, in the middle of a round,
or between two rounds. -/
inductive Handling where
  | idle
  | inRound (node : String) (left : Process Bool)
  | resting (node : String)

/-- A monitor, the visit to a node that is going on, those who handle deleted nodes, and who of them
was told to stop. -/
structure Watch (ι : Type) where
  monitor : Monitor
  visit : Option (String × Process (Except NodeError Schedule))
  handling : ι → Handling
  cancelled : ι → Bool

namespace Watch

variable {ι : Type}

/-- Nobody is at work. -/
def quiet (m : Monitor) : Watch ι := ⟨m, none, fun _ => .idle, fun _ => false⟩

/-- What happens in a step: `did none` is what the visit does, `did (some i)` what a handler
does. -/
inductive Move (ι : Type) where
  | observed (k : Kind) (e : WatchEvent k.Object)
  | visited (now : Nat) (n : Node)
  | did (who : Option ι) (node : String) (d : Deed)
  | left
  | lost (i : ι) (node : String)
  | rested (i : ι)
  | resumed (i : ι)
  | ended (i : ι)
  | cancelled (i : ι)

variable [DecidableEq ι]

/-- A handler gets on with its work, and the monitor with it. -/
def advance (s : Watch ι) (i : ι) (m : Monitor) (h : Handling) : Watch ι :=
  { s with monitor := m, handling := Function.update s.handling i h }

/-- One step of a watch.  A visit begins with the observation of its node.  Being told to stop makes
a difference only to a handler that rests: it ends, and otherwise it goes on with the next round.  A
handler also ends after a round that worked out. -/
inductive Step (c : Conduct) : Watch ι → Move ι → Watch ι → Prop where
  | observe (s : Watch ι) (k : Kind) (e : WatchEvent k.Object) :
      Step c s (.observed k e) { s with monitor := (s.monitor.observe k e).1 }
  | visit {s : Watch ι} (free : s.visit = none) (now : Nat) (n : Node)
      {p : Process (Except NodeError Schedule)}
      (begins : (Node.cycle c now n).run.Does [.observed now n s.monitor] p) :
      Step c s (.visited now n)
        { s with
          monitor := (Deed.observed now n s.monitor).effect.leaves s.monitor
          visit := some (nameOf n, p) }
  | goOn {s : Watch ι} {node : String} {e : Effect}
      {next : e.Answer → Process (Except NodeError Schedule)}
      (busy : s.visit = some (node, .ask e next)) (answer : e.Answer)
      (fits : Deed.Fits s.monitor ⟨e, answer⟩) :
      Step c s (.did none node ⟨e, answer⟩)
        { s with monitor := e.leaves s.monitor, visit := some (node, next answer) }
  | leave {s : Watch ι} {node : String} {r : Except NodeError Schedule}
      (finished : s.visit = some (node, .done r)) : Step c s .left { s with visit := none }
  | lose {s : Watch ι} {i : ι} (free : s.handling i = .idle) (node : String) :
      Step c s (.lost i node) (s.advance i s.monitor (.inRound node (Node.deletionRound c node)))
  | work {s : Watch ι} {i : ι} {node : String} {e : Effect} {next : e.Answer → Process Bool}
      (busy : s.handling i = .inRound node (.ask e next)) (answer : e.Answer)
      (fits : Deed.Fits s.monitor ⟨e, answer⟩) :
      Step c s (.did (some i) node ⟨e, answer⟩)
        (s.advance i (e.leaves s.monitor) (.inRound node (next answer)))
  | rest {s : Watch ι} {i : ι} {node : String}
      (failed : s.handling i = .inRound node (.done false)) :
      Step c s (.rested i) (s.advance i s.monitor (.resting node))
  | resume {s : Watch ι} {i : ι} {node : String} (resting : s.handling i = .resting node)
      (goesOn : s.cancelled i = false) :
      Step c s (.resumed i) (s.advance i s.monitor (.inRound node (Node.deletionRound c node)))
  | succeed {s : Watch ι} {i : ι} {node : String}
      (worked : s.handling i = .inRound node (.done true)) :
      Step c s (.ended i) (s.advance i s.monitor .idle)
  | stop {s : Watch ι} {i : ι} {node : String} (resting : s.handling i = .resting node)
      (told : s.cancelled i = true) :
      Step c s (.ended i) (s.advance i s.monitor .idle)
  | cancel (s : Watch ι) (i : ι) :
      Step c s (.cancelled i) { s with cancelled := Function.update s.cancelled i true }

/-- Steps of a watch one after the other. -/
abbrev Run (c : Conduct) : Watch ι → List (Move ι) → Watch ι → Prop := Path (Step c)

@[simp] lemma monitor_advance (s : Watch ι) (i : ι) (m : Monitor) (h : Handling) :
    (s.advance i m h).monitor = m := rfl

@[simp] lemma cancelled_advance (s : Watch ι) (i : ι) (m : Monitor) (h : Handling) :
    (s.advance i m h).cancelled = s.cancelled := rfl

@[simp] lemma handling_advance_self (s : Watch ι) (i : ι) (m : Monitor) (h : Handling) :
    (s.advance i m h).handling i = h := Function.update_self ..

lemma handling_advance_of_ne (s : Watch ι) {i j : ι} (hj : j ≠ i) (m : Monitor) (h : Handling) :
    (s.advance i m h).handling j = s.handling j := Function.update_of_ne hj ..

@[simp] lemma advance_advance (s : Watch ι) (i : ι) (m m' : Monitor) (h h' : Handling) :
    (s.advance i m h).advance i m' h' = s.advance i m' h' := by
  simp [advance]

/-! ## Moves -/

/-- A move of the handler itself. -/
def Move.isOf (i : ι) : Move ι → Bool
  | .did (some j) _ _ => j = i
  | .lost j _ => j = i
  | .rested j => j = i
  | .resumed j => j = i
  | .ended j => j = i
  | _ => false

/-- The event that is published, if one is. -/
def Move.published? : Move ι → Option Notice
  | .did _ _ d => d.published?
  | _ => none

/-- What the monitor remembers after a move. -/
def Move.leaves (m : Monitor) : Move ι → Monitor
  | .observed k e => (m.observe k e).1
  | .visited now n => { m with tracker := (m.tracker.observe n now).1 }
  | .did _ _ d => d.effect.leaves m
  | _ => m

/-- A deed gets an answer that fits the monitor. -/
def Move.Fits (m : Monitor) : Move ι → Prop
  | .did _ _ d => d.Fits m
  | _ => True

/-- How a handler gets on by a move of its own, told to stop or not. -/
inductive GetsOn (c : Conduct) (i : ι) (told : Bool) : Handling → Move ι → Handling → Prop where
  | lost (node : String) :
      GetsOn c i told .idle (.lost i node) (.inRound node (Node.deletionRound c node))
  | did (node : String) {e : Effect} {next : e.Answer → Process Bool} (answer : e.Answer) :
      GetsOn c i told (.inRound node (.ask e next)) (.did (some i) node ⟨e, answer⟩)
        (.inRound node (next answer))
  | rested (node : String) :
      GetsOn c i told (.inRound node (.done false)) (.rested i) (.resting node)
  | resumed (node : String) (goesOn : told = false) :
      GetsOn c i told (.resting node) (.resumed i) (.inRound node (Node.deletionRound c node))
  | succeeded (node : String) : GetsOn c i told (.inRound node (.done true)) (.ended i) .idle
  | stopped (node : String) (stops : told = true) : GetsOn c i told (.resting node) (.ended i) .idle

variable {c : Conduct} {i : ι} {s t : Watch ι} {mv : Move ι}

lemma GetsOn.isOf {told : Bool} {now later : Handling} (h : GetsOn c i told now mv later) :
    mv.isOf i = true := by
  cases h <;> exact decide_eq_true rfl

/-- A handler gets on by its own moves, -/
lemma Step.getsOn (h : Step c s mv t) (hof : mv.isOf i = true) :
    GetsOn c i (s.cancelled i) (s.handling i) mv (t.handling i) := by
  cases h with
  | observe | visit | goOn | leave | cancel => cases hof
  | lose free node =>
    obtain rfl := (of_decide_eq_true hof).symm
    rw [free, handling_advance_self]
    exact GetsOn.lost node
  | work busy answer fits =>
    obtain rfl := (of_decide_eq_true hof).symm
    rw [busy, handling_advance_self]
    exact GetsOn.did _ answer
  | rest failed =>
    obtain rfl := (of_decide_eq_true hof).symm
    rw [failed, handling_advance_self]
    exact GetsOn.rested _
  | resume resting goesOn =>
    obtain rfl := (of_decide_eq_true hof).symm
    rw [resting, handling_advance_self]
    exact GetsOn.resumed _ goesOn
  | succeed worked =>
    obtain rfl := (of_decide_eq_true hof).symm
    rw [worked, handling_advance_self]
    exact GetsOn.succeeded _
  | stop resting told =>
    obtain rfl := (of_decide_eq_true hof).symm
    rw [resting, handling_advance_self]
    exact GetsOn.stopped _ told

/-- and by no other moves. -/
lemma Step.handling_eq (h : Step c s mv t) (hof : mv.isOf i = false) :
    t.handling i = s.handling i := by
  cases h with
  | observe | visit | goOn | leave | cancel => rfl
  | _ => exact handling_advance_of_ne s (Ne.symm (by simpa [Move.isOf] using hof)) _ _

/-- Wherever a handler can get on, it may do so in the watch, if its deeds fit the monitor. -/
lemma GetsOn.step {m : Monitor} {now later : Handling}
    (h : GetsOn c i (s.cancelled i) now mv later) (hfits : mv.Fits m) :
    Step c (s.advance i m now) mv (s.advance i (mv.leaves m) later) := by
  have hnow := handling_advance_self s i m now
  rw [← advance_advance s i m (mv.leaves m) now later]
  cases h with
  | lost node => exact Step.lose hnow node
  | did node answer => exact Step.work hnow answer hfits
  | rested node => exact Step.rest hnow
  | resumed node goesOn => exact Step.resume hnow goesOn
  | succeeded node => exact Step.succeed hnow
  | stopped node stops => exact Step.stop hnow stops

/-! ## Rounds in one go -/

/-- A handler that nobody disturbs does what its round does. -/
lemma run_of_leads (c : Conduct) (s : Watch ι) (i : ι) (node : String) {p q : Process Bool}
    {ds : List Deed} (hdoes : p.Does ds q) {m m' : Monitor} (hleads : m.Leads ds m') :
    Run c (s.advance i m (.inRound node p)) (ds.map (Move.did (some i) node))
      (s.advance i m' (.inRound node q)) := by
  induction hdoes generalizing m with
  | nothing p =>
    cases hleads
    exact Path.nothing _
  | @step e next answer ds q rest ih =>
    obtain ⟨x, ⟨hfits, rfl⟩, hrest⟩ := Path.cons_iff.mp hleads
    exact Path.step ((GetsOn.did node answer).step hfits) (ih hrest)

end Watch

/-! ## Handlers on the virtual clock -/

namespace Simulation

namespace Deletion

open Watch

/-- A handler has come as far as the virtual clock has it. -/
inductive Mirrors (c : Conduct) : Deletion → Handling → Prop where
  | starting (node : String) :
      Mirrors c ⟨node, .starting⟩ (.inRound node (Node.deletionRound c node))
  | inRound (node : String) {wakes : Nat} {rest : Rest Bool} {left : Process Bool}
      (leaves : (Status.waiting wakes rest).Leaves left) :
      Mirrors c ⟨node, .inRound wakes rest⟩ (.inRound node left)
  | resting (node : String) (wakes : Nat) : Mirrors c ⟨node, .resting wakes⟩ (.resting node)
  | ended (node : String) : Mirrors c ⟨node, .ended⟩ .idle

variable {ι : Type} [DecidableEq ι]

/-- What is done on a stage are these moves of a handler: they are a run, whatever else there is to
the watch, and the stage has a record of the events that they publish. -/
structure Serves (c : Conduct) (i : ι) (cancelled : Bool) (s s' : Stage) (h h' : Handling)
    (mvs : List (Move ι)) : Prop where
  run : ∀ w : Watch ι, w.cancelled i = cancelled →
    Run c (w.advance i s.monitor h) mvs (w.advance i s'.monitor h')
  own : ∀ mv ∈ mvs, mv.isOf i = true ∧ ∀ node, mv ≠ .lost i node
  published : s'.published = s.published ++ mvs.filterMap Move.published?

variable {c : Conduct} {i : ι} {cancelled : Bool} {s s' s'' : Stage} {h h' h'' : Handling}
  {mvs mvs' : List (Move ι)} {node : String}

lemma Serves.nothing (c : Conduct) (i : ι) (cancelled : Bool) (s : Stage) (h : Handling) :
    Serves c i cancelled s s h h [] where
  run _ _ := Path.nothing _
  own _ hmv := absurd hmv List.not_mem_nil
  published := (List.append_nil _).symm

lemma Serves.append (first : Serves c i cancelled s s' h h' mvs)
    (rest : Serves c i cancelled s' s'' h' h'' mvs') :
    Serves c i cancelled s s'' h h'' (mvs ++ mvs') where
  run w hw := (first.run w hw).append (rest.run w hw)
  own mv hmv := (List.mem_append.mp hmv).elim (first.own mv) (rest.own mv)
  published := by
    rw [rest.published, first.published, List.filterMap_append, List.append_assoc]

/-- A single move that the stage does not notice. -/
lemma Serves.single {mv : Move ι} (hgets : GetsOn c i cancelled h mv h')
    (hfits : mv.Fits s.monitor) (hlost : ∀ node, mv ≠ .lost i node)
    (hkeeps : mv.leaves s.monitor = s.monitor) (hsilent : mv.published? = none) :
    Serves c i cancelled s s h h' [mv] where
  run w hw := by
    subst hw
    have hstep := hgets.step hfits
    rw [hkeeps] at hstep
    exact Path.single hstep
  own mv' hmv := List.mem_singleton.mp hmv ▸ ⟨hgets.isOf, hlost⟩
  published := by
    rw [List.filterMap_cons_none hsilent]
    exact (List.append_nil _).symm

/-- What a process does until it has to wait are moves of the handler. -/
lemma serves_settle (c : Conduct) (i : ι) (cancelled : Bool) (s : Stage) (node : String)
    (p : Process Bool) : ∃ mvs q, (settle p s).2.Leaves q ∧
      Serves c i cancelled s (settle p s).1 (.inRound node p) (.inRound node q) mvs := by
  obtain ⟨ds, q, hdoes, hleads, hpublished, hleaves⟩ := exists_leads_settle p s
  refine ⟨ds.map (.did (some i) node), q, hleaves, ?_⟩
  exact {
    run := fun w _ => run_of_leads c w i node hdoes hleads
    own := by
      intro mv hmv
      obtain ⟨d, -, rfl⟩ := List.mem_map.mp hmv
      exact ⟨decide_eq_true rfl, nofun⟩
    published := by
      rw [hpublished, List.filterMap_map]
      rfl }

lemma serves_rest (s : Stage) : Serves c i cancelled s s (.inRound node (.done false))
    (.resting node) [.rested i] :=
  Serves.single (GetsOn.rested node) trivial nofun rfl rfl

lemma serves_resume (s : Stage) : Serves c i false s s (.resting node)
    (.inRound node (Node.deletionRound c node)) [.resumed i] :=
  Serves.single (GetsOn.resumed node rfl) trivial nofun rfl rfl

lemma serves_succeed (s : Stage) :
    Serves c i cancelled s s (.inRound node (.done true)) .idle [.ended i] :=
  Serves.single (GetsOn.succeeded node) trivial nofun rfl rfl

lemma serves_stop (s : Stage) : Serves c i true s s (.resting node) .idle [.ended i] :=
  Serves.single (GetsOn.stopped node rfl) trivial nofun rfl rfl

/-- Going on with a round are moves of the handler. -/
lemma exists_serves_goOn (c : Conduct) (i : ι) (cancelled : Bool) (s : Stage) (node : String)
    (p : Process Bool) : ∃ mvs h,
      Serves c i cancelled s (goOn c cancelled p s).1 (.inRound node p) h mvs ∧
      Mirrors c ⟨node, (goOn c cancelled p s).2⟩ h := by
  obtain ⟨mvs, q, hleaves, hserves⟩ := serves_settle c i cancelled s node p
  rw [goOn]
  generalize settle p s = settled at hserves hleaves ⊢
  obtain ⟨s', status⟩ := settled
  cases status with
  | waiting wakes rest => exact ⟨mvs, _, hserves, Mirrors.inRound node hleaves⟩
  | finished worked =>
    obtain rfl : q = .done worked := hleaves
    cases worked with
    | true => exact ⟨_, _, hserves.append (serves_succeed s'), Mirrors.ended node⟩
    | false =>
      have hrested := hserves.append (serves_rest s')
      cases cancelled with
      | false => exact ⟨_, _, hrested, Mirrors.resting node _⟩
      | true => exact ⟨_, _, hrested.append (serves_stop s'), Mirrors.ended node⟩

/-- Serving the handling of a deleted node are moves of its handler. -/
theorem exists_serves_wake (i : ι) (cancelled : Bool) (s : Stage) {d : Deletion} {h : Handling}
    (hmirrors : Mirrors c d h) : ∃ mvs h',
      Serves c i cancelled s (d.wake c cancelled s).1 h h' mvs ∧
      Mirrors c (d.wake c cancelled s).2 h' := by
  cases hmirrors with
  | starting node => exact exists_serves_goOn c i cancelled s node _
  | @inRound node wakes rest left hleaves =>
    obtain ⟨e, next, rfl, hrest⟩ := hleaves
    simp only [wake]
    split
    · obtain ⟨answer, hanswer, hsilent, hcalm⟩ := hrest s
      obtain ⟨hkeeps, hfits⟩ := hcalm s.monitor
      have hwork : Serves c i cancelled s s (.inRound node (.ask e next))
          (.inRound node (rest s)) [.did (some i) node ⟨e, answer⟩] := by
        rw [hanswer]
        exact Serves.single (GetsOn.did node answer) hfits nofun hkeeps hsilent
      obtain ⟨mvs, h', hserves, hmirrors⟩ := exists_serves_goOn c i cancelled s node (rest s)
      exact ⟨_, h', hwork.append hserves, hmirrors⟩
    · exact ⟨[], _, Serves.nothing .., Mirrors.inRound node ⟨e, next, rfl, hrest⟩⟩
  | resting node wakes =>
    simp only [wake]
    split
    · rename_i hcancelled
      subst hcancelled
      exact ⟨_, _, serves_stop s, Mirrors.ended node⟩
    · rename_i hgoesOn
      obtain rfl : cancelled = false := Bool.eq_false_iff.mpr hgoesOn
      split
      · obtain ⟨mvs, h', hserves, hmirrors⟩ := exists_serves_goOn c i false s node _
        exact ⟨_, h', (serves_resume s).append hserves, hmirrors⟩
      · exact ⟨[], _, Serves.nothing .., Mirrors.resting node wakes⟩
  | ended node => exact ⟨[], _, Serves.nothing .., Mirrors.ended node⟩

end Deletion

end Simulation

end StorageHealth
