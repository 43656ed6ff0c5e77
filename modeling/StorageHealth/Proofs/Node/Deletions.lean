import StorageHealth.Proofs.Node.Watch
import StorageHealth.Proofs.Text.Joined

/-!
# Handlers of deleted nodes and nodes that came back

A handler warns the claims on a deleted node until a round has worked out, whatever becomes of the
node in the meantime.  So when the node comes back and is found ready, a handler that was at work
before may still warn about it; nobody else does (`Watch.warned_by_earlier_handler`).

The argument has three parts.  Whoever works on a node warns about this node and no other
(`Watch.Stems`).  A visit to a ready node warns nobody, so as long as the node is not observed
otherwise there is nothing to fear from visits to it (`Watch.Calm`).  And a handler at work was
called at some time and has not ended since (`Watch.AtWork`).
-/

namespace StorageHealth

/-! ## Warnings -/

namespace Deed

/-- The news that a node has failed is published. -/
def Warns (d : Deed) : Prop := ∃ n, d = sent n (.ok ()) ∧ n.reason = .nodeFailed

/-- The news is published that this node has failed: so it says at the end. -/
def WarnsAbout (node : String) (d : Deed) : Prop :=
  ∃ n text, d = sent n (.ok ()) ∧ n.reason = .nodeFailed ∧
    n.note = text ++ " are now on a failed node: " ++ node

lemma warnsAbout_failureNotice (node : String) (a : AffectedClaim) :
    (sent (Node.failureNotice node a) (.ok ())).WarnsAbout node :=
  ⟨_, _, rfl, rfl, rfl⟩

/-- The name of the node can be read off a warning, since there is no blank in it. -/
lemma WarnsAbout.node_eq {node node' : String} {d : Deed} (h : d.WarnsAbout node)
    (h' : d.WarnsAbout node') (hnode : ' ' ∉ node.toList) (hnode' : ' ' ∉ node'.toList) :
    node = node' := by
  obtain ⟨n, text, rfl, -, hnote⟩ := h
  obtain ⟨n', text', hsent, -, hnote'⟩ := h'
  obtain rfl := notice_eq_of_sent hsent
  have hlist := congrArg List.reverse (congrArg String.toList (hnote.symm.trans hnote'))
  simp only [String.toList_append, List.reverse_append] at hlist
  have hphrase : " are now on a failed node: ".toList.reverse =
      ' ' :: " are now on a failed node:".toList.reverse := by decide
  rw [hphrase, List.cons_append, List.cons_append] at hlist
  have hreverse := (append_cons_inj (by rwa [List.mem_reverse]) (by rwa [List.mem_reverse]) hlist).1
  exact String.toList_injective (List.reverse_injective hreverse)

end Deed

namespace Watch

variable {ι : Type} {c : Conduct} {name : String}

/-- A node is found broken: it is observed not ready, or it is lost. -/
def Move.Breaks (name : String) : Move ι → Prop
  | .visited _ n => nameOf n = name ∧ n.isReady = false
  | .lost _ node => node = name
  | _ => False

/-! ## Whoever works on a node -/

/-- Visits and rounds are under way as they were begun for their nodes. -/
structure Stems (c : Conduct) (s : Watch ι) : Prop where
  visit : ∀ node p, s.visit = some (node, p) →
    ∃ now n ds, nameOf n = node ∧ (Node.cycle c now n).run.Does ds p
  round : ∀ i node p, s.handling i = .inRound node p →
    ∃ ds, (Node.deletionRound c node).Does ds p

lemma stems_quiet (c : Conduct) (m : Monitor) : (quiet m : Watch ι).Stems c where
  visit _ _ h := by cases h
  round _ _ _ h := by cases h

section Steps

variable [DecidableEq ι] {s t : Watch ι} {mv : Move ι}

omit [DecidableEq ι] in
/-- A handler that gets on stays with its node. -/
lemma GetsOn.stems {i : ι} {told : Bool} {now later : Handling} (h : GetsOn c i told now mv later)
    (hnow : ∀ node p, now = .inRound node p → ∃ ds, (Node.deletionRound c node).Does ds p) :
    ∀ node p, later = .inRound node p → ∃ ds, (Node.deletionRound c node).Does ds p := by
  cases h with
  | lost node | resumed node =>
    rintro _ _ ⟨⟩
    exact ⟨[], Process.Does.nothing _⟩
  | did node answer =>
    rintro _ _ ⟨⟩
    obtain ⟨ds, hdoes⟩ := hnow _ _ rfl
    exact ⟨_, hdoes.append (Process.Does.step answer (Process.Does.nothing _))⟩
  | rested node => exact nofun
  | succeeded node => exact nofun
  | stopped node stops => exact nofun

lemma Step.stems (h : Step c s mv t) (hs : s.Stems c) : t.Stems c where
  visit := by
    cases h with
    | visit free now n begins =>
      rintro _ _ ⟨⟩
      exact ⟨now, n, _, rfl, begins⟩
    | goOn busy answer fits =>
      rintro _ _ ⟨⟩
      obtain ⟨now, n, ds, hname, hdoes⟩ := hs.visit _ _ busy
      exact ⟨now, n, _, hname, hdoes.append (Process.Does.step answer (Process.Does.nothing _))⟩
    | leave finished => exact nofun
    | _ => exact hs.visit
  round i := by
    cases hof : mv.isOf i with
    | false =>
      rw [h.handling_eq hof]
      exact hs.round i
    | true => exact (h.getsOn hof).stems (hs.round i)

lemma Run.stems {mvs : List (Move ι)} (h : Run c s mvs t) (hs : s.Stems c) : t.Stems c :=
  h.keeps (fun _ _ _ _ hstep => hstep.stems) hs

/-- The news that a node has failed is about the node that is worked on. -/
lemma Step.warnsAbout {who : Option ι} {node : String} {d : Deed}
    (h : Step c s (.did who node d) t) (hs : s.Stems c) (hwarns : d.Warns) :
    d.WarnsAbout node := by
  obtain ⟨n, hsent, hreason⟩ := hwarns
  cases h with
  | goOn busy answer fits =>
    obtain ⟨now, m, ds, rfl, hdoes⟩ := hs.visit _ _ busy
    obtain ⟨rest, r, hends⟩ :=
      (hdoes.append (Process.Does.step answer (Process.Does.nothing _))).exists_ends
    rw [hsent] at hends ⊢
    obtain ⟨a, rfl⟩ := (Node.ends_cycle_iff.mp hends).exists_of_sent
      (List.mem_append_left rest (List.mem_append_right ds List.mem_cons_self)) hreason
    exact Deed.warnsAbout_failureNotice (nameOf m) a
  | work busy answer fits =>
    obtain ⟨ds, hdoes⟩ := hs.round _ _ _ busy
    obtain ⟨rest, worked, hends⟩ :=
      (hdoes.append (Process.Does.step answer (Process.Does.nothing _))).exists_ends
    rw [hsent] at hends ⊢
    obtain ⟨a, rfl⟩ := Node.exists_of_sent_deletionRound hends
      (List.mem_append_left rest (List.mem_append_right ds List.mem_cons_self))
    exact Deed.warnsAbout_failureNotice node a

end Steps

/-! ## Visits -/

/-- If the node is being visited, the rest of the visit warns nobody. -/
def Calm (name : String) (s : Watch ι) : Prop :=
  ∀ p, s.visit = some (name, p) → ∀ ds q, p.Does ds q → ∀ d ∈ ds, ¬ d.Warns

/-- What is left of a visit to a ready node warns nobody. -/
lemma not_warns_of_ready {now : Nat} {n : Node} (hready : n.isReady = true) {ds : List Deed}
    {q : Process (Except NodeError Schedule)} (hdoes : (Node.cycle c now n).run.Does ds q)
    {d : Deed} (hd : d ∈ ds) : ¬ d.Warns := by
  rintro ⟨notice, rfl, hreason⟩
  obtain ⟨rest, r, hends⟩ := hdoes.exists_ends
  have htended := Node.ends_cycle_iff.mp hends
  have hmem := List.mem_append_left rest hd
  obtain ⟨a, rfl⟩ := htended.exists_of_sent hmem hreason
  exact htended.not_warned_of_ready hready hmem

variable [DecidableEq ι]

/-- As long as the node is not found broken, visits to it warn nobody. -/
lemma Step.calm {s t : Watch ι} {mv : Move ι} (h : Step c s mv t) (hmv : ¬ mv.Breaks name)
    (hs : s.Calm name) : t.Calm name := by
  cases h with
  | visit free now n begins =>
    rintro p hp ds q hdoes d hd
    obtain ⟨rfl, rfl⟩ := Prod.mk.inj (Option.some.inj hp)
    have hready : n.isReady = true := by
      by_contra hnot
      exact hmv ⟨rfl, Bool.eq_false_iff.mpr hnot⟩
    exact not_warns_of_ready hready (begins.append hdoes) (List.mem_append_right _ hd)
  | goOn busy answer fits =>
    rintro p hp ds q hdoes d hd
    obtain ⟨rfl, rfl⟩ := Prod.mk.inj (Option.some.inj hp)
    exact hs _ busy _ _ (Process.Does.step answer hdoes) d (List.mem_cons_of_mem _ hd)
  | leave finished =>
    rintro p hp
    cases hp
  | _ => exact hs

/-- After a node was found ready, the visit to it warns nobody. -/
lemma Step.calm_of_ready {s t : Watch ι} {now : Nat} {n : Node}
    (h : Step c s (.visited now n) t) (hready : n.isReady = true) : t.Calm (nameOf n) := by
  cases h with
  | visit free now n begins =>
    rintro p hp ds q hdoes d hd
    obtain ⟨-, rfl⟩ := Prod.mk.inj (Option.some.inj hp)
    exact not_warns_of_ready hready (begins.append hdoes) (List.mem_append_right _ hd)

/-! ## Handlers -/

end Watch

/-- The node that somebody handles. -/
def Handling.node? : Handling → Option String
  | idle => none
  | inRound node _ => some node
  | resting node => some node

namespace Watch

variable {ι : Type} {c : Conduct} {name : String} {s t : Watch ι} {i : ι}

/-- A handler was called when the node was lost and has not ended since. -/
def AtWork (i : ι) (name : String) (mvs : List (Move ι)) : Prop :=
  ∃ before since, mvs = before ++ .lost i name :: since ∧ .ended i ∉ since

/-- Who is at work, and was not called lately, was at work before and has not ended lately. -/
lemma AtWork.of_append {before later : List (Move ι)} (h : AtWork i name (before ++ later))
    (hlater : .lost i name ∉ later) : AtWork i name before ∧ .ended i ∉ later := by
  obtain ⟨early, since, hsplit, hsince⟩ := h
  rcases List.append_eq_append_iff.mp hsplit with ⟨rest, rfl, rfl⟩ | ⟨rest, rfl, hrest⟩
  · simp at hlater
  · rcases rest with _ | ⟨mv, rest⟩
    · rw [List.nil_append] at hrest
      rw [← hrest] at hlater
      exact absurd List.mem_cons_self hlater
    · rw [List.cons_append] at hrest
      obtain ⟨rfl, rfl⟩ := List.cons.inj hrest
      rw [List.mem_append, not_or] at hsince
      exact ⟨⟨early, rest, rfl, hsince.1⟩, hsince.2⟩

variable [DecidableEq ι]

/-- Who handles a node was just called, or did so before and has not ended. -/
lemma Step.handling_of_node? {mv : Move ι} (h : Step c s mv t)
    (hi : (t.handling i).node? = some name) :
    mv = .lost i name ∨ mv ≠ .ended i ∧ (s.handling i).node? = some name := by
  cases hof : mv.isOf i with
  | false =>
    rw [h.handling_eq hof] at hi
    refine Or.inr ⟨?_, hi⟩
    rintro rfl
    exact Bool.false_ne_true (hof.symm.trans (decide_eq_true rfl))
  | true =>
    have hgets := h.getsOn hof
    generalize s.handling i = now at hgets ⊢
    generalize t.handling i = later at hgets hi
    cases hgets with
    | lost node =>
      obtain rfl : node = name := Option.some.inj hi
      exact Or.inl rfl
    | did node answer => exact Or.inr ⟨nofun, hi⟩
    | rested node => exact Or.inr ⟨nofun, hi⟩
    | resumed node goesOn => exact Or.inr ⟨nofun, hi⟩
    | succeeded node => cases hi
    | stopped node stops => cases hi

/-- Who handles a node is at work. -/
lemma Run.atWork {m : Monitor} {mvs : List (Move ι)} (h : Run c (quiet m) mvs s)
    (hi : (s.handling i).node? = some name) : AtWork i name mvs := by
  induction mvs using List.reverseRecOn generalizing s with
  | nil =>
    cases h
    cases hi
  | append_singleton mvs mv ih =>
    obtain ⟨t, hmvs, hstep⟩ := Path.concat_iff.mp h
    rcases hstep.handling_of_node? hi with rfl | ⟨hne, hi⟩
    · exact ⟨mvs, [], rfl, List.not_mem_nil⟩
    · obtain ⟨before, since, rfl, hsince⟩ := ih hmvs hi
      refine ⟨before, since ++ [mv], by simp, ?_⟩
      simpa [hsince] using hne.symm

/-! ## Warnings about a node that is ready -/

/-- After a node was found ready, and until it is found broken again, the news that it has failed
can only be published by a handler that was at work on it before the node was found ready, and has
not ended since.  Whoever publishes such news works on the node that the news is about, and says
so. -/
theorem warned_by_earlier_handler {m : Monitor} {before between : List (Move ι)} {now : Nat}
    {n : Node} {who : Option ι} {node : String} {d : Deed}
    (h : Run c (quiet m) (before ++ .visited now n :: (between ++ [.did who node d])) s)
    (hready : n.isReady = true) (hbetween : ∀ mv ∈ between, ¬ mv.Breaks (nameOf n))
    (hwarns : d.Warns) :
    d.WarnsAbout node ∧
    (node = nameOf n ∨
        d.WarnsAbout (nameOf n) ∧ ' ' ∉ node.toList ∧ ' ' ∉ (nameOf n).toList →
      ∃ i, who = some i ∧ AtWork i (nameOf n) before ∧ .ended i ∉ between) := by
  rw [← List.cons_append, ← List.append_assoc] at h
  obtain ⟨t, hrun, hdid⟩ := Path.concat_iff.mp h
  have habout : d.WarnsAbout node := hdid.warnsAbout (Run.stems hrun (stems_quiet c m)) hwarns
  refine ⟨habout, fun hnode => ?_⟩
  obtain rfl : node = nameOf n := by
    rcases hnode with hnode | ⟨habout', hblank, hblank'⟩
    · exact hnode
    · exact habout.node_eq habout' hblank hblank'
  obtain ⟨x, hbefore, hafter⟩ := Path.append_iff.mp hrun
  obtain ⟨y, hvisited, hrest⟩ := Path.cons_iff.mp hafter
  have hcalm : t.Calm (nameOf n) :=
    hrest.keeps (fun s mv hmv t hstep => hstep.calm (hbetween mv hmv))
      (hvisited.calm_of_ready hready)
  cases hdid with
  | goOn busy answer fits =>
    have hcalm := hcalm _ busy _ _ (Process.Does.step answer (Process.Does.nothing _))
    exact absurd hwarns (hcalm _ List.mem_cons_self)
  | @work i node e next busy answer fits =>
    have hnode : (t.handling i).node? = some (nameOf n) := by rw [busy]; rfl
    have hlater : .lost i (nameOf n) ∉ Move.visited now n :: between := by
      intro hmem
      rcases List.mem_cons.mp hmem with hvisit | hmem
      · cases hvisit
      · exact hbetween _ hmem rfl
    obtain ⟨hbefore, hended⟩ := (Run.atWork hrun hnode).of_append hlater
    exact ⟨i, rfl, hbefore, fun hmem => hended (List.mem_cons_of_mem _ hmem)⟩

end Watch

/-! ## A node that comes back during a rest -/

namespace ReturnedNode

open Node TwoClaims Watch

/-- The monitor when the node was found ready. -/
def seen : Monitor := { known with tracker := (known.tracker.observe (node true) 0).1 }

/-- A round that works out. -/
def complete : List Deed :=
  warnings seen ++ [.tracked (fun t => t.forget "node-1") seen]

lemma ends_refused : (deletionRound conduct "node-1").Ends (refused known) false :=
  ends_deletionRound_iff.mpr
    ⟨refused known, [], _, rfl, rfl, marking_refused affectedClaims_known, Noted.failure _⟩

lemma ends_complete : (deletionRound conduct "node-1").Ends complete true := by
  have hclaims : affectedClaims conduct seen "node-1" = .ok [first, second] := by decide +kernel
  exact ends_deletionRound_iff.mpr
    ⟨_, _, .ok (), rfl, rfl, marking_warnings hclaims, Noted.success seen⟩

/-- The node is lost, and the first round is refused. -/
def before : List (Move Unit) :=
  .lost () "node-1" :: (refused known).map (.did (some ()) "node-1") ++ [.rested ()]

/-- The next round begins while the node is ready. -/
def between : List (Move Unit) := [.left, .resumed (), .did (some ()) "node-1" (.looked seen)]

/-- The first claim is warned. -/
def warned : Deed := .sent (failureNotice "node-1" first) (.ok ())

/-- What is left of the round. -/
def later : List (Move Unit) :=
  [.did (some ()) "node-1" (.sent (failureNotice "node-1" second) (.ok ())),
    .did (some ()) "node-1" (.tracked (fun t => t.forget "node-1") seen)]

lemma run_before : Run conduct (quiet known) before
    ((quiet known).advance () known (.resting "node-1")) := by
  have hlost := Step.lose (c := conduct) (s := quiet known) (i := ()) rfl "node-1"
  have hround := run_of_leads conduct (quiet known) () "node-1" ends_refused
    (Path.step ⟨rfl, rfl⟩ (Path.single ⟨trivial, rfl⟩) : known.Leads (refused known) known)
  have hrested : Step conduct ((quiet known).advance () known (.inRound "node-1" (.done false)))
      (.rested ()) ((quiet known).advance () known (.resting "node-1")) :=
    (GetsOn.rested "node-1").step trivial
  exact Path.step hlost (hround.append (Path.single hrested))

lemma run_warned : ∃ s, Run conduct (quiet known)
    (before ++ .visited 0 (node true) :: (between ++ [.did (some ()) "node-1" warned])) s := by
  have hquiet : Tended conduct 0 (node true) [.observed 0 (node true) known] _ :=
    Tended.quiet (by decide)
  have hvisited := Step.visit (c := conduct)
    (s := (quiet known).advance () known (.resting "node-1")) rfl 0 (node true)
    (ends_cycle_iff.mpr hquiet)
  have hleft := Step.leave (c := conduct) (s := { (quiet seen).advance () seen (.resting "node-1")
    with visit := some ("node-1", .done (.ok (.after conduct.monitorInterval))) }) rfl
  have hresumed : Step conduct ((quiet seen).advance () seen (.resting "node-1")) (.resumed ())
      ((quiet seen).advance () seen (.inRound "node-1" (deletionRound conduct "node-1"))) :=
    (GetsOn.resumed "node-1" rfl).step trivial
  have hround := run_of_leads conduct (quiet seen) () "node-1" ends_complete
    (Path.step ⟨rfl, rfl⟩ (Path.step ⟨trivial, rfl⟩ (Path.step ⟨trivial, rfl⟩
      (Path.single ⟨rfl, rfl⟩))))
  have hrun := run_before.append
    (Path.step hvisited (Path.step hleft (Path.step hresumed hround)))
  have hsplit : before ++ .visited 0 (node true) :: .left :: .resumed () ::
      complete.map (Move.did (some ()) "node-1") = (before ++ .visited 0 (node true) ::
        (between ++ [.did (some ()) "node-1" warned])) ++ later := rfl
  rw [hsplit] at hrun
  obtain ⟨s, hs, -⟩ := Path.append_iff.mp hrun
  exact ⟨s, hs⟩

lemma unbroken_between : ∀ mv ∈ between, ¬ mv.Breaks "node-1" := by
  simp [between, Move.Breaks]

/-- The handler that warns was called before the node was found ready. -/
theorem warned_by_handler : (∃ s, Run conduct (quiet known) (before ++ .visited 0 (node true) ::
      (between ++ [.did (some ()) "node-1" warned])) s) ∧ (node true).isReady = true ∧
    (∀ mv ∈ between, ¬ mv.Breaks "node-1") ∧ warned.Warns ∧ warned.WarnsAbout "node-1" ∧
    ∃ i, some () = some i ∧ AtWork i "node-1" before ∧ .ended i ∉ between := by
  obtain ⟨s, hrun⟩ := run_warned
  have hready : (node true).isReady = true := by decide
  have hwarns : warned.Warns := ⟨_, rfl, rfl⟩
  obtain ⟨habout, hhandler⟩ := warned_by_earlier_handler hrun hready unbroken_between hwarns
  exact ⟨⟨s, hrun⟩, hready, unbroken_between, hwarns, habout, hhandler (Or.inl rfl)⟩

/-- A node can be warned about although it was found ready and not broken since. -/
theorem warned_although_ready : ¬ ∀ (c : Conduct) (m : Monitor) (s : Watch Unit)
    (before between : List (Move Unit)) (now : Nat) (n : Node) (who : Option Unit) (name : String)
    (d : Deed), Run c (quiet m) (before ++ .visited now n :: (between ++ [.did who name d])) s →
    n.isReady = true → (∀ mv ∈ between, ¬ mv.Breaks (nameOf n)) → ¬ d.WarnsAbout (nameOf n) := by
  intro hclaim
  obtain ⟨s, hrun⟩ := run_warned
  exact hclaim _ _ _ _ _ _ (node true) _ _ _ hrun (by decide) unbroken_between
    (Deed.warnsAbout_failureNotice "node-1" first)

end ReturnedNode

end StorageHealth
