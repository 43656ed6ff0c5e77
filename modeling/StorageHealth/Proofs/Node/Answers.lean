import StorageHealth.Proofs.Node.Tending

/-!
# Answers to warnings about nodes

When a node breaks, the claims on it are warned; when it is back, they are told.  A pass over the
claims may stop in the middle, and only a complete one is noted.  So a claim that was warned in a
pass that stopped is told about the recovery only if the node was noted as marked down all the same,
by another pass that was complete.

`Visits` are visits to nodes one after the other, during which everything that decides which claims
are on a node stays as it is, and nobody else touches the tracker.  `Visits.answers_warning_iff`
says exactly when a warning has been answered once a visit to the ready node worked out.
-/

namespace StorageHealth

/-! ## Undisturbed visits -/

namespace Monitor

/-- The claims on every node are the same. -/
structure SameClaims (m m' : Monitor) : Prop where
  volumes : m'.cached .volume = m.cached .volume
  claims : m'.cached .claim = m.cached .claim
  consumers : m'.consumers = m.consumers

/-- What visits to nodes depend on is the same. -/
structure SameOutage (m m' : Monitor) : Prop extends SameClaims m m' where
  tracker : m'.tracker = m.tracker

lemma SameClaims.refl (m : Monitor) : m.SameClaims m := ⟨rfl, rfl, rfl⟩

lemma SameClaims.trans {m m' m'' : Monitor} (h : m.SameClaims m') (h' : m'.SameClaims m'') :
    m.SameClaims m'' :=
  ⟨h'.volumes.trans h.volumes, h'.claims.trans h.claims, h'.consumers.trans h.consumers⟩

lemma SameOutage.refl (m : Monitor) : m.SameOutage m := ⟨SameClaims.refl m, rfl⟩

lemma SameClaims.affectedClaims_eq {m m' : Monitor} (h : m.SameClaims m') (c : Conduct)
    (node : String) : Node.affectedClaims c m' node = Node.affectedClaims c m node := by
  have hclaim : ∀ key, m'.claim? key = m.claim? key :=
    fun key => congrArg (fun s : Store Claim => s.lookup? (.within key.ns key.name)) h.claims
  simp only [Node.affectedClaims, Node.usedClaims, Node.usersOf, h.volumes, h.consumers, hclaim]

/-- These deeds lead from one monitor to another.  Whoever else is at work in between leaves alone
what visits to nodes depend on. -/
abbrev Steady : Monitor → List Deed → Monitor → Prop :=
  Path fun m d m' => ∃ x, m.SameOutage x ∧ d.Fits x ∧ m' = d.effect.leaves x

lemma Leads.steady {m m' : Monitor} {ds : List Deed} (h : m.Leads ds m') : m.Steady ds m' := by
  induction h with
  | nothing m => exact Path.nothing m
  | step first _ ih => exact Path.step ⟨_, SameOutage.refl _, first⟩ ih

lemma steady_append_iff {m m' : Monitor} {ds es : List Deed} :
    m.Steady (ds ++ es) m' ↔ ∃ x, m.Steady ds x ∧ x.Steady es m' := Path.append_iff

/-- An update is made of a monitor that is the same for visits to nodes. -/
lemma Steady.of_update {f : Monitor → Monitor} {m x m' : Monitor} {ds : List Deed}
    (h : m.Steady (⟨.update f, x⟩ :: ds) m') : m.SameOutage x ∧ (f x).Steady ds m' := by
  obtain _ | ⟨⟨y, same, fits, rfl⟩, rest⟩ := h
  have hx : x = y := fits
  subst hx
  exact ⟨same, rest⟩

lemma Steady.exclusive {m m' : Monitor} {ds : List Deed} (h : m.Steady ds m') :
    m.Exclusive ds m' := by
  induction h with
  | nothing m => exact Path.nothing m
  | step first _ ih =>
    obtain ⟨x, same, fits, rfl⟩ := first
    exact Path.step ⟨x, same.tracker, fits, rfl⟩ ih

/-- Whoever changes nothing but the tracker leaves the claims on every node as they are. -/
lemma Steady.sameClaims {m m' : Monitor} {ds : List Deed} (h : m.Steady ds m')
    (hds : ∀ d ∈ ds, d.Calm ∨ ∃ f x, d = .tracked f x) : m.SameClaims m' := by
  refine h.keeps ?_ (SameClaims.refl m)
  rintro y d hd _ ⟨x, same, -, rfl⟩ hy
  have hx : m.SameClaims x := hy.trans same.toSameClaims
  rcases hds d hd with hcalm | ⟨f, z, rfl⟩
  · rw [hcalm x]
    exact hx
  · exact ⟨hx.volumes, hx.claims, hx.consumers⟩

end Monitor

open Monitor

namespace Node

open Deed

variable {c : Conduct} {node : String} {notice : AffectedClaim → Notice} {ds : List Deed}
  {r : Except NodeError Unit} {m m' : Monitor}

/-! ## Passes that nobody disturbs -/

/-- Every notice that a pass sends is to one of the claims on the node. -/
lemma Passed.affected_of_sent (h : Passed c node notice ds r) (hsteady : m.Steady ds m')
    {n : Notice} {outcome : Except PublishError Unit} (hn : sent n outcome ∈ ds) :
    ∃ as, affectedClaims c m node = .ok as ∧ ∃ a ∈ as, n = notice a := by
  obtain ⟨x, rest, as, rfl, hclaims, hnotice⟩ := h.exists_of_sent hn
  obtain ⟨same, -⟩ := hsteady.of_update
  rw [same.affectedClaims_eq] at hclaims
  exact ⟨as, hclaims, hnotice⟩

/-- When a pass went well, every claim on the node was told. -/
lemma Passed.sent_of_ok (h : Passed c node notice ds (.ok ())) (hsteady : m.Steady ds m')
    {as : List AffectedClaim} (has : affectedClaims c m node = .ok as) {a : AffectedClaim}
    (ha : a ∈ as) : sent (notice a) (.ok ()) ∈ ds := by
  cases h with
  | went hclaims told =>
    obtain ⟨same, -⟩ := hsteady.of_update
    rw [same.affectedClaims_eq, has] at hclaims
    cases hclaims
    exact List.mem_cons_of_mem _ (told.sent_of_ok ha)

/-- Whoever is warned while a node is marked has one of the claims on the node. -/
lemma Marking.affected_of_sent {retries : Nat} (h : Marking c node retries ds r)
    (hsteady : m.Steady ds m') {n : Notice} {outcome : Except PublishError Unit}
    (hn : sent n outcome ∈ ds) :
    ∃ as, affectedClaims c m node = .ok as ∧ ∃ a ∈ as, n = failureNotice node a := by
  induction h generalizing m with
  | last pass => exact pass.affected_of_sent hsteady hn
  | succeeded retries pass => exact pass.affected_of_sent hsteady hn
  | again pass rest ih =>
    obtain ⟨x, hfirst, hrest⟩ := steady_append_iff.mp hsteady
    rcases List.mem_append.mp hn with hn | hn
    · exact pass.affected_of_sent hfirst hn
    · have hsame := hfirst.sameClaims fun d hd => Or.inl (pass.calm d hd)
      obtain _ | ⟨⟨y, same, -, rfl⟩, hothers⟩ := hrest
      rcases List.mem_cons.mp hn with hn | hn
      · exact absurd hn (sent_ne_paused _)
      · rw [← (hsame.trans same.toSameClaims).affectedClaims_eq]
        exact ih hothers hn

end Node

/-! ## Visits that nobody disturbs -/

namespace Monitor

variable {m m' x : Monitor} {ds : List Deed}

/-- The tracker is changed as it was, and nothing else. -/
lemma Steady.of_tracked {f : NodeTracker → NodeTracker} (h : m.Steady (.tracked f x :: ds) m') :
    x.tracker = m.tracker ∧ ∃ y, m.SameClaims y ∧ y.Steady ds m' := by
  obtain ⟨same, rest⟩ := h.of_update
  exact ⟨same.tracker, { x with tracker := f x.tracker },
    ⟨same.volumes, same.claims, same.consumers⟩, rest⟩

end Monitor

namespace Node

open Deed

section Tended

variable {c : Conduct} {now : Nat} {n : Node} {ds : List Deed} {r : Except NodeError Schedule}
  {m m' : Monitor}

/-- A visit does not change which claims are on the nodes, and leaves the tracker behind with a note
of what worked out. -/
lemma Tended.leaves (h : Tended c now n ds r) (hsteady : m.Steady ds m') :
    m.SameClaims m' ∧ m'.tracker = m.tracker.visited n now r.isOk :=
  ⟨hsteady.sameClaims h.calm_or_tracked, h.tracker_eq hsteady.exclusive⟩

/-- A notice is only sent by a pass that the tracker asked for, to one of the claims on the node. -/
lemma Tended.of_sent (h : Tended c now n ds r) (hsteady : m.Steady ds m') {notice : Notice}
    {outcome : Except PublishError Unit} (hsent : sent notice outcome ∈ ds) :
    ∃ as, affectedClaims c m (nameOf n) = .ok as ∧ ∃ a ∈ as,
      ((m.tracker.observe n now).2 = .markFailed ∧ notice = failureNotice (nameOf n) a ∨
        (m.tracker.observe n now).2 = .notifyRecovered ∧ notice = recoveryNotice (nameOf n) a) := by
  cases h with
  | @quiet x haction => exact absurd (List.mem_singleton.mp hsent) (sent_ne_update _ _)
  | @failed x haction marks last r marking noted =>
    obtain ⟨hx, y, hclaims, hrest⟩ := hsteady.of_tracked
    obtain ⟨z, hmarks, -⟩ := steady_append_iff.mp hrest
    have hlater := List.mem_of_ne_of_mem (sent_ne_update _ _) hsent
    have hmem := (List.mem_append.mp hlater).resolve_right noted.not_sent
    obtain ⟨as, has, a, ha, hnotice⟩ := marking.affected_of_sent hmarks hmem
    rw [hclaims.affectedClaims_eq] at has
    exact ⟨as, has, a, ha, Or.inl ⟨hx ▸ haction, hnotice⟩⟩
  | @back x haction told last r pass noted =>
    obtain ⟨hx, y, hclaims, hrest⟩ := hsteady.of_tracked
    obtain ⟨z, htold, -⟩ := steady_append_iff.mp hrest
    have hlater := List.mem_of_ne_of_mem (sent_ne_update _ _) hsent
    have hmem := (List.mem_append.mp hlater).resolve_right noted.not_sent
    obtain ⟨as, has, a, ha, hnotice⟩ := pass.affected_of_sent htold hmem
    rw [hclaims.affectedClaims_eq] at has
    exact ⟨as, has, a, ha, Or.inr ⟨hx ▸ haction, hnotice⟩⟩

/-- When the tracker asked for the recovery to be told and that worked out, every claim was told. -/
lemma Tended.sent_of_ok (h : Tended c now n ds r) (hsteady : m.Steady ds m') (hok : r.isOk = true)
    (haction : (m.tracker.observe n now).2 = .notifyRecovered) {as : List AffectedClaim}
    (has : affectedClaims c m (nameOf n) = .ok as) {a : AffectedClaim} (ha : a ∈ as) :
    sent (recoveryNotice (nameOf n) a) (.ok ()) ∈ ds := by
  have hfirst : ∀ {x : Monitor} {rest : List Deed}, m.Steady (observed now n x :: rest) m' →
      (x.tracker.observe n now).2 = .notifyRecovered := by
    intro x rest hsteady
    obtain ⟨hx, -⟩ := hsteady.of_tracked
    rw [hx, haction]
  cases h with
  | quiet hquiet =>
    rw [hfirst hsteady] at hquiet
    cases hquiet
  | failed hfailed marking noted =>
    rw [hfirst hsteady] at hfailed
    cases hfailed
  | @back x _ told last r pass noted =>
    obtain ⟨-, y, hclaims, hrest⟩ := hsteady.of_tracked
    obtain ⟨z, htold, -⟩ := steady_append_iff.mp hrest
    cases r with
    | error e => cases hok
    | ok _ =>
      rw [← hclaims.affectedClaims_eq] at has
      exact List.mem_cons_of_mem _ (List.mem_append_left _ (pass.sent_of_ok htold has ha))

end Tended

end Node

/-! ## Visits one after the other -/

namespace Node

open Deed

/-- A visit to a node: when it took place, what was remembered when it began, what was done and how
it ended. -/
structure Visit where
  now : Nat
  node : Node
  start : Monitor
  deeds : List Deed
  result : Except NodeError Schedule

namespace Visit

/-- In a visit, somebody is told something about a claim, and the cluster took it. -/
def Tells (notice : String → AffectedClaim → Notice) (s : Subject) (v : Visit) : Prop :=
  ∃ a, a.claim.subject = s ∧ sent (notice (nameOf v.node) a) (.ok ()) ∈ v.deeds

/-- In a visit, a warning about a claim is published. -/
def Warns (s : Subject) (v : Visit) : Prop := v.Tells failureNotice s

/-- In a visit, the recovery is published to a claim. -/
def Answers (s : Subject) (v : Visit) : Prop := v.Tells recoveryNotice s

end Visit

/-- Visits to nodes that lead from one monitor to another. -/
abbrev Visits (c : Conduct) : Monitor → List Visit → Monitor → Prop :=
  Path fun m v m' =>
    v.start = m ∧ (cycle c v.now v.node).Ends v.deeds v.result ∧ m.Steady v.deeds m'

namespace Visits

variable {c : Conduct} {m m' : Monitor} {v : Visit} {vs vs' : List Visit}

lemma cons_iff : Visits c m (v :: vs) m' ↔ ∃ x, (v.start = m ∧
    (cycle c v.now v.node).Ends v.deeds v.result ∧ m.Steady v.deeds x) ∧ Visits c x vs m' :=
  Path.cons_iff

lemma append_iff : Visits c m (vs ++ vs') m' ↔ ∃ x, Visits c m vs x ∧ Visits c x vs' m' :=
  Path.append_iff

lemma sameClaims (h : Visits c m vs m') : m.SameClaims m' := by
  refine h.keeps ?_ (SameClaims.refl m)
  rintro x v - y ⟨-, ends, steady⟩ hx
  exact hx.trans ((ends_cycle_iff.mp ends).leaves steady).1

/-- A mark that is taken away was taken away by a visit that told everybody. -/
lemma exists_told (h : Visits c m vs m') {name : String}
    (hmarked : m.tracker.isMarkedDown name = true)
    (hunmarked : m'.tracker.isMarkedDown name = false) {as : List AffectedClaim}
    (has : affectedClaims c m name = .ok as) {a : AffectedClaim} (ha : a ∈ as) :
    ∃ u ∈ vs, nameOf u.node = name ∧ u.Answers a.claim.subject := by
  induction h with
  | nothing m =>
    rw [hmarked] at hunmarked
    cases hunmarked
  | @step m m₁ m'' v vs first rest ih =>
    obtain ⟨-, ends, steady⟩ := first
    have htended := ends_cycle_iff.mp ends
    obtain ⟨hclaims, htracker⟩ := htended.leaves steady
    cases hmark : m₁.tracker.isMarkedDown name with
    | true =>
      rw [← hclaims.affectedClaims_eq] at has
      obtain ⟨u, hu, hanswers⟩ := ih hmark hunmarked has
      exact ⟨u, List.mem_cons_of_mem v hu, hanswers⟩
    | false =>
      rw [htracker] at hmark
      obtain ⟨hok, rfl, haction⟩ := NodeTracker.eq_notifyRecovered_of_unmarked hmarked hmark
      exact ⟨v, List.mem_cons_self, rfl, a, rfl, htended.sent_of_ok steady hok haction has ha⟩

/-- Only the claims on a node that is marked down are told that it is back. -/
lemma marked_of_answers (h : Visits c m (v :: vs) m') {s : Subject} (hanswers : v.Answers s) :
    v.start.tracker.isMarkedDown (nameOf v.node) = true := by
  obtain ⟨x, ⟨rfl, ends, steady⟩, -⟩ := cons_iff.mp h
  obtain ⟨a, -, hsent⟩ := hanswers
  obtain ⟨-, -, a', -, ⟨-, hnotice⟩ | ⟨haction, -⟩⟩ := (ends_cycle_iff.mp ends).of_sent steady hsent
  · cases congrArg Notice.reason hnotice
  · exact (NodeTracker.ready_of_notifyRecovered haction).2

/-- Who is warned has a claim on the node, which the tracker had found broken. -/
lemma affected_of_warns (h : Visits c m (v :: vs) m') {s : Subject} (hwarns : v.Warns s) :
    (m.tracker.observe v.node v.now).2 = .markFailed ∧
      ∃ as, affectedClaims c m (nameOf v.node) = .ok as ∧ ∃ a ∈ as, a.claim.subject = s := by
  obtain ⟨x, ⟨rfl, ends, steady⟩, -⟩ := cons_iff.mp h
  obtain ⟨a, rfl, hsent⟩ := hwarns
  obtain ⟨as, has, a', ha', ⟨haction, hnotice⟩ | ⟨-, hnotice⟩⟩ :=
    (ends_cycle_iff.mp ends).of_sent steady hsent
  · exact ⟨haction, as, has, a', ha', (congrArg Notice.subject hnotice).symm⟩
  · cases congrArg Notice.reason hnotice

lemma start_eq (h : Visits c m (v :: vs) m') : v.start = m := by
  obtain ⟨x, ⟨begins, -⟩, -⟩ := cons_iff.mp h
  exact begins

/-- After a visit to a ready node that worked out, the node is not marked down. -/
lemma unmarked_of_ready (h : Visits c m (vs ++ [v]) m') (hready : v.node.isReady = true)
    (hok : v.result.isOk = true) : m'.tracker.isMarkedDown (nameOf v.node) = false := by
  obtain ⟨x, -, hlast⟩ := append_iff.mp h
  obtain ⟨y, ⟨-, ends, steady⟩, hnothing⟩ := cons_iff.mp hlast
  cases hnothing
  rw [((ends_cycle_iff.mp ends).leaves steady).2, hok]
  exact NodeTracker.isMarkedDown_visited_of_ready hready

/-- Once a visit to a ready node has worked out, a warning about the node has been answered exactly
when the node was marked down at the beginning of one of the visits since.  It was, if the visit
with the warning worked out. -/
theorem answers_warning_iff {before later : List Visit} {w : Visit}
    (h : Visits c m (before ++ w :: (later ++ [v])) m') (hname : nameOf w.node = nameOf v.node)
    (hready : v.node.isReady = true) (hok : v.result.isOk = true) {s : Subject}
    (hwarns : w.Warns s) :
    ((∃ u ∈ later ++ [v], nameOf u.node = nameOf v.node ∧ u.Answers s) ↔
      ∃ u ∈ later ++ [v], u.start.tracker.isMarkedDown (nameOf v.node) = true) ∧
    (w.result.isOk = true → ∃ u ∈ later ++ [v], nameOf u.node = nameOf v.node ∧ u.Answers s) := by
  obtain ⟨x, -, hw⟩ := append_iff.mp h
  obtain ⟨hfailed, as, has, a, ha, rfl⟩ := hw.affected_of_warns hwarns
  obtain ⟨y, ⟨-, ends, steady⟩, hrest⟩ := cons_iff.mp hw
  obtain ⟨hclaims, htracker⟩ := (ends_cycle_iff.mp ends).leaves steady
  rw [← hclaims.affectedClaims_eq, hname] at has
  have hunmarked := hrest.unmarked_of_ready hready hok
  refine ⟨⟨?_, ?_⟩, ?_⟩
  · rintro ⟨u, hu, hsame, hanswers⟩
    obtain ⟨p, q, hsplit⟩ := List.append_of_mem hu
    rw [hsplit] at hrest
    obtain ⟨z, -, hq⟩ := append_iff.mp hrest
    exact ⟨u, hu, hsame ▸ hq.marked_of_answers hanswers⟩
  · rintro ⟨u, hu, hmarked⟩
    obtain ⟨p, q, hsplit⟩ := List.append_of_mem hu
    rw [hsplit] at hrest ⊢
    obtain ⟨z, hp, hq⟩ := append_iff.mp hrest
    rw [hq.start_eq] at hmarked
    rw [← hp.sameClaims.affectedClaims_eq] at has
    obtain ⟨u', hu', htold⟩ := hq.exists_told hmarked hunmarked has ha
    exact ⟨u', List.mem_append_right p hu', htold⟩
  · intro hworked
    refine hrest.exists_told ?_ hunmarked has ha
    rw [htracker, hworked, ← hname]
    exact NodeTracker.isMarkedDown_visited_of_markFailed hfailed

end Visits

end Node

/-! ## Warnings that stop in the middle -/

namespace HalfWarned

open Node TwoClaims

/-- The first claim is warned, the warning of the second one is refused. -/
def halfWarned : Visit where
  now := 0
  node := node false
  start := known
  deeds := [.observed 0 (node false) known, .looked known,
    .sent (failureNotice "node-1" first) (.ok ()),
    .sent (failureNotice "node-1" second) (.error refusal)]
  result := .error (.notify second.claim.key refusal)

/-- The monitor when the node was found well. -/
def well (m : Monitor) : Monitor := { m with tracker := (m.tracker.observe (node true) 2).1 }

/-- The node is found well, and nobody is told. -/
def foundWell : Visit where
  now := 2
  node := node true
  start := known
  deeds := [.observed 2 (node true) known]
  result := .ok (.after (.ofSeconds 60))

lemma warns_halfWarned : halfWarned.Warns first.claim.subject :=
  ⟨first, rfl, List.mem_cons_of_mem _ (List.mem_cons_of_mem _ List.mem_cons_self)⟩

lemma visits_halfWarned {vs : List Visit} {m : Monitor} (h : Visits conduct known vs m) :
    Visits conduct known (halfWarned :: vs) m := by
  have haction : (known.tracker.observe (node false) 0).2 = .markFailed := by decide
  have htold : Told (failureNotice "node-1") [first, second] _ _ :=
    Told.next first (Told.refused second [] refusal)
  refine Path.step ⟨rfl, ?_, ?_⟩ h
  · exact ends_cycle_iff.mpr (Tended.failed haction
      (Marking.last (Passed.went affectedClaims_known htold)) (Noted.failure _))
  · refine Leads.steady (Path.step ⟨rfl, rfl⟩ (Path.step ⟨rfl, rfl⟩ ?_))
    exact Path.step ⟨trivial, rfl⟩ (Path.single ⟨trivial, rfl⟩)

lemma visits_foundWell : Visits conduct known [halfWarned, foundWell] (well known) := by
  have haction : (known.tracker.observe (node true) 2).2 = .nothing := by decide
  refine visits_halfWarned (Path.single ⟨rfl, ?_, ?_⟩)
  · exact ends_cycle_iff.mpr (Tended.quiet haction)
  · exact Leads.steady (Path.single ⟨rfl, rfl⟩)

/-- The monitor when the node was noted as marked down. -/
def marked : Monitor := { known with tracker := known.tracker.marked "node-1" }

/-- The node is marked again, this time completely. -/
def warned : Visit where
  now := 1
  node := node false
  start := known
  deeds := [.observed 1 (node false) known, .looked known,
    .sent (failureNotice "node-1" first) (.ok ()), .sent (failureNotice "node-1" second) (.ok ()),
    .tracked (fun t => t.marked "node-1") known]
  result := .ok (.after (.ofSeconds 60))

/-- The node is found well, and both claims are told. -/
def told : Visit where
  now := 2
  node := node true
  start := marked
  deeds := [.observed 2 (node true) marked, .looked (well marked),
    .sent (recoveryNotice "node-1" first) (.ok ()), .sent (recoveryNotice "node-1" second) (.ok ()),
    .tracked (fun t => t.recovered "node-1") (well marked)]
  result := .ok (.after (.ofSeconds 60))

/-- The monitor when the recovery was noted. -/
def settled : Monitor :=
  { well marked with tracker := (well marked).tracker.recovered "node-1" }

lemma visits_told : Visits conduct known [halfWarned, warned, told] settled := by
  have hfailed : (known.tracker.observe (node false) 1).2 = .markFailed := by decide
  have hback : (marked.tracker.observe (node true) 2).2 = .notifyRecovered := by decide
  have hwell : affectedClaims conduct (well marked) "node-1" = .ok [first, second] := by
    decide +kernel
  refine visits_halfWarned (Path.step ⟨rfl, ?_, ?_⟩ (Path.single ⟨rfl, ?_, ?_⟩))
  · have hpass := Passed.went affectedClaims_known (told_both (failureNotice "node-1"))
    exact ends_cycle_iff.mpr (Tended.failed hfailed (Marking.last hpass) (Noted.success known))
  · refine Leads.steady (Path.step ⟨rfl, rfl⟩ (Path.step ⟨rfl, rfl⟩ (Path.step ⟨trivial, rfl⟩ ?_)))
    exact Path.step ⟨trivial, rfl⟩ (Path.single ⟨rfl, rfl⟩)
  · have hpass := Passed.went hwell (told_both (recoveryNotice "node-1"))
    exact ends_cycle_iff.mpr (Tended.back hback hpass (Noted.success (well marked)))
  · refine Leads.steady (Path.step ⟨rfl, rfl⟩ (Path.step ⟨rfl, rfl⟩ (Path.step ⟨trivial, rfl⟩ ?_)))
    exact Path.step ⟨trivial, rfl⟩ (Path.single ⟨rfl, rfl⟩)

/-- A complete marking makes up for the one before that stopped in the middle. -/
theorem answered_after_complete : Visits conduct known [halfWarned, warned, told] settled ∧
    halfWarned.Warns first.claim.subject ∧
    ∃ u ∈ [warned, told], nameOf u.node = "node-1" ∧ u.Answers first.claim.subject := by
  have hvisits : Visits conduct known ([] ++ halfWarned :: ([warned] ++ [told])) settled :=
    visits_told
  refine ⟨visits_told, warns_halfWarned, ?_⟩
  refine (Visits.answers_warning_iff hvisits rfl (by decide) rfl warns_halfWarned).1.mpr ⟨told, ?_⟩
  exact ⟨List.mem_cons_of_mem _ List.mem_cons_self, by decide⟩

/-- A warning can stay without an answer although a visit to the ready node has worked out. -/
theorem stays_unanswered : ¬ ∀ (c : Conduct) (m m' : Monitor) (before later : List Visit)
    (w v : Visit) (s : Subject), Visits c m (before ++ w :: (later ++ [v])) m' →
    nameOf w.node = nameOf v.node → v.node.isReady = true → v.result.isOk = true → w.Warns s →
    ∃ u ∈ later ++ [v], nameOf u.node = nameOf v.node ∧ u.Answers s := by
  intro hclaim
  obtain ⟨u, hu, -, a, -, hsent⟩ := hclaim conduct known _ [] [] halfWarned foundWell _
    visits_foundWell rfl (by decide) rfl warns_halfWarned
  rw [List.nil_append, List.mem_singleton] at hu
  rw [hu] at hsent
  exact Deed.sent_ne_update _ _ (List.mem_singleton.mp hsent)

end HalfWarned

end StorageHealth
