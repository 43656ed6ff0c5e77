import StorageHealth.Proofs.Check.Reports
import StorageHealth.Proofs.Node.Tracker
import StorageHealth.Node.Cycle

/-!
# What is done about a node

The claims on a node are told one after the other until one is refused (`Told`).  Before that a pass
looks up which claims these are (`Passed`), marking a node makes passes until one succeeds
(`Marking`), and a visit to a node observes it, does what the tracker says and takes note when that
worked out (`Tended`).

Each of the four relates the deeds of the activity to how it ended, and `Tended` is all that the
later files need to know of a visit: `ends_cycle_iff` says that visits do just that.  A round for a
deleted node is made of the same parts, without an observation (`ends_deletionRound_iff`).
-/

namespace StorageHealth

namespace Deed

/-- The tracker was changed. -/
def tracked (f : NodeTracker → NodeTracker) (m : Monitor) : Deed :=
  ⟨.update (fun m => { m with tracker := f m.tracker }), m⟩

/-- A node was observed. -/
def observed (now : Nat) (n : Node) (m : Monitor) : Deed :=
  tracked (fun t => (t.observe n now).1) m

/-- A while was waited. -/
def paused (length : Span) : Deed := ⟨.pause length, ()⟩

lemma notice_eq_of_sent {n n' : Notice} {outcome outcome' : Except PublishError Unit}
    (h : sent n outcome = sent n' outcome') : n = n' :=
  Effect.publish.inj (congrArg effect h)

lemma sent_ne_update {n : Notice} {outcome : Except PublishError Unit} (f : Monitor → Monitor)
    (m : Monitor) : sent n outcome ≠ ⟨.update f, m⟩ := by
  intro h
  cases congrArg effect h

lemma sent_ne_paused {n : Notice} {outcome : Except PublishError Unit} (length : Span) :
    sent n outcome ≠ paused length := by
  intro h
  cases congrArg effect h

end Deed

namespace Node

open Deed

/-! ## Passes -/

/-- How telling claims goes: one after the other, until one is refused. -/
inductive Told (notice : AffectedClaim → Notice) :
    List AffectedClaim → List Deed → Except NodeError Unit → Prop where
  | all : Told notice [] [] (.ok ())
  | refused (a : AffectedClaim) (rest : List AffectedClaim) (e : PublishError) :
      Told notice (a :: rest) [sent (notice a) (.error e)] (.error (.notify a.claim.key e))
  | next (a : AffectedClaim) {rest : List AffectedClaim} {ds : List Deed}
      {r : Except NodeError Unit} (others : Told notice rest ds r) :
      Told notice (a :: rest) (sent (notice a) (.ok ()) :: ds) r

lemma ends_tellAll_iff {notice : AffectedClaim → Notice} {as : List AffectedClaim}
    {ds : List Deed} {r : Except NodeError Unit} :
    (tellAll notice as).Ends ds r ↔ Told notice as ds r := by
  have hsent : ∀ {a : AffectedClaim} {ds : List Deed} {r : Except NodeError Unit},
      ((publish (notice a)).mapError (.notify a.claim.key)).Ends ds r ↔
        ∃ outcome, ds = [sent (notice a) outcome] ∧ r = outcome.mapError (.notify a.claim.key) := by
    intro a ds r
    rw [Attempt.ends_mapError_iff]
    exact exists_congr fun outcome => and_congr_left fun _ => Check.ends_publish_iff
  constructor
  · intro h
    induction as generalizing ds with
    | nil =>
      obtain ⟨rfl, rfl⟩ := Attempt.ends_pure_iff.mp h
      exact Told.all
    | cons a rest ih =>
      rcases Attempt.ends_bind_iff.mp h with
        ⟨first, _, others, rfl, hfirst, hothers⟩ | ⟨e, rfl, hfirst⟩
      · obtain ⟨outcome, rfl, hok⟩ := hsent.mp hfirst
        cases outcome with
        | ok _ => exact Told.next a (ih hothers)
        | error e => cases hok
      · obtain ⟨outcome, rfl, herror⟩ := hsent.mp hfirst
        cases outcome with
        | ok _ => cases herror
        | error e' =>
          cases herror
          exact Told.refused a rest e'
  · intro h
    induction h with
    | all => exact Attempt.ends_pure_iff.mpr ⟨rfl, rfl⟩
    | refused a rest e =>
      exact Attempt.ends_bind_iff.mpr (Or.inr ⟨_, rfl, hsent.mpr ⟨.error e, rfl, rfl⟩⟩)
    | next a _ ih =>
      exact Attempt.ends_bind_iff.mpr
        (Or.inl ⟨_, (), _, List.singleton_append.symm, hsent.mpr ⟨.ok (), rfl, rfl⟩, ih⟩)

/-- Every notice that is sent is to one of the claims. -/
lemma Told.exists_of_sent {notice : AffectedClaim → Notice} {ds : List Deed}
    {r : Except NodeError Unit} {as : List AffectedClaim} (h : Told notice as ds r) {n : Notice}
    {outcome : Except PublishError Unit} (hn : sent n outcome ∈ ds) : ∃ a ∈ as, n = notice a := by
  induction h with
  | all => cases hn
  | refused a rest e =>
    exact ⟨a, List.mem_cons_self, notice_eq_of_sent (List.mem_singleton.mp hn)⟩
  | next a _ ih =>
    rcases List.mem_cons.mp hn with hn | hn
    · exact ⟨a, List.mem_cons_self, notice_eq_of_sent hn⟩
    · obtain ⟨a', ha', hnotice⟩ := ih hn
      exact ⟨a', List.mem_cons_of_mem a ha', hnotice⟩

/-- When all went well, every claim was told. -/
lemma Told.sent_of_ok {notice : AffectedClaim → Notice} {ds : List Deed}
    {as : List AffectedClaim} (h : Told notice as ds (.ok ())) {a : AffectedClaim}
    (ha : a ∈ as) : sent (notice a) (.ok ()) ∈ ds := by
  generalize hr : Except.ok () = r at h
  induction h with
  | all => cases ha
  | refused a rest e => cases hr
  | next a' _ ih =>
    rcases List.mem_cons.mp ha with rfl | ha
    · exact List.mem_cons_self
    · exact List.mem_cons_of_mem _ (ih ha hr)

/-- What a pass over the claims on a node does, and how it ends. -/
inductive Passed (c : Conduct) (node : String) (notice : AffectedClaim → Notice) :
    List Deed → Except NodeError Unit → Prop where
  | incomplete {m : Monitor} {e : NodeError} (hclaims : affectedClaims c m node = .error e) :
      Passed c node notice [looked m] (.error e)
  | went {m : Monitor} {as : List AffectedClaim} (hclaims : affectedClaims c m node = .ok as)
      {ds : List Deed} {r : Except NodeError Unit} (told : Told notice as ds r) :
      Passed c node notice (looked m :: ds) r

lemma ends_pass_iff {c : Conduct} {node : String} {notice : AffectedClaim → Notice}
    {ds : List Deed} {r : Except NodeError Unit} :
    (pass c node notice).Ends ds r ↔ Passed c node notice ds r := by
  rw [pass, Attempt.ends_look_bind_iff]
  constructor
  · rintro ⟨m, rest, rfl, hrest⟩
    rcases Attempt.ends_bind_iff.mp hrest with
      ⟨first, as, others, rfl, hfirst, htell⟩ | ⟨e, rfl, hfirst⟩
    · obtain ⟨rfl, hclaims⟩ := Attempt.ends_ofExcept_iff.mp hfirst
      exact Passed.went hclaims.symm (ends_tellAll_iff.mp htell)
    · obtain ⟨rfl, hclaims⟩ := Attempt.ends_ofExcept_iff.mp hfirst
      exact Passed.incomplete hclaims.symm
  · intro h
    cases h with
    | @incomplete m e hclaims =>
      refine ⟨m, [], rfl, Attempt.ends_bind_iff.mpr (Or.inr ⟨e, rfl, ?_⟩)⟩
      exact Attempt.ends_ofExcept_iff.mpr ⟨rfl, hclaims.symm⟩
    | @went m as hclaims ds r told =>
      refine ⟨m, ds, rfl, Attempt.ends_bind_iff.mpr (Or.inl ⟨[], as, ds, rfl, ?_, ?_⟩)⟩
      · exact Attempt.ends_ofExcept_iff.mpr ⟨rfl, hclaims.symm⟩
      · exact ends_tellAll_iff.mpr told

/-- Every notice that a pass sends is to one of the claims that it has looked up. -/
lemma Passed.exists_of_sent {c : Conduct} {node : String} {notice : AffectedClaim → Notice}
    {ds : List Deed} {r : Except NodeError Unit} (h : Passed c node notice ds r) {n : Notice}
    {outcome : Except PublishError Unit} (hn : sent n outcome ∈ ds) :
    ∃ m rest as, ds = looked m :: rest ∧ affectedClaims c m node = .ok as ∧
      ∃ a ∈ as, n = notice a := by
  cases h with
  | incomplete hclaims => exact absurd (List.mem_singleton.mp hn) (sent_ne_update _ _)
  | @went m as hclaims rest r told =>
    have hmem := List.mem_of_ne_of_mem (sent_ne_update _ _) hn
    exact ⟨m, rest, as, rfl, hclaims, told.exists_of_sent hmem⟩

/-! ## Marking -/

/-- What marking a node does with so many further tries, and how it ends. -/
inductive Marking (c : Conduct) (node : String) :
    Nat → List Deed → Except NodeError Unit → Prop where
  | last {ds : List Deed} {r : Except NodeError Unit}
      (pass : Passed c node (failureNotice node) ds r) : Marking c node 0 ds r
  | succeeded (retries : Nat) {ds : List Deed}
      (pass : Passed c node (failureNotice node) ds (.ok ())) :
      Marking c node (retries + 1) ds (.ok ())
  | again {retries : Nat} {ds : List Deed} {e : NodeError}
      (pass : Passed c node (failureNotice node) ds (.error e)) {es : List Deed}
      {r : Except NodeError Unit} (rest : Marking c node retries es r) :
      Marking c node (retries + 1) (ds ++ paused c.retryDelay :: es) r

lemma ends_markWithRetries_iff {c : Conduct} {node : String} {retries : Nat} {ds : List Deed}
    {r : Except NodeError Unit} :
    (markWithRetries c node retries).Ends ds r ↔ Marking c node retries ds r := by
  constructor
  · intro h
    induction retries generalizing ds with
    | zero => exact Marking.last (ends_pass_iff.mp h)
    | succ retries ih =>
      obtain ⟨first, outcome, rest, rfl, hfirst, hrest⟩ := Attempt.ends_lift_bind_iff.mp h
      cases outcome with
      | ok _ =>
        obtain ⟨rfl, rfl⟩ := Attempt.ends_pure_iff.mp hrest
        rw [List.append_nil]
        exact Marking.succeeded retries (ends_pass_iff.mp hfirst)
      | error e =>
        obtain ⟨pause, _, others, rfl, hpause, hothers⟩ := Attempt.ends_lift_bind_iff.mp hrest
        rw [Process.ends_perform_iff.mp hpause]
        exact Marking.again (ends_pass_iff.mp hfirst) (ih hothers)
  · intro h
    induction h with
    | last pass => exact ends_pass_iff.mpr pass
    | succeeded retries pass =>
      refine Attempt.ends_lift_bind_iff.mpr
        ⟨_, .ok (), [], (List.append_nil _).symm, ends_pass_iff.mpr pass, ?_⟩
      exact Attempt.ends_pure_iff.mpr ⟨rfl, rfl⟩
    | @again retries ds e pass es r _ ih =>
      refine Attempt.ends_lift_bind_iff.mpr ⟨_, .error e, _, rfl, ends_pass_iff.mpr pass, ?_⟩
      refine Attempt.ends_lift_bind_iff.mpr ⟨_, (), _, List.singleton_append.symm, ?_, ih⟩
      exact Process.ends_perform_iff.mpr rfl

/-- Marking a node sends warnings only. -/
lemma Marking.exists_of_sent {c : Conduct} {node : String} {retries : Nat} {ds : List Deed}
    {r : Except NodeError Unit} (h : Marking c node retries ds r) {n : Notice}
    {outcome : Except PublishError Unit} (hn : sent n outcome ∈ ds) :
    ∃ a, n = failureNotice node a := by
  have hpass : ∀ {ds r}, Passed c node (failureNotice node) ds r → sent n outcome ∈ ds →
      ∃ a, n = failureNotice node a := by
    intro ds r pass hmem
    obtain ⟨-, -, -, -, -, a, -, hnotice⟩ := pass.exists_of_sent hmem
    exact ⟨a, hnotice⟩
  induction h with
  | last pass => exact hpass pass hn
  | succeeded retries pass => exact hpass pass hn
  | again pass rest ih =>
    rcases List.mem_append.mp hn with hmem | hmem
    · exact hpass pass hmem
    · exact ih (List.mem_of_ne_of_mem (sent_ne_paused _) hmem)

/-! ## Visits -/

/-- What is noted after something was tried: nothing, unless it worked out. -/
inductive Noted (f : NodeTracker → NodeTracker) : Except NodeError Unit → List Deed → Prop where
  | success (m : Monitor) : Noted f (.ok ()) [tracked f m]
  | failure (e : NodeError) : Noted f (.error e) []

lemma Noted.not_sent {f : NodeTracker → NodeTracker} {r : Except NodeError Unit}
    {last : List Deed} (h : Noted f r last) {notice : Notice} {outcome : Except PublishError Unit} :
    sent notice outcome ∉ last := by
  cases h with
  | success x => exact fun hmem => sent_ne_update _ _ (List.mem_singleton.mp hmem)
  | failure e => exact List.not_mem_nil

/-- What a visit to a node does, and how it ends. -/
inductive Tended (c : Conduct) (now : Nat) (n : Node) :
    List Deed → Except NodeError Schedule → Prop where
  | quiet {m : Monitor} (haction : (m.tracker.observe n now).2 = .nothing) :
      Tended c now n [observed now n m] (.ok (.after c.monitorInterval))
  | failed {m : Monitor} (haction : (m.tracker.observe n now).2 = .markFailed)
      {ds last : List Deed} {r : Except NodeError Unit}
      (marking : Marking c (nameOf n) (c.markAttempts - 1) ds r)
      (noted : Noted (fun t => t.marked (nameOf n)) r last) :
      Tended c now n (observed now n m :: (ds ++ last)) (r.map fun _ => .after c.monitorInterval)
  | back {m : Monitor} (haction : (m.tracker.observe n now).2 = .notifyRecovered)
      {ds last : List Deed} {r : Except NodeError Unit}
      (pass : Passed c (nameOf n) (recoveryNotice (nameOf n)) ds r)
      (noted : Noted (fun t => t.recovered (nameOf n)) r last) :
      Tended c now n (observed now n m :: (ds ++ last)) (r.map fun _ => .after c.monitorInterval)

lemma ends_noted_iff (f : NodeTracker → NodeTracker) {x : Attempt NodeError Unit} {a : Schedule}
    {ds : List Deed} {r : Except NodeError Schedule} : Attempt.Ends (x >>= fun _ =>
      (liftM (Process.change fun m => { m with tracker := f m.tracker }) : Attempt NodeError Unit)
        >>= fun _ => pure a) ds r ↔
    ∃ first last r', ds = first ++ last ∧ r = r'.map (fun _ => a) ∧ x.Ends first r' ∧
      Noted f r' last := by
  rw [Attempt.ends_bind_iff]
  constructor
  · rintro (⟨first, _, rest, rfl, hfirst, hnote⟩ | ⟨e, rfl, hx⟩)
    · obtain ⟨m, last, rfl, hlast⟩ := Attempt.ends_change_bind_iff.mp hnote
      obtain ⟨rfl, rfl⟩ := Attempt.ends_pure_iff.mp hlast
      exact ⟨first, _, .ok (), rfl, rfl, hfirst, Noted.success m⟩
    · exact ⟨ds, [], .error e, (List.append_nil ds).symm, rfl, hx, Noted.failure e⟩
  · rintro ⟨first, last, r', rfl, rfl, hx, hlast⟩
    cases hlast with
    | success m =>
      refine Or.inl ⟨first, (), _, rfl, hx, Attempt.ends_change_bind_iff.mpr ⟨m, [], rfl, ?_⟩⟩
      exact Attempt.ends_pure_iff.mpr ⟨rfl, rfl⟩
    | failure e =>
      rw [List.append_nil]
      exact Or.inr ⟨e, rfl, hx⟩

/-- A visit does what is listed, and nothing else. -/
theorem ends_cycle_iff {c : Conduct} {now : Nat} {n : Node} {ds : List Deed}
    {r : Except NodeError Schedule} : (cycle c now n).Ends ds r ↔ Tended c now n ds r := by
  constructor
  · intro h
    obtain ⟨first, m, rest, rfl, hfirst, hrest⟩ := Attempt.ends_lift_bind_iff.mp h
    rw [Process.ends_perform_iff.mp hfirst, List.singleton_append]
    cases haction : (m.tracker.observe n now).2 with
    | nothing =>
      simp only [haction] at hrest
      obtain ⟨rfl, rfl⟩ := Attempt.ends_pure_iff.mp hrest
      exact Tended.quiet haction
    | markFailed =>
      simp only [haction] at hrest
      obtain ⟨marks, last, r', rfl, rfl, hmarks, hlast⟩ :=
        (ends_noted_iff fun t => t.marked (nameOf n)).mp hrest
      exact Tended.failed haction (ends_markWithRetries_iff.mp hmarks) hlast
    | notifyRecovered =>
      simp only [haction] at hrest
      obtain ⟨told, last, r', rfl, rfl, htold, hlast⟩ :=
        (ends_noted_iff fun t => t.recovered (nameOf n)).mp hrest
      exact Tended.back haction (ends_pass_iff.mp htold) hlast
  · intro h
    have hobserve : ∀ {m : Monitor}, (Process.perform (.update fun m =>
        { m with tracker := (m.tracker.observe n now).1 })).Ends [observed now n m] m :=
      Process.ends_perform_iff.mpr rfl
    cases h with
    | quiet haction =>
      refine Attempt.ends_lift_bind_iff.mpr ⟨_, _, [], rfl, hobserve, ?_⟩
      simp only [haction]
      exact Attempt.ends_pure_iff.mpr ⟨rfl, rfl⟩
    | failed haction marking noted =>
      refine Attempt.ends_lift_bind_iff.mpr ⟨_, _, _, List.singleton_append.symm, hobserve, ?_⟩
      simp only [haction]
      exact (ends_noted_iff fun t => t.marked (nameOf n)).mpr
        ⟨_, _, _, rfl, rfl, ends_markWithRetries_iff.mpr marking, noted⟩
    | back haction pass noted =>
      refine Attempt.ends_lift_bind_iff.mpr ⟨_, _, _, List.singleton_append.symm, hobserve, ?_⟩
      simp only [haction]
      exact (ends_noted_iff fun t => t.recovered (nameOf n)).mpr
        ⟨_, _, _, rfl, rfl, ends_pass_iff.mpr pass, noted⟩

/-- A round for a deleted node marks it, and forgets it when that worked out. -/
lemma ends_deletionRound_iff {c : Conduct} {node : String} {ds : List Deed} {worked : Bool} :
    (deletionRound c node).Ends ds worked ↔ ∃ first last r, ds = first ++ last ∧ worked = r.isOk ∧
      Marking c node (c.markAttempts - 1) first r ∧ Noted (fun t => t.forget node) r last := by
  rw [deletionRound, Process.bind_eq, Process.ends_bind_iff]
  constructor
  · rintro ⟨first, r, rest, rfl, hfirst, hrest⟩
    have hmarking := ends_markWithRetries_iff.mp hfirst
    cases r with
    | ok _ =>
      obtain ⟨noted, _, last, rfl, hnoted, hlast⟩ := Process.ends_bind_iff.mp hrest
      obtain ⟨m, rfl⟩ := Process.ends_change_iff.mp hnoted
      obtain ⟨rfl, rfl⟩ := Process.ends_done_iff.mp hlast
      exact ⟨first, _, .ok (), rfl, rfl, hmarking, Noted.success m⟩
    | error e =>
      obtain ⟨rfl, rfl⟩ := Process.ends_done_iff.mp hrest
      exact ⟨first, [], .error e, rfl, rfl, hmarking, Noted.failure e⟩
  · rintro ⟨first, last, r, rfl, rfl, hmarking, hnoted⟩
    refine ⟨first, r, last, rfl, ends_markWithRetries_iff.mpr hmarking, ?_⟩
    cases hnoted with
    | success m =>
      refine Process.ends_bind_iff.mpr ⟨_, (), [], rfl, Process.ends_change_iff.mpr ⟨m, rfl⟩, ?_⟩
      exact Process.ends_done_iff.mpr ⟨rfl, rfl⟩
    | failure e => exact Process.ends_done_iff.mpr ⟨rfl, rfl⟩

/-- A round for a deleted node sends warnings about it only. -/
lemma exists_of_sent_deletionRound {c : Conduct} {node : String} {ds : List Deed} {worked : Bool}
    (h : (deletionRound c node).Ends ds worked) {n : Notice} {outcome : Except PublishError Unit}
    (hn : sent n outcome ∈ ds) : ∃ a, n = failureNotice node a := by
  obtain ⟨first, last, r, rfl, -, hmarking, hnoted⟩ := ends_deletionRound_iff.mp h
  exact hmarking.exists_of_sent ((List.mem_append.mp hn).resolve_right hnoted.not_sent)

/-- A visit sends no other news of a failed node than warnings about the node that is visited. -/
lemma Tended.exists_of_sent {c : Conduct} {now : Nat} {n : Node} {ds : List Deed}
    {r : Except NodeError Schedule} (h : Tended c now n ds r) {notice : Notice}
    {outcome : Except PublishError Unit} (hn : sent notice outcome ∈ ds)
    (hreason : notice.reason = .nodeFailed) : ∃ a, notice = failureNotice (nameOf n) a := by
  cases h with
  | quiet haction => exact absurd (List.mem_singleton.mp hn) (sent_ne_update _ _)
  | failed haction marking noted =>
    have hlater := List.mem_of_ne_of_mem (sent_ne_update _ _) hn
    exact marking.exists_of_sent ((List.mem_append.mp hlater).resolve_right noted.not_sent)
  | back haction pass noted =>
    have hlater := List.mem_of_ne_of_mem (sent_ne_update _ _) hn
    have hmem := (List.mem_append.mp hlater).resolve_right noted.not_sent
    obtain ⟨-, -, -, -, -, a, -, rfl⟩ := pass.exists_of_sent hmem
    cases hreason

/-- A visit to a ready node warns nobody. -/
lemma Tended.not_warned_of_ready {c : Conduct} {now : Nat} {n : Node} {ds : List Deed}
    {r : Except NodeError Schedule} (h : Tended c now n ds r) (hready : n.isReady = true)
    {a : AffectedClaim} {outcome : Except PublishError Unit} :
    sent (failureNotice (nameOf n) a) outcome ∉ ds := by
  intro hsent
  cases h with
  | quiet haction => exact sent_ne_update _ _ (List.mem_singleton.mp hsent)
  | @failed m haction ds last r marking noted =>
    rw [NodeTracker.observe_of_ready hready] at haction
    split at haction <;> cases haction
  | back haction pass noted =>
    rcases List.mem_append.mp (List.mem_of_ne_of_mem (sent_ne_update _ _) hsent) with hmem | hmem
    · obtain ⟨-, -, -, -, -, a', -, hnotice⟩ := pass.exists_of_sent hmem
      cases congrArg Notice.reason hnotice
    · exact noted.not_sent hmem

/-! ## What visits are made of -/

section Activities

variable {P : List Deed → Prop} {c : Conduct} {node : String} (hP : Closed P)
  (hlook : ∀ m, P [looked m])

include hP hlook

lemma always_pass {notice : AffectedClaim → Notice}
    (hsent : ∀ a outcome, P [sent (notice a) outcome]) : (pass c node notice).Always P := by
  have htell : ∀ as, (tellAll notice as).Always P := by
    intro as
    induction as with
    | nil => exact hP.pure ()
    | cons a rest ih =>
      have hfirst : (publish (notice a)).Always P :=
        Process.always_perform (e := .publish (notice a)) (hsent a)
      exact hP.andThen hfirst.mapError fun _ => ih
  refine hP.andThen (Process.always_perform hlook).lift fun m => ?_
  exact hP.andThen (hP.ofExcept _) fun as => htell as

variable (hsent : ∀ n outcome, P [sent n outcome]) (hpause : P [paused c.retryDelay])

include hsent hpause

lemma always_markWithRetries (retries : Nat) : (markWithRetries c node retries).Always P := by
  have hfirst : (markFailed c node).Always P := always_pass hP hlook fun a => hsent _
  induction retries with
  | zero => exact hfirst
  | succ retries ih =>
    refine hP.andThen (Process.Always.lift hfirst) fun r => ?_
    cases r with
    | ok _ => exact hP.pure ()
    | error e => exact hP.andThen (Process.always_perform fun _ => hpause).lift fun _ => ih

variable (htracked : ∀ f m, P [tracked f m])

include htracked

lemma always_cycle (now : Nat) (n : Node) : (cycle c now n).Always P := by
  have hobserved := htracked fun t => (t.observe n now).1
  refine hP.andThen (Process.always_perform hobserved).lift fun before => ?_
  dsimp only
  split
  · exact hP.pure _
  · have hmarked := htracked fun t => t.marked (nameOf n)
    refine hP.andThen (always_markWithRetries hP hlook hsent hpause _) fun _ => ?_
    exact hP.andThen (Process.always_change hmarked).lift fun _ => hP.pure _
  · have hrecovered := htracked fun t => t.recovered (nameOf n)
    refine hP.andThen (always_pass hP hlook fun a => hsent _) fun _ => ?_
    exact hP.andThen (Process.always_change hrecovered).lift fun _ => hP.pure _

lemma always_deletionRound : (deletionRound c node).Always P := by
  have hforgotten := htracked fun t => t.forget node
  refine hP.bind (always_markWithRetries hP hlook hsent hpause _) fun r => ?_
  cases r with
  | ok _ => exact hP.bind (Process.always_change hforgotten) fun _ => hP.done _
  | error e => exact hP.done _

end Activities

/-! ## A node with two claims -/

namespace TwoClaims

/-- A monitor that marks nodes in a single pass. -/
def conduct : Conduct := { Conduct.usual "csi" with markAttempts := 1 }

/-- A volume that is bound to a claim. -/
def volume (name claim : String) : Volume :=
  ⟨⟨some name, none, none, none, none, false⟩, some ⟨"csi", name⟩,
    some ⟨some "default", some claim⟩, none, some "Bound"⟩

/-- The claim that a volume is bound to. -/
def claim (name volume : String) : Claim :=
  ⟨⟨some name, none, some "default", none, none, false⟩, some volume, some "Bound"⟩

/-- A pod with both claims. -/
def pod : Pod :=
  ⟨⟨some "app", none, some "default", some "uid-1", none, false⟩, some "node-1",
    [some "pvc1", some "pvc2"]⟩

/-- The node of the pod, terminated or ready. -/
def node (ready : Bool) : Node :=
  ⟨⟨some "node-1", none, none, none, none, false⟩, if ready then none else some "Terminated",
    [⟨"Ready", if ready then "True" else "False"⟩]⟩

/-- The volumes, their claims and the pod become known. -/
def known : Monitor :=
  let m := ((Monitor.fresh conduct).observe .volume (.apply (volume "pv1" "pvc1"))).1
  let m := (m.observe .volume (.apply (volume "pv2" "pvc2"))).1
  let m := (m.observe .claim (.apply (claim "pvc1" "pv1"))).1
  let m := (m.observe .claim (.apply (claim "pvc2" "pv2"))).1
  (m.observe .pod (.apply pod)).1

/-- The claims on the node. -/
def first : AffectedClaim := ⟨claim "pvc1" "pv1", ["app"]⟩

@[inherit_doc first]
def second : AffectedClaim := ⟨claim "pvc2" "pv2", ["app"]⟩

lemma affectedClaims_known : affectedClaims conduct known "node-1" = .ok [first, second] := by
  decide +kernel

/-- Why the second warning is refused. -/
def refusal : PublishError := ⟨"no room"⟩

lemma told_both (notice : AffectedClaim → Notice) : Told notice [first, second]
    [sent (notice first) (.ok ()), sent (notice second) (.ok ())] (.ok ()) :=
  Told.next first (Told.next second Told.all)

/-- A round that is refused at once, when it looks up the claims in such a monitor. -/
def refused (m : Monitor) : List Deed :=
  [looked m, sent (failureNotice "node-1" first) (.error refusal)]

/-- All warnings of a round are sent. -/
def warnings (m : Monitor) : List Deed :=
  [looked m, sent (failureNotice "node-1" first) (.ok ()),
    sent (failureNotice "node-1" second) (.ok ())]

lemma marking_refused {m : Monitor} (h : affectedClaims conduct m "node-1" = .ok [first, second]) :
    Marking conduct "node-1" 0 (refused m) (.error (.notify first.claim.key refusal)) :=
  Marking.last (Passed.went h (Told.refused first [second] refusal))

lemma marking_warnings {m : Monitor} (h : affectedClaims conduct m "node-1" = .ok [first, second]) :
    Marking conduct "node-1" 0 (warnings m) (.ok ()) :=
  Marking.last (Passed.went h (told_both (failureNotice "node-1")))

end TwoClaims

end Node

end StorageHealth
