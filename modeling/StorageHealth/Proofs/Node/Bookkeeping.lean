import StorageHealth.Proofs.Node.Answers
import StorageHealth.Proofs.Process.Standing

/-!
# Passes and the tracker

A visit to a node reads the tracker, makes passes over the claims on the node, each of which may
stop anywhere, and notes the outcome in the tracker afterwards.  While the passes go on, the caches
may change in any way; only the tracker belongs to the visits (`Monitor.Exclusive`).

A pass is complete when every claim that it has looked up was told (`Completes`).  The tracker keeps
book of these passes: a node is marked down exactly when the last complete pass for it was one that
marked it (`Succession.isMarkedDown_iff`).  `Succession.kept` says what this means for the passes
that fail, and for the nodes that a visit is not about.
-/

namespace StorageHealth

open Deed

namespace Node

open Monitor

variable {c : Conduct} {now : Nat} {n : Node} {ds : List Deed} {m m' : Monitor}

/-! ## Complete passes -/

/-- Somewhere in these deeds there is a complete pass: the claims on the node are looked up, and
every one of them is told. -/
def Completes (c : Conduct) (node : String) (notice : AffectedClaim → Notice) (ds : List Deed) :
    Prop :=
  ∃ m as, affectedClaims c m node = .ok as ∧
    looked m :: as.map (fun a => sent (notice a) (.ok ())) <:+: ds

section Passes

variable {node : String} {notice : AffectedClaim → Notice} {es : List Deed}
  {r : Except NodeError Unit}

/-- What begins with a certain deed does not begin in a part without that deed. -/
lemma infix_of_infix_append {d : Deed} {rest : List Deed} (hnone : d ∉ ds)
    (h : d :: rest <:+: ds ++ es) : d :: rest <:+: es := by
  induction ds with
  | nil => exact h
  | cons x ds ih =>
    rw [List.mem_cons, not_or] at hnone
    rw [List.cons_append] at h
    rcases List.infix_cons_iff.mp h with hprefix | hlater
    · exact absurd (List.cons_prefix_cons.mp hprefix).1 hnone.1
    · exact ih hnone.2 hlater

lemma not_completes_nil : ¬ Completes c node notice [] := by
  rintro ⟨m, as, -, hinfix⟩
  have hle := hinfix.length_le
  simp at hle

lemma Completes.append (h : Completes c node notice ds) (es : List Deed) :
    Completes c node notice (ds ++ es) := by
  obtain ⟨m, as, has, hinfix⟩ := h
  exact ⟨m, as, has, hinfix.trans (List.infix_append_of_infix_left (List.infix_rfl))⟩

/-- When all went well, the claims were told one after the other. -/
lemma Told.eq_map {as : List AffectedClaim} (h : Told notice as ds (.ok ())) :
    ds = as.map fun a => sent (notice a) (.ok ()) := by
  generalize hr : Except.ok () = r at h
  induction h with
  | all => rfl
  | refused a rest e => cases hr
  | next a _ ih => rw [List.map_cons, ← ih hr]

/-- When somebody is refused, not every claim is told, whatever is done afterwards. -/
lemma Told.not_prefix {as : List AffectedClaim} {e : NodeError} (h : Told notice as ds (.error e))
    (es : List Deed) : ¬ as.map (fun a => sent (notice a) (.ok ())) <+: ds ++ es := by
  generalize hr : Except.error e = r at h
  induction h with
  | all => cases hr
  | refused a rest e =>
    intro hprefix
    rw [List.map_cons, List.cons_append] at hprefix
    cases (List.cons_prefix_cons.mp hprefix).1
  | next a _ ih =>
    intro hprefix
    rw [List.map_cons, List.cons_append] at hprefix
    exact ih hr (List.cons_prefix_cons.mp hprefix).2

lemma Told.looked_not_mem {as : List AffectedClaim} (h : Told notice as ds r) (m : Monitor) :
    looked m ∉ ds := by
  intro hmem
  induction h with
  | all => cases hmem
  | refused a rest e => exact sent_ne_update _ _ (List.mem_singleton.mp hmem).symm
  | next a _ ih =>
    rcases List.mem_cons.mp hmem with hfirst | hmem
    · exact sent_ne_update _ _ hfirst.symm
    · exact ih hmem

/-- A pass that went well is complete. -/
lemma Passed.completes (h : Passed c node notice ds (.ok ())) : Completes c node notice ds := by
  cases h with
  | @went m as hclaims rest r told =>
    obtain rfl := told.eq_map
    exact ⟨m, as, hclaims, List.infix_rfl⟩

/-- A complete pass does not begin in a pass that failed. -/
lemma Passed.completes_of_append {e : NodeError} (h : Passed c node notice ds (.error e))
    (hcomplete : Completes c node notice (ds ++ es)) : Completes c node notice es := by
  obtain ⟨m, as, has, hinfix⟩ := hcomplete
  cases h with
  | @incomplete m' e hclaims =>
    rcases List.infix_cons_iff.mp hinfix with hprefix | hlater
    · cases (List.cons_prefix_cons.mp hprefix).1
      rw [has] at hclaims
      cases hclaims
    · exact ⟨m, as, has, hlater⟩
  | @went m' as' hclaims rest r told =>
    rcases List.infix_cons_iff.mp hinfix with hprefix | hlater
    · obtain ⟨hfirst, hrest⟩ := List.cons_prefix_cons.mp hprefix
      cases hfirst
      rw [has] at hclaims
      cases hclaims
      exact absurd hrest (told.not_prefix es)
    · exact ⟨m, as, has, infix_of_infix_append (told.looked_not_mem m) hlater⟩

/-- A pass works out exactly when it is complete. -/
lemma Passed.isOk_iff (h : Passed c node notice ds r) :
    r.isOk = true ↔ Completes c node notice ds := by
  cases r with
  | ok _ => exact iff_of_true rfl h.completes
  | error e =>
    refine iff_of_false Bool.false_ne_true fun hcomplete => ?_
    rw [← List.append_nil ds] at hcomplete
    exact not_completes_nil (h.completes_of_append hcomplete)

/-- Marking a node works out exactly when one of the passes is complete. -/
lemma Marking.isOk_iff {retries : Nat} (h : Marking c node retries ds r) :
    r.isOk = true ↔ Completes c node (failureNotice node) ds := by
  induction h with
  | last pass => exact pass.isOk_iff
  | succeeded retries pass => exact pass.isOk_iff
  | @again retries ds e pass es r rest ih =>
    rw [ih]
    constructor
    · rintro ⟨m, as, has, hinfix⟩
      exact ⟨m, as, has, hinfix.trans ⟨ds ++ [paused c.retryDelay], [], by simp⟩⟩
    · intro hcomplete
      obtain ⟨m, as, has, hinfix⟩ := pass.completes_of_append hcomplete
      rcases List.infix_cons_iff.mp hinfix with hprefix | hlater
      · cases (List.cons_prefix_cons.mp hprefix).1
      · exact ⟨m, as, has, hlater⟩

/-- Noting that a pass was complete makes no difference to that. -/
lemma Noted.isOk_iff {f : NodeTracker → NodeTracker} {last : List Deed} (h : Noted f r last)
    (hr : r.isOk = true ↔ Completes c node notice ds) :
    r.isOk = true ↔ Completes c node notice (ds ++ last) := by
  cases h with
  | success m => exact iff_of_true rfl ((hr.mp rfl).append _)
  | failure e => rwa [List.append_nil]

end Passes

section Tended

variable {r : Except NodeError Schedule}

/-- A visit does what the tracker says as it was when the visit began. -/
lemma observe_eq_of_exclusive {x : Monitor} (h : m.Exclusive (observed now n x :: ds) m') :
    x.tracker.observe n now = m.tracker.observe n now := by
  obtain ⟨hx, -⟩ := h.of_tracked
  rw [hx]

/-- A visit that is to mark a node works out exactly when one of its passes is complete. -/
lemma Tended.isOk_iff_of_markFailed (h : Tended c now n ds r) (hds : m.Exclusive ds m')
    (haction : (m.tracker.observe n now).2 = .markFailed) :
    r.isOk = true ↔ Completes c (nameOf n) (failureNotice (nameOf n)) ds.tail := by
  cases h with
  | quiet hother =>
    rw [observe_eq_of_exclusive hds, haction] at hother
    cases hother
  | failed _ marking noted =>
    rw [isOk_map]
    exact noted.isOk_iff marking.isOk_iff
  | back hother pass noted =>
    rw [observe_eq_of_exclusive hds, haction] at hother
    cases hother

/-- A visit that is to tell a recovery works out exactly when its pass is complete. -/
lemma Tended.isOk_iff_of_notifyRecovered (h : Tended c now n ds r) (hds : m.Exclusive ds m')
    (haction : (m.tracker.observe n now).2 = .notifyRecovered) :
    r.isOk = true ↔ Completes c (nameOf n) (recoveryNotice (nameOf n)) ds.tail := by
  cases h with
  | quiet hother =>
    rw [observe_eq_of_exclusive hds, haction] at hother
    cases hother
  | failed hother marking noted =>
    rw [observe_eq_of_exclusive hds, haction] at hother
    cases hother
  | back _ pass noted =>
    rw [isOk_map]
    exact noted.isOk_iff pass.isOk_iff

/-- The claims on a node are only told that it is back when the tracker says so. -/
lemma Tended.notifyRecovered_of_sent (h : Tended c now n ds r) (hds : m.Exclusive ds m')
    {a : AffectedClaim} {outcome : Except PublishError Unit}
    (hsent : sent (recoveryNotice (nameOf n) a) outcome ∈ ds) :
    (m.tracker.observe n now).2 = .notifyRecovered := by
  cases h with
  | quiet _ => exact absurd (List.mem_singleton.mp hsent) (sent_ne_update _ _)
  | failed _ marking noted =>
    rcases List.mem_append.mp (List.mem_of_ne_of_mem (sent_ne_update _ _) hsent) with hmem | hmem
    · obtain ⟨a', hnotice⟩ := marking.exists_of_sent hmem
      cases congrArg Notice.reason hnotice
    · exact absurd hmem noted.not_sent
  | back haction pass noted => rwa [observe_eq_of_exclusive hds] at haction

end Tended

/-! ## Visits one after the other -/

namespace Visit

variable {v : Visit} {name : String}

/-- What the tracker says when a visit begins. -/
def action (v : Visit) : NodeAction := (v.start.tracker.observe v.node v.now).2

/-- After the node was observed, every claim on it is told in one pass. -/
def Completes (c : Conduct) (notice : String → AffectedClaim → Notice) (v : Visit) : Prop :=
  Node.Completes c (nameOf v.node) (notice (nameOf v.node)) v.deeds.tail

/-- A complete pass marks a node. -/
def Marks (c : Conduct) (name : String) (v : Visit) : Prop :=
  nameOf v.node = name ∧ v.action = .markFailed ∧ v.Completes c failureNotice

/-- A complete pass tells the recovery of a node. -/
def Announces (c : Conduct) (name : String) (v : Visit) : Prop :=
  nameOf v.node = name ∧ v.action = .notifyRecovered ∧ v.Completes c recoveryNotice

end Visit

/-- The last complete pass for a node was one that marked it. -/
def LastMarked (c : Conduct) (name : String) (vs : List Visit) : Prop :=
  Standing (fun _ v => v.Marks c name) (fun v => v.Marks c name ∨ v.Announces c name) vs

lemma lastMarked_concat_iff {vs : List Visit} {v : Visit} {name : String} :
    LastMarked c name (vs ++ [v]) ↔
      v.Marks c name ∨ ¬ v.Announces c name ∧ LastMarked c name vs := by
  rw [LastMarked, standing_concat_iff, not_or]
  constructor
  · rintro (hmarks | ⟨⟨-, hannounces⟩, hlast⟩)
    · exact Or.inl hmarks
    · exact Or.inr ⟨hannounces, hlast⟩
  · rintro (hmarks | ⟨hannounces, hlast⟩)
    · exact Or.inl hmarks
    · by_cases hmarks : v.Marks c name
      · exact Or.inl hmarks
      · exact Or.inr ⟨⟨hmarks, hannounces⟩, hlast⟩

/-- Visits to nodes that lead from one monitor to another, with the tracker to themselves. -/
abbrev Succession (c : Conduct) : Monitor → List Visit → Monitor → Prop :=
  Path fun m v m' =>
    v.start = m ∧ (cycle c v.now v.node).Ends v.deeds v.result ∧ m.Exclusive v.deeds m'

namespace Succession

variable {v : Visit} {vs others : List Visit} {name : String}

lemma of_visits (h : Visits c m vs m') : Succession c m vs m' := by
  induction h with
  | nothing m => exact Path.nothing m
  | step first _ ih =>
    obtain ⟨hstart, ends, steady⟩ := first
    exact Path.step ⟨hstart, ends, steady.exclusive⟩ ih

lemma append_iff : Succession c m (vs ++ others) m' ↔
    ∃ x, Succession c m vs x ∧ Succession c x others m' := Path.append_iff

lemma single_iff : Succession c m [v] m' ↔ v.start = m ∧
    (cycle c v.now v.node).Ends v.deeds v.result ∧ m.Exclusive v.deeds m' := by
  constructor
  · intro h
    obtain ⟨x, hstep, hnothing⟩ := Path.cons_iff.mp h
    cases hnothing
    exact hstep
  · exact fun h => Path.single h

/-- What a visit makes of the tracker. -/
lemma tracker_eq (h : Succession c m [v] m') :
    m'.tracker = m.tracker.visited v.node v.now v.result.isOk := by
  obtain ⟨-, ends, hds⟩ := single_iff.mp h
  exact (ends_cycle_iff.mp ends).tracker_eq hds

/-- A visit works out when the pass it is to make is complete. -/
lemma marks_iff (h : Succession c m [v] m') : v.Marks c name ↔
    v.result.isOk = true ∧ nameOf v.node = name ∧
      (m.tracker.observe v.node v.now).2 = .markFailed := by
  obtain ⟨rfl, ends, hds⟩ := single_iff.mp h
  constructor
  · rintro ⟨hname, haction, hcomplete⟩
    exact ⟨((ends_cycle_iff.mp ends).isOk_iff_of_markFailed hds haction).mpr hcomplete, hname,
      haction⟩
  · rintro ⟨hok, hname, haction⟩
    exact ⟨hname, haction, ((ends_cycle_iff.mp ends).isOk_iff_of_markFailed hds haction).mp hok⟩

@[inherit_doc marks_iff]
lemma announces_iff (h : Succession c m [v] m') : v.Announces c name ↔
    v.result.isOk = true ∧ nameOf v.node = name ∧
      (m.tracker.observe v.node v.now).2 = .notifyRecovered := by
  obtain ⟨rfl, ends, hds⟩ := single_iff.mp h
  constructor
  · rintro ⟨hname, haction, hcomplete⟩
    exact ⟨((ends_cycle_iff.mp ends).isOk_iff_of_notifyRecovered hds haction).mpr hcomplete,
      hname, haction⟩
  · rintro ⟨hok, hname, haction⟩
    exact ⟨hname, haction,
      ((ends_cycle_iff.mp ends).isOk_iff_of_notifyRecovered hds haction).mp hok⟩

/-- A node is marked down exactly when the last complete pass for it was one that marked it. -/
lemma isMarkedDown_iff (hfresh : m.tracker.down = []) (h : Succession c m vs m') (name : String) :
    m'.tracker.isMarkedDown name = true ↔ LastMarked c name vs := by
  induction vs using List.reverseRecOn generalizing m' with
  | nil =>
    cases h
    refine iff_of_false ?_ not_standing_nil
    simp [NodeTracker.isMarkedDown, hfresh]
  | append_singleton vs v ih =>
    obtain ⟨x, hbefore, hlast⟩ := append_iff.mp h
    rw [hlast.tracker_eq, NodeTracker.isMarkedDown_visited_iff, ih hbefore, lastMarked_concat_iff,
      hlast.marks_iff, hlast.announces_iff]

/-- Visits to other nodes leave what is known about a node. -/
lemma known_of_ne (h : Succession c m vs m') (hothers : ∀ u ∈ vs, nameOf u.node ≠ name) :
    m'.tracker.threshold = m.tracker.threshold ∧
      m'.tracker.isMarkedDown name = m.tracker.isMarkedDown name ∧
      m'.tracker.notReadySince.get? name = m.tracker.notReadySince.get? name := by
  refine h.keeps (P := fun y => y.tracker.threshold = m.tracker.threshold ∧
    y.tracker.isMarkedDown name = m.tracker.isMarkedDown name ∧
    y.tracker.notReadySince.get? name = m.tracker.notReadySince.get? name) ?_ ⟨rfl, rfl, rfl⟩
  rintro y u hu z hstep ⟨hthreshold, hmarked, hsince⟩
  have htracker := tracker_eq (Path.single hstep)
  obtain ⟨hmarked', hsince'⟩ :=
    NodeTracker.visited_of_ne (hothers u hu) y.tracker u.now u.result.isOk
  rw [htracker, NodeTracker.threshold_visited, hmarked', hsince']
  exact ⟨hthreshold, hmarked, hsince⟩

/-- A node stays marked down until it is found ready. -/
lemma isMarkedDown_of_not_ready (h : Succession c m vs m')
    (hready : ∀ u ∈ vs, nameOf u.node = name → u.node.isReady = false)
    (hmarked : m.tracker.isMarkedDown name = true) : m'.tracker.isMarkedDown name = true := by
  refine h.keeps (P := fun y => y.tracker.isMarkedDown name = true) ?_ hmarked
  intro y u hu z hstep hy
  rw [tracker_eq (Path.single hstep)]
  exact NodeTracker.isMarkedDown_visited_of_not_ready hy (hready u hu)

end Succession

/-! ## What is kept -/

/-- What is promised of a visit that leads to the monitor `y`, after the visits before it. -/
structure Kept (c : Conduct) (before : List Visit) (v : Visit) (y : Monitor) : Prop where
  /-- A visit that is to mark a node works out exactly when every claim was warned in a pass, -/
  marking_iff : v.action = .markFailed → (v.result.isOk = true ↔ v.Completes c failureNotice)
  /-- and one that is to tell a recovery when every claim was told. -/
  recovery_iff : v.action = .notifyRecovered →
    (v.result.isOk = true ↔ v.Completes c recoveryNotice)
  /-- A visit that fails to mark a node leaves the tracker as it was. -/
  unchanged : v.action = .markFailed → v.result.isOk = false → y.tracker = v.start.tracker
  /-- When the node is observed again, not earlier, it is to be marked again. -/
  marked_again : v.action = .markFailed → v.result.isOk = false →
    ∀ (others : List Visit) (z : Monitor), Succession c y others z →
      (∀ u ∈ others, nameOf u.node ≠ nameOf v.node) → ∀ later, v.now ≤ later →
      (z.tracker.observe v.node later).2 = .markFailed
  /-- A visit that fails to tell a recovery leaves the node marked down. -/
  still_marked : v.action = .notifyRecovered → v.result.isOk = false →
    y.tracker.isMarkedDown (nameOf v.node) = true
  /-- When the node is found ready the next time, its recovery is to be told again. -/
  notified_again : v.action = .notifyRecovered → v.result.isOk = false →
    ∀ (others : List Visit) (z : Monitor), Succession c y others z →
      (∀ u ∈ others, nameOf u.node = nameOf v.node → u.node.isReady = false) →
      ∀ n : Node, nameOf n = nameOf v.node → n.isReady = true → ∀ later,
      (z.tracker.observe n later).2 = .notifyRecovered
  /-- A recovery is only told, or tried to be told, when the last complete pass for the node was one
  that marked it. -/
  recovery_due : v.action = .notifyRecovered ∨
      (∃ a outcome, sent (recoveryNotice (nameOf v.node) a) outcome ∈ v.deeds) →
    LastMarked c (nameOf v.node) before
  /-- What is known about other nodes stays the same. -/
  others_kept : ∀ name, nameOf v.node ≠ name →
    y.tracker.isMarkedDown name = v.start.tracker.isMarkedDown name ∧
      y.tracker.notReadySince.get? name = v.start.tracker.notReadySince.get? name

namespace Succession

variable {v : Visit} {vs before : List Visit} {y : Monitor}

lemma kept (hlast : ∀ name, m.tracker.isMarkedDown name = true ↔ LastMarked c name before)
    (h : Succession c m [v] y) : Kept c before v y := by
  obtain ⟨hstart, ends, hds⟩ := single_iff.mp h
  have htended := ends_cycle_iff.mp ends
  have htracker := h.tracker_eq
  subst hstart
  have hback : v.action = .notifyRecovered → v.start.tracker.isMarkedDown (nameOf v.node) = true :=
    fun haction => (NodeTracker.ready_of_notifyRecovered haction).2
  have hunchanged : v.action = .markFailed → v.result.isOk = false →
      y.tracker = v.start.tracker := by
    intro haction hfailed
    rw [htracker, hfailed]
    exact NodeTracker.visited_of_markFailed haction
  have hmarked : v.action = .notifyRecovered → v.result.isOk = false →
      y.tracker.isMarkedDown (nameOf v.node) = true := by
    intro haction hfailed
    rw [htracker, hfailed, NodeTracker.isMarkedDown_visited_iff]
    exact Or.inr ⟨fun htold => Bool.false_ne_true htold.1, hback haction⟩
  exact {
    marking_iff := htended.isOk_iff_of_markFailed hds
    recovery_iff := htended.isOk_iff_of_notifyRecovered hds
    unchanged := hunchanged
    marked_again := by
      intro haction hfailed others z hothers hnames later hle
      obtain ⟨hthreshold, -, hsince⟩ := hothers.known_of_ne hnames
      rw [hunchanged haction hfailed] at hthreshold hsince
      exact NodeTracker.observe_markFailed_of_le haction hthreshold hsince hle
    still_marked := hmarked
    notified_again := by
      intro haction hfailed others z hothers hready n hname hwell later
      have hkept := hothers.isMarkedDown_of_not_ready hready (hmarked haction hfailed)
      rw [NodeTracker.observe_of_ready hwell, hname, if_pos hkept]
    recovery_due := by
      rintro (haction | ⟨a, outcome, hsent⟩)
      · exact (hlast _).mp (hback haction)
      · exact (hlast _).mp (hback (htended.notifyRecovered_of_sent hds hsent))
    others_kept := by
      intro name hname
      rw [htracker]
      exact NodeTracker.visited_of_ne hname _ _ _ }

/-- While visits have the tracker to themselves, a node is marked down exactly when the last
complete pass for it was one that marked it, and every visit keeps what is promised. -/
theorem keeps_book (hfresh : m.tracker.down = []) (h : Succession c m vs m') :
    (∀ name, m'.tracker.isMarkedDown name = true ↔ LastMarked c name vs) ∧
    ∀ before v later, vs = before ++ v :: later →
      ∃ y, Succession c v.start [v] y ∧ Succession c y later m' ∧ Kept c before v y := by
  refine ⟨h.isMarkedDown_iff hfresh, ?_⟩
  rintro before v later rfl
  obtain ⟨x, hbefore, hrest⟩ := append_iff.mp h
  obtain ⟨y, hstep, hlater⟩ := Path.cons_iff.mp hrest
  have hv : Succession c x [v] y := Path.single hstep
  have hstart : v.start = x := hstep.1
  subst hstart
  exact ⟨y, hv, hlater, kept (hbefore.isMarkedDown_iff hfresh) hv⟩

end Succession

end Node

/-! ## A recovery after two markings -/

namespace HalfWarned

open Node TwoClaims

/-- The first marking stops in the middle and leaves no trace, so the node is to be marked again.
When it is back, the last complete pass was the second marking. -/
theorem told_after_marking : known.tracker.down = [] ∧
    Succession conduct known [halfWarned, warned, told] settled ∧
    (known.tracker.observe halfWarned.node 7).2 = .markFailed ∧
    LastMarked conduct "node-1" [halfWarned, warned] := by
  have hfresh : known.tracker.down = [] := by decide +kernel
  have hvisits := Succession.of_visits visits_told
  obtain ⟨-, hkept⟩ := Succession.keeps_book hfresh hvisits
  obtain ⟨y, -, -, hhalf⟩ := hkept [] halfWarned [warned, told] rfl
  obtain ⟨z, -, -, htold⟩ := hkept [halfWarned, warned] told [] rfl
  have hfailed : halfWarned.action = .markFailed := by decide
  have hback : told.action = .notifyRecovered := by decide
  have hnone : ∀ u ∈ ([] : List Visit), nameOf u.node ≠ nameOf halfWarned.node :=
    fun u hu => absurd hu List.not_mem_nil
  have hagain := hhalf.marked_again hfailed rfl [] y (Path.nothing y) hnone 7 (Nat.zero_le 7)
  rw [hhalf.unchanged hfailed rfl] at hagain
  exact ⟨hfresh, hvisits, hagain, htold.recovery_due (Or.inl hback)⟩

end HalfWarned

end StorageHealth
