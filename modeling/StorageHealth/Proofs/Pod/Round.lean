import StorageHealth.Proofs.Check.Orderly
import StorageHealth.Proofs.Index.Marks
import StorageHealth.Proofs.Process.Workplace

/-!
# Rounds over the volumes of a pod

All volumes of a pod are reported on one subject, the pod itself, and share its warning and the mark
of that.  So a recovery says that *some* volume was found normal while the warning was unanswered,
not that all of them are well.

`cycle_offers_recovery_iff` makes this exact for a round in which nobody else touches the record of
the pod: a recovery is sent when a warning is on record and some volume is normal while it is
unanswered, either from the beginning or because another volume was abnormal earlier in the round.
-/

namespace StorageHealth

/-! ## What a round is about -/

namespace Deed

/-- The condition that a driver has answered with. -/
def condition? : Deed → Option Condition
  | ⟨.probe _ _, .answered condition⟩ => some condition
  | _ => none

/-- The conditions that a driver has answered with, one after the other. -/
def conditions (ds : List Deed) : List Condition := ds.filterMap condition?

/-- A recovery event about a subject is sent, whatever becomes of it. -/
def OffersRecovery (uid : String) (d : Deed) : Prop :=
  ∃ n outcome, n.subject.uid = some uid ∧ n.severity = .normal ∧ n.reason = .volumeNormal ∧
    d = sent n outcome

/-- What the monitor remembered before a deed; only updates tell if that has changed. -/
def seen (m : Monitor) : Deed → Monitor
  | ⟨.update _, before⟩ => before
  | _ => m

end Deed

namespace Monitor

/-- Whether the warning about a subject, if there is one, has not been answered yet. -/
def unanswered (uid : String) (m : Monitor) : Bool :=
  !m.warnings.answered.contains (WarningIndex.warningGroup uid .volumeAbnormal)

/-- What is on record about a subject is the same: whether there is a warning, and whether it was
answered. -/
def SameRecord (uid : String) (m m' : Monitor) : Prop :=
  m'.warnings.contains uid .warning .volumeAbnormal =
    m.warnings.contains uid .warning .volumeAbnormal ∧ m'.unanswered uid = m.unanswered uid

/-- While these deeds are done, nobody else changes what is on record about a subject. -/
def Undisturbed (uid : String) (m : Monitor) : List Deed → Prop
  | [] => True
  | d :: ds => SameRecord uid m (d.seen m) ∧ Undisturbed uid (d.effect.leaves (d.seen m)) ds

/-- These deeds are done by somebody who has the monitor to themselves. -/
def Alone (m : Monitor) : List Deed → Prop
  | [] => True
  | d :: ds => d.Fits m ∧ Alone (d.effect.leaves m) ds

/-- Nobody disturbs somebody who is alone. -/
lemma Alone.undisturbed {m : Monitor} {ds : List Deed} (h : m.Alone ds) (uid : String) :
    m.Undisturbed uid ds := by
  induction ds generalizing m with
  | nil => trivial
  | cons d ds ih =>
    have hseen : d.seen m = m := by
      obtain ⟨effect, answer⟩ := d
      cases effect with
      | update f => exact h.1
      | listing deadline => rfl
      | probe call deadline => rfl
      | publish n => rfl
      | pause length => rfl
    refine ⟨?_, ?_⟩
    · rw [hseen]
      exact ⟨rfl, rfl⟩
    · rw [hseen]
      exact ih h.2

lemma awaits_eq (uid : String) (m : Monitor) :
    m.awaits uid = (m.warnings.contains uid .warning .volumeAbnormal && m.unanswered uid) := rfl

lemma unanswered_rearm (uid : String) (m : Monitor) : (m.rearm uid).unanswered uid = true := by
  simp [unanswered, rearm, WarningIndex.clearRecovered]

end Monitor

/-! ## When a recovery is due -/

namespace Condition

/-- Whether a recovery is due for one of the conditions: a normal one while the warning is
unanswered.  An abnormal condition is a warning that nobody has answered. -/
def due (unanswered : Bool) : List Condition → Bool
  | [] => false
  | a :: rest => if a.abnormal then due true rest else unanswered || due unanswered rest

/-- A recovery is due for a normal condition when the warning was unanswered from the beginning or
an abnormal condition came before. -/
lemma due_iff {unanswered : Bool} {conditions : List Condition} :
    due unanswered conditions = true ↔ ∃ earlier a later, conditions = earlier ++ a :: later ∧
      a.abnormal = false ∧ (unanswered = true ∨ ∃ b ∈ earlier, b.abnormal = true) := by
  induction conditions generalizing unanswered with
  | nil => simp [due]
  | cons c rest ih =>
    cases hc : c.abnormal with
    | true =>
      rw [due, if_pos hc, ih]
      constructor
      · rintro ⟨earlier, a, later, rfl, ha, -⟩
        exact ⟨c :: earlier, a, later, rfl, ha, Or.inr ⟨c, List.mem_cons_self, hc⟩⟩
      · rintro ⟨_ | ⟨b, earlier⟩, a, later, hsplit, ha, -⟩
        · obtain ⟨rfl, -⟩ := List.cons.inj hsplit
          rw [hc] at ha
          cases ha
        · exact ⟨earlier, a, later, (List.cons.inj hsplit).2, ha, Or.inl rfl⟩
    | false =>
      rw [due, if_neg (by rw [hc]; exact Bool.false_ne_true), Bool.or_eq_true, ih]
      constructor
      · rintro (hu | ⟨earlier, a, later, rfl, ha, hwhy⟩)
        · exact ⟨[], c, rest, rfl, hc, Or.inl hu⟩
        · refine ⟨c :: earlier, a, later, rfl, ha, hwhy.imp_right ?_⟩
          exact fun ⟨b, hb, hab⟩ => ⟨b, List.mem_cons_of_mem c hb, hab⟩
      · rintro ⟨_ | ⟨b, earlier⟩, a, later, hsplit, ha, hwhy⟩
        · exact Or.inl (hwhy.resolve_right (by simp))
        · obtain ⟨rfl, hrest⟩ := List.cons.inj hsplit
          refine Or.inr ⟨earlier, a, later, hrest, ha, hwhy.imp_right ?_⟩
          rintro ⟨b, hb, hab⟩
          rcases List.mem_cons.mp hb with rfl | hb
          · rw [hc] at hab
            cases hab
          · exact ⟨b, hb, hab⟩

end Condition

/-! ## Visits -/

namespace Deed

/-- A deed that neither learns nor tells anything about volumes. -/
structure Silent (d : Deed) : Prop where
  isQuiet : d.effect.IsQuiet
  condition?_eq : d.condition? = none
  not_offers : ∀ uid, ¬ d.OffersRecovery uid

lemma not_offers_update (f : Monitor → Monitor) (m : Monitor) {uid : String} :
    ¬ OffersRecovery uid ⟨.update f, m⟩ := by
  rintro ⟨n, outcome, -, -, -, h⟩
  cases congrArg effect h

lemma not_offers_probe (call : Call) (deadline : Span) (outcome : Outcome Condition)
    {uid : String} : ¬ OffersRecovery uid ⟨.probe call deadline, outcome⟩ := by
  rintro ⟨n, outcome, -, -, -, h⟩
  cases congrArg effect h

lemma not_offers_warning (s : Subject) (message : String) (outcome : Except PublishError Unit)
    {uid : String} : ¬ OffersRecovery uid (sent (Check.warning s message) outcome) := by
  rintro ⟨n, outcome', -, hn, -, h⟩
  have hnotice : Check.warning s message = n := Effect.publish.inj (congrArg effect h)
  rw [← hnotice] at hn
  cases hn

lemma offers_recovery {s : Subject} {uid : String} (hs : s.uid = some uid)
    (outcome : Except PublishError Unit) :
    OffersRecovery uid (sent (Check.recovery s) outcome) :=
  ⟨Check.recovery s, outcome, hs, rfl, rfl, rfl⟩

lemma silent_looked (m : Monitor) : (looked m).Silent :=
  ⟨fun _ => ⟨rfl, rfl⟩, rfl, fun _ => not_offers_update _ _⟩

lemma silent_probe {call : Call} {deadline : Span} {outcome : Outcome Condition}
    (h : ∀ a, outcome ≠ .answered a) : Silent ⟨.probe call deadline, outcome⟩ where
  isQuiet := fun _ => ⟨rfl, rfl⟩
  condition?_eq := by
    cases outcome with
    | late => rfl
    | failed cause => rfl
    | answered a => exact absurd rfl (h a)
  not_offers := fun _ => not_offers_probe _ _ _

/-- Histories in which volumes are visited and every answer is reported on the same subject. -/
inductive Visited (s : Subject) : List Deed → Prop where
  | nothing : Visited s []
  | silent {d : Deed} (hd : d.Silent) {ds : List Deed} (rest : Visited s ds) : Visited s (d :: ds)
  | answered (call : Call) (deadline : Span) {condition : Condition} {ds es : List Deed}
      {r : Except CheckError Unit} (report : Check.Reported s condition ds r)
      (rest : Visited s es) :
      Visited s (⟨.probe call deadline, .answered condition⟩ :: (ds ++ es))

lemma closed_visited (s : Subject) : Closed (Visited s) where
  nothing := Visited.nothing
  append := by
    intro ds es h h'
    induction h with
    | nothing => exact h'
    | silent hd _ ih => exact Visited.silent hd ih
    | answered call deadline report _ ih =>
      rw [List.cons_append, List.append_assoc]
      exact Visited.answered call deadline report ih

end Deed

namespace Check

open Deed

lemma visited_mount (c : Conduct) (v : Volume) (p : Pod) :
    (mount c v p).Always (Visited p.subject) := by
  refine (closed_visited _).andThen ((closed_visited _).ofExcept _) fun handle => ?_
  refine (closed_visited _).andThen ((closed_visited _).ofExcept _) fun call => ?_
  intro ds r h
  rcases ends_ask_report h with ⟨outcome, rfl, hnone⟩ | ⟨condition, rest, r', rfl, hreport⟩
  · exact Visited.silent (silent_probe hnone) Visited.nothing
  · rw [← List.append_nil rest]
    exact Visited.answered _ _ hreport Visited.nothing

end Check

/-- In a round over a pod all answers are reported on the pod. -/
lemma Pod.visited_cycle (c : Conduct) (p : Pod) : (cycle c p).Always (Deed.Visited p.subject) :=
  always_cycle (Deed.closed_visited _)
    (fun m => Deed.Visited.silent (Deed.silent_looked m) Deed.Visited.nothing)
    fun v => Check.visited_mount c v p

/-! ## Rounds nobody disturbs -/

namespace Deed

open Monitor

lemma Silent.sameRecord {d : Deed} (hd : d.Silent) {uid : String} {m : Monitor}
    (h : m.SameRecord uid (d.seen m)) : m.SameRecord uid (d.effect.leaves (d.seen m)) := by
  unfold SameRecord unanswered at h ⊢
  rw [(hd.isQuiet _).2]
  exact h

/-- The conditions of a history that begins with an answer and a report of it. -/
lemma conditions_cons_answered {s : Subject} (call : Call) (deadline : Span) {condition : Condition}
    {ds : List Deed} {r : Except CheckError Unit} (h : Check.Reported s condition ds r)
    (es : List Deed) : conditions (⟨.probe call deadline, .answered condition⟩ :: (ds ++ es)) =
      condition :: conditions es := by
  cases h <;> rfl

/-- When a recovery is awaited, it is due for a normal condition. -/
lemma due_of_awaits {uid : String} {m x : Monitor} (hm : m.SameRecord uid x)
    (hx : x.awaits uid = true) {condition : Condition} (ha : condition.abnormal = false)
    (rest : List Condition) : m.warnings.contains uid .warning .volumeAbnormal = true ∧
      Condition.due (m.unanswered uid) (condition :: rest) = true := by
  rw [awaits_eq, Bool.and_eq_true, hm.1, hm.2] at hx
  have hnormal : ¬ condition.abnormal = true := by rw [ha]; exact Bool.false_ne_true
  rw [Condition.due, if_neg hnormal, hx.2, Bool.true_or]
  exact ⟨hx.1, rfl⟩

/-- A report makes the subject's record what the rest of the round starts with, and sends a recovery
when one is awaited. -/
lemma offers_recovery_report_iff {s : Subject} {condition : Condition} {ds es : List Deed}
    {r : Except CheckError Unit} (h : Check.Reported s condition ds r) {uid : String}
    (hs : s.uid = some uid) {m : Monitor} (hm : m.Undisturbed uid (ds ++ es))
    (ih : ∀ m' : Monitor, m'.Undisturbed uid es → ((∃ d ∈ es, d.OffersRecovery uid) ↔
      m'.warnings.contains uid .warning .volumeAbnormal = true ∧
        Condition.due (m'.unanswered uid) (conditions es) = true)) :
    (∃ d ∈ ds ++ es, d.OffersRecovery uid) ↔
      m.warnings.contains uid .warning .volumeAbnormal = true ∧
        Condition.due (m.unanswered uid) (condition :: conditions es) = true := by
  cases h with
  | nameless hnone =>
    rw [hs] at hnone
    cases hnone
  | @warned uid' hs' ha x outcome =>
    obtain rfl := Option.some.inj (hs.symm.trans hs')
    obtain ⟨⟨hcontains, -⟩, -, hrest⟩ := hm
    have hnone : (∃ d ∈ [rearmed uid x, sent (Check.warning s condition.message) outcome] ++ es,
        d.OffersRecovery uid) ↔ ∃ d ∈ es, d.OffersRecovery uid := by
      simp [rearmed, not_offers_update, not_offers_warning]
    have hafter := ih (x.rearm uid) hrest
    rw [unanswered_rearm] at hafter
    rw [hnone, Condition.due, if_pos ha, ← hcontains]
    exact hafter
  | @quiet uid' hs' ha x hx =>
    obtain rfl := Option.some.inj (hs.symm.trans hs')
    obtain ⟨hcontains, hunanswered⟩ : m.SameRecord uid x := hm.1
    have hrest : x.Undisturbed uid es := hm.2
    have hnone : (∃ d ∈ [looked x] ++ es, d.OffersRecovery uid) ↔
        ∃ d ∈ es, d.OffersRecovery uid := by
      simp [looked, not_offers_update]
    have hnormal : ¬ condition.abnormal = true := by rw [ha]; exact Bool.false_ne_true
    rw [awaits_eq] at hx
    rw [hnone, ih x hrest, Condition.due, if_neg hnormal, ← hcontains, ← hunanswered]
    refine and_congr_right fun hrecord => ?_
    rw [hrecord, Bool.true_and] at hx
    rw [hx, Bool.false_or]
  | @refused uid' hs' ha x hx e =>
    obtain rfl := Option.some.inj (hs.symm.trans hs')
    refine iff_of_true ⟨_, ?_, offers_recovery hs (.error e)⟩ (due_of_awaits hm.1 hx ha _)
    simp
  | @recovered uid' hs' ha x hx x' =>
    obtain rfl := Option.some.inj (hs.symm.trans hs')
    refine iff_of_true ⟨_, ?_, offers_recovery hs (.ok ())⟩ (due_of_awaits hm.1 hx ha _)
    simp

/-- While nobody disturbs the record of a subject, a recovery is sent about it exactly when a
warning is on record and a recovery is due for one of the answers. -/
theorem Visited.offers_recovery_iff {s : Subject} {ds : List Deed} (h : Visited s ds) {uid : String}
    (hs : s.uid = some uid) {m : Monitor} (hm : m.Undisturbed uid ds) :
    (∃ d ∈ ds, d.OffersRecovery uid) ↔ m.warnings.contains uid .warning .volumeAbnormal = true ∧
      Condition.due (m.unanswered uid) (conditions ds) = true := by
  induction h generalizing m with
  | nothing => simp [conditions, Condition.due]
  | @silent d hd ds _ ih =>
    have hsame := hd.sameRecord hm.1
    have hconditions : conditions (d :: ds) = conditions ds :=
      List.filterMap_cons_none hd.condition?_eq
    rw [hconditions, ← hsame.1, ← hsame.2, ← ih hm.2]
    simp [hd.not_offers]
  | @answered call deadline condition ds es r report _ ih =>
    have hrest : m.Undisturbed uid (ds ++ es) := hm.2
    rw [conditions_cons_answered call deadline report,
      ← offers_recovery_report_iff report hs hrest fun m' => ih]
    simp [not_offers_probe]

lemma uid_of_offers_report {s : Subject} {condition : Condition} {ds : List Deed}
    {r : Except CheckError Unit} (h : Check.Reported s condition ds r) {uid : String} {d : Deed}
    (hd : d ∈ ds) (hoffers : d.OffersRecovery uid) : s.uid = some uid := by
  have hrecovery : ∀ outcome, OffersRecovery uid (sent (Check.recovery s) outcome) →
      s.uid = some uid := by
    rintro outcome ⟨n, outcome', hn, -, -, h⟩
    have hnotice : Check.recovery s = n := Effect.publish.inj (congrArg effect h)
    rw [← hnotice] at hn
    exact hn
  cases h with
  | nameless _ => cases hd
  | warned _ _ x outcome =>
    rcases List.mem_pair.mp hd with rfl | rfl
    · exact absurd hoffers (not_offers_update _ _)
    · exact absurd hoffers (not_offers_warning _ _ _)
  | @quiet _ _ _ x _ =>
    rw [List.mem_singleton.mp hd] at hoffers
    exact absurd hoffers (not_offers_update _ _)
  | @refused _ _ _ x _ e =>
    rcases List.mem_pair.mp hd with rfl | rfl
    · exact absurd hoffers (not_offers_update _ _)
    · exact hrecovery _ hoffers
  | @recovered _ _ _ x _ x' =>
    simp only [List.mem_cons, List.not_mem_nil, or_false] at hd
    rcases hd with rfl | rfl | rfl
    · exact absurd hoffers (not_offers_update _ _)
    · exact hrecovery _ hoffers
    · exact absurd hoffers (not_offers_update _ _)

/-- Recoveries are sent about the subject of the visits only. -/
lemma Visited.uid_of_offers {s : Subject} {ds : List Deed} (h : Visited s ds) {uid : String}
    {d : Deed} (hd : d ∈ ds) (hoffers : d.OffersRecovery uid) : s.uid = some uid := by
  induction h with
  | nothing => cases hd
  | silent hsilent _ ih =>
    rcases List.mem_cons.mp hd with rfl | hd
    · exact absurd hoffers (hsilent.not_offers uid)
    · exact ih hd
  | answered call deadline report _ ih =>
    rcases List.mem_cons.mp hd with rfl | hd
    · exact absurd hoffers (not_offers_probe _ _ _)
    · rcases List.mem_append.mp hd with hd | hd
      · exact uid_of_offers_report report hd hoffers
      · exact ih hd

end Deed

/-- In a round over a pod that nobody disturbs, a recovery is sent about the pod exactly when a
warning about it is on record and some volume is found normal while that is unanswered, be it from
the beginning of the round or because a volume was found abnormal before. -/
theorem Pod.cycle_offers_recovery_iff (c : Conduct) (p : Pod) {ds : List Deed}
    {r : Except PodError Schedule} (hends : (Pod.cycle c p).Ends ds r) {uid : String} {m : Monitor}
    (hm : m.Undisturbed uid ds) :
    (∃ d ∈ ds, d.OffersRecovery uid) ↔ uidOf p = some uid ∧
      m.warnings.contains uid .warning .volumeAbnormal = true ∧
      ∃ earlier a later, Deed.conditions ds = earlier ++ a :: later ∧ a.abnormal = false ∧
        (m.unanswered uid = true ∨ ∃ b ∈ earlier, b.abnormal = true) := by
  have hvisited : Deed.Visited p.subject ds := Pod.visited_cycle c p ds r hends
  rw [← Condition.due_iff]
  constructor
  · rintro ⟨d, hd, hoffers⟩
    have huid := hvisited.uid_of_offers hd hoffers
    exact ⟨huid, (hvisited.offers_recovery_iff huid hm).mp ⟨d, hd, hoffers⟩⟩
  · rintro ⟨huid, hdue⟩
    exact (hvisited.offers_recovery_iff huid hm).mpr hdue

/-! ## A round with mixed answers -/

namespace MixedRound

open Happening

/-- A driver that stages nothing. -/
def conduct : Conduct := { Conduct.usual "csi" with stages := false }

/-- A volume that is bound to a claim. -/
def volume (name handle claim : String) : Volume :=
  ⟨⟨some name, none, none, none, none, false⟩, some ⟨"csi", handle⟩,
    some ⟨some "default", some claim⟩, none, some "Bound"⟩

/-- The claim that a volume is bound to. -/
def claim (name volume : String) : Claim :=
  ⟨⟨some name, none, some "default", none, none, false⟩, some volume, some "Bound"⟩

/-- A pod with two volumes. -/
def pod : Pod :=
  ⟨⟨some "app", none, some "default", some "uid-1", none, false⟩, some "node-1",
    [some "pvc1", some "pvc2"]⟩

/-- The volumes, their claims and a warning about the pod become known. -/
def events : List (Happening Empty) :=
  [.observed .volume (.apply (volume "pv1" "h1" "pvc1")),
    .observed .volume (.apply (volume "pv2" "h2" "pvc2")),
    .observed .claim (.apply (claim "pvc1" "pv1")), .observed .claim (.apply (claim "pvc2" "pv2")),
    .observed .event (.apply (.about "app.warning" "uid-1" .warning .volumeAbnormal "1"))]

/-- The monitor when the round begins. -/
def known : Monitor := leavesAll (.fresh conduct) events

/-- The monitor when the recovery was published. -/
def answered : Monitor := known.settle "uid-1"

/-- The driver answers about a volume of the pod. -/
def asked (volume handle : String) (condition : Condition) : Deed :=
  ⟨.probe (.node handle (MountPath.volumePath MountPath.defaultRoot "uid-1" volume false) "")
    (.ofSeconds 15), .answered condition⟩

/-- The first volume is normal, the second one is not. -/
def deeds : List Deed :=
  [.looked known, .looked known, asked "pv1" "h1" ⟨false, ""⟩, .looked known,
    .sent (Check.recovery pod.subject) (.ok ()), .settled "uid-1" known,
    .looked answered, asked "pv2" "h2" ⟨true, "broken"⟩, .rearmed "uid-1" answered,
    .sent (Check.warning pod.subject "broken") (.ok ())]

lemma ends_round : (Pod.cycle conduct pod).Ends deeds (.ok (.after (.ofSeconds 60))) := by
  refine Process.Does.step _ ?_
  refine Process.Does.step _ ?_
  refine Process.Does.step _ ?_
  refine Process.Does.step _ ?_
  refine Process.Does.step _ ?_
  refine Process.Does.step _ ?_
  refine Process.Does.step _ ?_
  refine Process.Does.step _ ?_
  refine Process.Does.step _ ?_
  refine Process.Does.step _ ?_
  exact Process.Does.nothing _

lemma alone_round : known.Alone deeds :=
  ⟨rfl, rfl, trivial, rfl, trivial, rfl, rfl, trivial, rfl, trivial, trivial⟩

/-- The first volume is normal while the warning is unanswered, so a recovery is sent. -/
theorem offers_recovery_mixed : (Pod.cycle conduct pod).Ends deeds (.ok (.after (.ofSeconds 60))) ∧
    known.Undisturbed "uid-1" deeds ∧ ∃ d ∈ deeds, d.OffersRecovery "uid-1" := by
  have hundisturbed := alone_round.undisturbed "uid-1"
  refine ⟨ends_round, hundisturbed, ?_⟩
  refine (Pod.cycle_offers_recovery_iff conduct pod ends_round hundisturbed).mpr ?_
  exact ⟨rfl, by decide, [], ⟨false, ""⟩, [⟨true, "broken"⟩], rfl, rfl, Or.inl (by decide)⟩

/-- A pod can recover in a round in which one of its volumes is abnormal. -/
theorem recovers_despite_abnormal : ¬ ∀ (c : Conduct) (p : Pod) (events : List (Happening Empty))
    (ds : List Deed) (r : Except PodError Schedule) (uid : String), uidOf p = some uid →
    (Pod.cycle c p).Ends ds r → (leavesAll (.fresh c) events).Alone ds →
    (∃ a ∈ Deed.conditions ds, a.abnormal = true) → ¬ ∃ d ∈ ds, d.Recovers uid := by
  intro hclaim
  refine hclaim conduct pod events deeds _ "uid-1" rfl ends_round alone_round
    ⟨⟨true, "broken"⟩, by decide, rfl⟩ ⟨.sent (Check.recovery pod.subject) (.ok ()), ?_, ?_⟩
  · simp [deeds]
  · exact ⟨Check.recovery pod.subject, rfl, rfl, rfl, rfl⟩

end MixedRound

end StorageHealth
