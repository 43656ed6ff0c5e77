import Mathlib.Data.List.Induction
import StorageHealth.Proofs.Process.Standing
import StorageHealth.Proofs.Check.OneByOne

/-!
# Reports one after the other

Conditions are reported on many subjects in turn, and publishing may fail at each of them.  While no
watch event changes the index of warnings, what a report publishes depends only on the reports on
the same subject before it: every abnormal condition is published, and a normal one is published as
a recovery until that has worked out once.  `Answered` is the part of a history that decides this,
and the marks of the index are exactly a memory of it (`answered_leavesAll_iff`).

`recovery_protocol` sums up what this means for the events about one subject.
-/

namespace StorageHealth

namespace Monitor

lemma unanswered_eq_false_iff {m : Monitor} {uid : String} : m.unanswered uid = false ↔
    WarningIndex.warningGroup uid .volumeAbnormal ∈ m.warnings.answered := by
  simp [unanswered]

/-- A recovery is awaited when a warning is on record that is not answered. -/
lemma awaits_iff_unanswered {m : Monitor} {uid : String} : m.awaits uid = true ↔
    m.warnings.contains uid .warning .volumeAbnormal = true ∧ ¬ m.unanswered uid = false := by
  rw [awaits_eq, Bool.and_eq_true, Bool.not_eq_false]

lemma SameRecord.symm {uid : String} {m m' : Monitor} (h : m.SameRecord uid m') :
    m'.SameRecord uid m := ⟨h.1.symm, h.2.symm⟩

lemma SameRecord.trans {uid : String} {m m' m'' : Monitor} (h : m.SameRecord uid m')
    (h' : m'.SameRecord uid m'') : m.SameRecord uid m'' := ⟨h'.1.trans h.1, h'.2.trans h.2⟩

lemma SameRecord.awaits_eq {uid : String} {m m' : Monitor} (h : m.SameRecord uid m') :
    m'.awaits uid = m.awaits uid := by
  rw [Monitor.awaits_eq, Monitor.awaits_eq, h.1, h.2]

end Monitor

namespace Check

open Surroundings

/-! ## A single report -/

lemma report_of_abnormal {s : Subject} {condition : Condition} {uid : String}
    (hs : s.uid = some uid) (ha : condition.abnormal = true) :
    report s condition = reportAbnormal s uid condition.message := by
  rw [report, hs]
  exact if_pos ha

lemma report_of_normal {s : Subject} {condition : Condition} {uid : String}
    (hs : s.uid = some uid) (ha : condition.abnormal = false) :
    report s condition = reportNormal s uid := by
  rw [report, hs]
  exact if_neg (by rw [ha]; exact Bool.false_ne_true)

/-- The warning is sent whatever becomes of it, and the next normal condition is a recovery. -/
lemma run_reportAbnormal (w : Surroundings) (subject : Subject) (uid message : String)
    (s : Scene) : w.run (reportAbnormal subject uid message).run s =
      ((w.publish s.sent (warning subject message)).mapError .publish,
        ⟨s.monitor.rearm uid, s.sent ++ [warning subject message]⟩) := by
  have hrun : w.run (reportAbnormal subject uid message).run s =
      ((w.publish (s.sent ++ []) (warning subject message)).mapError .publish,
        ⟨s.monitor.rearm uid, s.sent ++ [] ++ [warning subject message]⟩) := rfl
  rw [hrun, List.append_nil]

/-- The recovery is sent when it is awaited, and remembered when it could be published. -/
lemma run_reportNormal (w : Surroundings) (subject : Subject) (uid : String) (s : Scene) :
    w.run (reportNormal subject uid).run s =
      if s.monitor.awaits uid then
        ((w.publish s.sent (recovery subject)).mapError .publish,
          ⟨if w.publish s.sent (recovery subject) = .ok () then s.monitor.settle uid
            else s.monitor, s.sent ++ [recovery subject]⟩)
      else (.ok (), s) := by
  have hawaits : s.monitor.awaits uid = s.monitor.warnings.needsRecovery uid .volumeAbnormal := rfl
  have hsend : w.run ((publish (recovery subject)).mapError CheckError.publish).run s =
      ((w.publish s.sent (recovery subject)).mapError .publish,
        ⟨s.monitor, s.sent ++ [recovery subject]⟩) := rfl
  rw [reportNormal, run_attempt_bind, run_lift, run_look, hawaits]
  dsimp only
  cases s.monitor.warnings.needsRecovery uid .volumeAbnormal with
  | false => rfl
  | true =>
    rw [if_pos rfl, if_pos rfl, run_attempt_bind, hsend]
    cases w.publish s.sent (recovery subject) with
    | error e => rfl
    | ok u =>
      change (_, Scene.mk (s.monitor.settle uid) (s.sent ++ [recovery subject] ++ [])) = _
      rw [List.append_nil, if_pos rfl]
      rfl

/-- A report that is to be made, and what becomes of the event if one is published. -/
structure Report where
  subject : Subject
  condition : Condition
  outcome : Except PublishError Unit

namespace Report

variable {r : Report} {m m' : Monitor} {uid uid' : String}

/-- Makes a report: how it ends, the monitor afterwards and all events that were sent. -/
def run (r : Report) (m : Monitor) : Except CheckError Unit × Scene :=
  Surroundings.run ⟨fun _ => .late, .late, fun _ _ => r.outcome⟩
    (report r.subject r.condition).run ⟨m, []⟩

/-- The events that a report publishes or tries to publish. -/
def attempts (r : Report) (m : Monitor) : List Notice := (r.run m).2.sent

/-- The monitor after a report. -/
def leaves (r : Report) (m : Monitor) : Monitor := (r.run m).2.monitor

/-- An abnormal condition of a subject is reported. -/
def Alarms (uid : String) (r : Report) : Prop :=
  r.subject.uid = some uid ∧ r.condition.abnormal = true

/-- A normal condition of a subject is reported. -/
def Calms (uid : String) (r : Report) : Prop :=
  r.subject.uid = some uid ∧ r.condition.abnormal = false

/-- The recovery of a subject is published. -/
def Recovers (uid : String) (m : Monitor) (r : Report) : Prop :=
  r.subject.uid = some uid ∧
    r.attempts m =
      [⟨r.subject, .normal, .volumeNormal, "The Volume returns to the healthy state"⟩] ∧
    r.outcome = .ok ()

lemma Calms.not_alarms (h : r.Calms uid) : ¬ r.Alarms uid' := by
  rintro ⟨-, habnormal⟩
  rw [h.2] at habnormal
  cases habnormal

/-- A subject without a uid cannot be reported on. -/
lemma run_nameless (h : r.subject.uid = none) (m : Monitor) :
    r.run m = (.error (.missingUid "subject" (r.subject.name.getD "")), ⟨m, []⟩) := by
  rw [run, report, h]
  rfl

lemma run_of_alarms (h : r.Alarms uid) (m : Monitor) : r.run m =
    (r.outcome.mapError .publish, ⟨m.rearm uid, [warning r.subject r.condition.message]⟩) := by
  rw [run, report_of_abnormal h.1 h.2, run_reportAbnormal]
  rfl

lemma run_of_calms (h : r.Calms uid) (m : Monitor) : r.run m =
    if m.awaits uid then
      (r.outcome.mapError .publish,
        ⟨if r.outcome = .ok () then m.settle uid else m, [recovery r.subject]⟩)
    else (.ok (), ⟨m, []⟩) := by
  rw [run, report_of_normal h.1 h.2, run_reportNormal]
  rfl

/-- A report is made on nobody, or it is an abnormal or a normal one about a subject. -/
lemma nameless_or_alarms_or_calms (r : Report) :
    r.subject.uid = none ∨ ∃ uid, r.Alarms uid ∨ r.Calms uid := by
  cases hs : r.subject.uid with
  | none => exact Or.inl rfl
  | some uid =>
    right
    cases ha : r.condition.abnormal with
    | true => exact ⟨uid, Or.inl ⟨hs, ha⟩⟩
    | false => exact ⟨uid, Or.inr ⟨hs, ha⟩⟩

/-! ### What it attempts -/

lemma attempts_nameless (h : r.subject.uid = none) (m : Monitor) : r.attempts m = [] :=
  congrArg (fun x => x.2.sent) (run_nameless h m)

lemma leaves_nameless (h : r.subject.uid = none) (m : Monitor) : r.leaves m = m :=
  congrArg (fun x => x.2.monitor) (run_nameless h m)

lemma attempts_of_alarms (h : r.Alarms uid) (m : Monitor) :
    r.attempts m = [warning r.subject r.condition.message] :=
  congrArg (fun x => x.2.sent) (run_of_alarms h m)

lemma leaves_of_alarms (h : r.Alarms uid) (m : Monitor) : r.leaves m = m.rearm uid :=
  congrArg (fun x => x.2.monitor) (run_of_alarms h m)

lemma attempts_of_calms (h : r.Calms uid) (m : Monitor) :
    r.attempts m = if m.awaits uid then [recovery r.subject] else [] := by
  rw [attempts, run_of_calms h]
  split <;> rfl

/-- A normal condition leaves a mark when its recovery was published. -/
lemma leaves_of_calms (h : r.Calms uid) (m : Monitor) :
    r.leaves m = if m.awaits uid ∧ r.outcome = .ok () then m.settle uid else m := by
  rw [leaves, run_of_calms h]
  cases m.awaits uid with
  | false => rfl
  | true =>
    cases r.outcome with
    | error e => rfl
    | ok u => rfl

/-- A recovery is published when a normal condition is reported while it is awaited. -/
lemma recovers_iff : r.Recovers uid m ↔
    r.Calms uid ∧ m.awaits uid = true ∧ r.outcome = .ok () := by
  constructor
  · rintro ⟨hs, hattempts, hok⟩
    cases ha : r.condition.abnormal with
    | true =>
      rw [attempts_of_alarms ⟨hs, ha⟩] at hattempts
      cases congrArg Notice.severity (List.singleton_inj.mp hattempts)
    | false =>
      rw [attempts_of_calms ⟨hs, ha⟩] at hattempts
      refine ⟨⟨hs, ha⟩, ?_, hok⟩
      by_contra hnot
      rw [if_neg hnot] at hattempts
      cases hattempts
  · rintro ⟨hcalms, hawaits, hok⟩
    refine ⟨hcalms.1, ?_, hok⟩
    rw [attempts_of_calms hcalms, if_pos hawaits]
    rfl

/-! ### What it leaves -/

/-- Reports leave the events on record alone. -/
lemma contains_leaves (r : Report) (m : Monitor) (uid : String) (severity : Severity)
    (reason : Reason) :
    (r.leaves m).warnings.contains uid severity reason =
      m.warnings.contains uid severity reason := by
  rcases r.nameless_or_alarms_or_calms with hs | ⟨uid', h | h⟩
  · rw [leaves_nameless hs]
  · rw [leaves_of_alarms h]
    rfl
  · rw [leaves_of_calms h]
    split
    · exact WarningIndex.hasGroup_markRecovered ..
    · rfl

/-- After a report a warning is answered when the report has answered it, or when it was answered
before and no abnormal condition was reported. -/
lemma answered_leaves_iff : (r.leaves m).unanswered uid = false ↔
    r.Recovers uid m ∨ ¬ r.Alarms uid ∧ m.unanswered uid = false := by
  rw [recovers_iff]
  rcases r.nameless_or_alarms_or_calms with hs | ⟨uid', h | h⟩
  · have halarms : ¬ r.Alarms uid := fun ha => by
      rw [ha.1] at hs
      cases hs
    have hcalms : ¬ r.Calms uid := fun hc => by
      rw [hc.1] at hs
      cases hs
    rw [leaves_nameless hs]
    simp only [halarms, hcalms, false_and, false_or, not_false_eq_true, true_and]
  · have hcalms : ¬ r.Calms uid := fun hc => hc.not_alarms h
    have hsubject : r.Alarms uid ↔ uid' = uid :=
      ⟨fun ha => Option.some.inj (h.1.symm.trans ha.1), fun hu => hu ▸ h⟩
    rw [leaves_of_alarms h, Monitor.unanswered_eq_false_iff, Monitor.unanswered_eq_false_iff,
      Monitor.rearm, WarningIndex.mem_answered_clearRecovered, hsubject]
    simp only [hcalms, false_and, false_or, ne_eq]
  · have halarms : ¬ r.Alarms uid := h.not_alarms
    have hsubject : r.Calms uid ↔ uid' = uid :=
      ⟨fun hc => Option.some.inj (h.1.symm.trans hc.1), fun hu => hu ▸ h⟩
    simp only [halarms, not_false_eq_true, true_and, hsubject]
    rw [leaves_of_calms h, Monitor.unanswered_eq_false_iff, Monitor.unanswered_eq_false_iff]
    by_cases hsettles : m.awaits uid' = true ∧ r.outcome = .ok ()
    · have hrecord := (Monitor.awaits_iff_unanswered.mp hsettles.1).1
      rw [if_pos hsettles, Monitor.settle, WarningIndex.mem_answered_markRecovered]
      refine or_congr_left (and_congr_right ?_)
      rintro rfl
      exact iff_of_true hrecord hsettles
    · rw [if_neg hsettles]
      refine (or_iff_right ?_).symm
      rintro ⟨rfl, hboth⟩
      exact hsettles hboth

/-- A report on another subject leaves the record of a subject alone. -/
lemma sameRecord_leaves (h : r.subject.uid ≠ some uid) (m : Monitor) :
    m.SameRecord uid (r.leaves m) := by
  refine ⟨r.contains_leaves m _ _ _, ?_⟩
  have halarms : ¬ r.Alarms uid := fun ha => h ha.1
  have hrecovers : ¬ r.Recovers uid m := fun hr => h hr.1
  rw [Bool.eq_iff_iff, ← Bool.not_eq_false, ← Bool.not_eq_false, answered_leaves_iff]
  simp only [hrecovers, halarms, false_or, not_false_eq_true, true_and]

/-- What a report on a subject attempts depends on the record of that subject only. -/
lemma attempts_congr (hs : r.subject.uid = some uid) (h : m.SameRecord uid m') :
    r.attempts m' = r.attempts m := by
  cases ha : r.condition.abnormal with
  | true => rw [attempts_of_alarms ⟨hs, ha⟩, attempts_of_alarms ⟨hs, ha⟩]
  | false => rw [attempts_of_calms ⟨hs, ha⟩, attempts_of_calms ⟨hs, ha⟩, h.awaits_eq]

/-- What a report on a subject makes of its record depends on that record only. -/
lemma SameRecord.leaves (hs : r.subject.uid = some uid) (h : m.SameRecord uid m') :
    (r.leaves m).SameRecord uid (r.leaves m') := by
  have hrecovers : r.Recovers uid m' ↔ r.Recovers uid m := by
    rw [Recovers, Recovers, attempts_congr hs h]
  refine ⟨?_, ?_⟩
  · rw [contains_leaves, contains_leaves, h.1]
  · rw [Bool.eq_iff_iff, ← Bool.not_eq_false, ← Bool.not_eq_false, answered_leaves_iff,
      answered_leaves_iff, hrecovers, h.2]

/-! ## Many reports -/

/-- The monitor after several reports. -/
def leavesAll (m : Monitor) (rs : List Report) : Monitor := rs.foldl (fun m r => r.leaves m) m

/-- The reports on one subject. -/
def about (uid : String) (rs : List Report) : List Report :=
  rs.filter fun r => r.subject.uid = some uid

/-- A recovery of a subject was published, and no abnormal condition was reported since then. -/
def Answered (m : Monitor) (uid : String) (rs : List Report) : Prop :=
  Standing (fun before r => r.Recovers uid (leavesAll m before)) (Alarms uid) rs

/-- After these reports a normal condition is a recovery: a warning is on record, and it is not
answered. -/
def Due (m : Monitor) (uid : String) (rs : List Report) : Prop :=
  m.warnings.contains uid .warning .volumeAbnormal = true ∧ ¬ Answered m uid rs

lemma leavesAll_concat (m : Monitor) (rs : List Report) (r : Report) :
    leavesAll m (rs ++ [r]) = r.leaves (leavesAll m rs) := by
  rw [leavesAll, List.foldl_append]
  rfl

lemma answered_concat_iff {rs : List Report} : Answered m uid (rs ++ [r]) ↔
    r.Recovers uid (leavesAll m rs) ∨ ¬ r.Alarms uid ∧ Answered m uid rs := standing_concat_iff

lemma contains_leavesAll (m : Monitor) (rs : List Report) (uid : String) (severity : Severity)
    (reason : Reason) : (leavesAll m rs).warnings.contains uid severity reason =
      m.warnings.contains uid severity reason := by
  induction rs using List.reverseRecOn with
  | nil => rfl
  | append_singleton rs r ih => rw [leavesAll_concat, contains_leaves, ih]

/-- The marks of the index are a memory of the recoveries that were published. -/
lemma answered_leavesAll_iff (h : m.warnings.answered = []) (rs : List Report) :
    (leavesAll m rs).unanswered uid = false ↔ Answered m uid rs := by
  refine foldl_iff_standing (P := fun m' : Monitor => m'.unanswered uid = false) ?_
    (fun _ _ => answered_leaves_iff) rs
  rw [Monitor.unanswered_eq_false_iff, h]
  exact List.not_mem_nil

lemma awaits_leavesAll_iff (h : m.warnings.answered = []) (rs : List Report) :
    (leavesAll m rs).awaits uid = true ↔ Due m uid rs := by
  rw [Monitor.awaits_iff_unanswered, contains_leavesAll, answered_leavesAll_iff h]
  rfl

/-- A warning stays unanswered as long as no recovery is published. -/
lemma Due.append {rs later : List Report} (h : Due m uid rs)
    (hnone : ∀ r ∈ later, ∀ m, ¬ r.Recovers uid m) : Due m uid (rs ++ later) := by
  refine ⟨h.1, ?_⟩
  induction later using List.reverseRecOn with
  | nil => rw [List.append_nil]; exact h.2
  | append_singleton later r ih =>
    have hrest := ih fun x hx => hnone x (List.mem_append_left _ hx)
    rw [← List.append_assoc, answered_concat_iff]
    rintro (hrecovers | ⟨-, hanswered⟩)
    · exact hnone r (by simp) _ hrecovers
    · exact hrest hanswered

/-- Reports on other subjects make no difference to the record of a subject. -/
lemma sameRecord_about (m : Monitor) (uid : String) (rs : List Report) :
    (leavesAll m (about uid rs)).SameRecord uid (leavesAll m rs) := by
  induction rs using List.reverseRecOn with
  | nil => exact ⟨rfl, rfl⟩
  | append_singleton rs r ih =>
    rw [leavesAll_concat, about, List.filter_append]
    by_cases hs : r.subject.uid = some uid
    · rw [List.filter_cons_of_pos (by simpa using hs), List.filter_nil, leavesAll_concat]
      exact SameRecord.leaves hs ih
    · rw [List.filter_cons_of_neg (by simpa using hs), List.filter_nil, List.append_nil]
      exact ih.trans (sameRecord_leaves hs _)

end Report

open Report

/-! ## The events about a subject -/

/-- What is promised of the events that are published about a subject while only reports are
made. -/
structure Protocol (m : Monitor) (uid : String) : Prop where
  /-- Every abnormal condition is published, as a warning about its subject that says what the
  driver says. -/
  warns : ∀ (rs : List Report) (r : Report), r.Alarms uid →
    r.attempts (leavesAll m rs) = [⟨r.subject, .warning, .volumeAbnormal, r.condition.message⟩]
  /-- A normal condition is published as a recovery when one is due, -/
  recovers : ∀ (rs : List Report) (r : Report), r.Calms uid →
    (r.attempts (leavesAll m rs) =
      [⟨r.subject, .normal, .volumeNormal, "The Volume returns to the healthy state"⟩] ↔
        Due m uid rs)
  /-- and otherwise it is not published at all. -/
  silent : ∀ (rs : List Report) (r : Report), r.Calms uid →
    (r.attempts (leavesAll m rs) = [] ↔ ¬ Due m uid rs)
  /-- No two recoveries are published without an abnormal condition in between. -/
  once : ∀ (rs : List Report) (r : Report) (between : List Report) (r' : Report),
    r.Recovers uid (leavesAll m rs) → r'.Recovers uid (leavesAll m (rs ++ r :: between)) →
    ∃ x ∈ between, x.Alarms uid
  /-- When a recovery could not be published, the next normal condition tries again. -/
  retried : ∀ (rs : List Report) (r : Report) (between : List Report) (r' : Report),
    r.Calms uid → r.attempts (leavesAll m rs) ≠ [] → r.outcome ≠ .ok () →
    (∀ x ∈ between, ¬ x.Calms uid) → r'.Calms uid →
    r'.attempts (leavesAll m (rs ++ r :: between)) =
      [⟨r'.subject, .normal, .volumeNormal, "The Volume returns to the healthy state"⟩]
  /-- Reports on other subjects make no difference. -/
  independent : ∀ (rs : List Report) (r : Report), r.subject.uid = some uid →
    r.attempts (leavesAll m rs) = r.attempts (leavesAll m (about uid rs))

/-- While no watch event changes the index, and when no warning was answered at the beginning, the
reports on every subject keep the protocol.  A report on a subject without a uid does nothing. -/
theorem recovery_protocol {m : Monitor} (h : m.warnings.answered = []) :
    (∀ uid, Protocol m uid) ∧ ∀ (rs : List Report) (r : Report), r.subject.uid = none →
      r.attempts (leavesAll m rs) = [] ∧ r.leaves (leavesAll m rs) = leavesAll m rs := by
  refine ⟨fun uid => ?_, fun rs r hs => ⟨attempts_nameless hs _, leaves_nameless hs _⟩⟩
  have hrecovers : ∀ (rs : List Report) (r : Report), r.Calms uid →
      (r.attempts (leavesAll m rs) =
        [⟨r.subject, .normal, .volumeNormal, "The Volume returns to the healthy state"⟩] ↔
          Due m uid rs) := by
    intro rs r hr
    rw [attempts_of_calms hr, ← awaits_leavesAll_iff h]
    split <;> simp [*, recovery, Condition.recoveryMessage]
  have hsilent : ∀ (rs : List Report) (r : Report), r.Calms uid →
      (r.attempts (leavesAll m rs) = [] ↔ ¬ Due m uid rs) := by
    intro rs r hr
    rw [attempts_of_calms hr, ← awaits_leavesAll_iff h]
    split <;> simp [*]
  exact {
    warns := fun rs r hr => attempts_of_alarms hr _
    recovers := hrecovers
    silent := hsilent
    once := by
      intro rs r between r' hr hr'
      by_contra hnone
      have hanswered : Answered m uid (rs ++ r :: between) :=
        ⟨rs, r, between, rfl, hr, fun x hx ha => hnone ⟨x, hx, ha⟩⟩
      have hdue := (awaits_leavesAll_iff h _).mp (recovers_iff.mp hr').2.1
      exact hdue.2 hanswered
    retried := by
      intro rs r between r' hr hattempts hfailed hbetween hr'
      have hdue : Due m uid rs := not_not.mp fun hnot => hattempts ((hsilent rs r hr).mpr hnot)
      refine (hrecovers _ r' hr').mpr (hdue.append ?_)
      intro x hx y hy
      rcases List.mem_cons.mp hx with rfl | hx
      · exact hfailed hy.2.2
      · exact hbetween x hx (recovers_iff.mp hy).1
    independent := by
      intro rs r hs
      exact attempts_congr hs (sameRecord_about m uid rs) }

end Check

/-! ## A recovery that is refused -/

namespace RefusedRecovery

open Check Check.Report

/-- The monitor knows of a warning about the claim. -/
def known : Monitor := SharedClaim.start.monitor

/-- Another claim, which shares nothing with the first one. -/
def other : Subject := { SharedClaim.claim.subject with uid := some "pvc2-uid" }

/-- The claim is found normal, and the event is published or not. -/
def normal (outcome : Except PublishError Unit) : Report :=
  ⟨SharedClaim.claim.subject, ⟨false, ""⟩, outcome⟩

/-- The other claim is found abnormal. -/
def elsewhere : Report := ⟨other, ⟨true, "broken"⟩, .ok ()⟩

/-- The recovery is refused, and tried again although another claim was reported on; once it is
published nothing more is said. -/
theorem retried_once : known.warnings.answered = [] ∧
    elsewhere.attempts (leavesAll known [normal (.error ⟨"refused"⟩)]) =
      [⟨other, .warning, .volumeAbnormal, "broken"⟩] ∧
    (normal (.ok ())).attempts (leavesAll known [normal (.error ⟨"refused"⟩), elsewhere]) =
      [⟨SharedClaim.claim.subject, .normal, .volumeNormal,
        "The Volume returns to the healthy state"⟩] ∧
    (normal (.ok ())).attempts
      (leavesAll known [normal (.error ⟨"refused"⟩), elsewhere, normal (.ok ())]) = [] := by
  have hstart : known.warnings.answered = [] := by decide
  have hprotocol := (recovery_protocol hstart).1 "pvc1-uid"
  have hnormal : ∀ outcome, (normal outcome).Calms "pvc1-uid" := fun outcome => ⟨rfl, rfl⟩
  have hnone : ∀ x ∈ [elsewhere], ¬ x.Calms "pvc1-uid" := by
    intro x hx hcalms
    rw [List.mem_singleton.mp hx] at hcalms
    cases hcalms.2
  have hwarned : elsewhere.attempts (leavesAll known [normal (.error ⟨"refused"⟩)]) =
      [⟨other, .warning, .volumeAbnormal, "broken"⟩] :=
    ((recovery_protocol hstart).1 "pvc2-uid").warns _ elsewhere ⟨rfl, rfl⟩
  have hfirst : (normal (.error ⟨"refused"⟩)).attempts known ≠ [] := by decide
  have hretried : (normal (.ok ())).attempts
      (leavesAll known [normal (.error ⟨"refused"⟩), elsewhere]) =
        [⟨SharedClaim.claim.subject, .normal, .volumeNormal,
          "The Volume returns to the healthy state"⟩] :=
    hprotocol.retried [] (normal (.error ⟨"refused"⟩)) [elsewhere] (normal (.ok ())) (hnormal _)
      hfirst nofun hnone (hnormal _)
  have hrecovers : (normal (.ok ())).Recovers "pvc1-uid"
      (leavesAll known [normal (.error ⟨"refused"⟩), elsewhere]) := ⟨rfl, hretried, rfl⟩
  have hanswered : Answered known "pvc1-uid"
      [normal (.error ⟨"refused"⟩), elsewhere, normal (.ok ())] :=
    ⟨[normal (.error ⟨"refused"⟩), elsewhere], normal (.ok ()), [], rfl, hrecovers,
      fun x hx => absurd hx List.not_mem_nil⟩
  exact ⟨hstart, hwarned, hretried,
    (hprotocol.silent _ _ (hnormal _)).mpr fun hdue => hdue.2 hanswered⟩

end RefusedRecovery

end StorageHealth
