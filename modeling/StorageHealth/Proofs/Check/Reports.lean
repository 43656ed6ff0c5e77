import StorageHealth.Proofs.Process.Trace

/-!
# What reports do

A report is the only place where a monitor publishes anything about volumes.  What it can do is
listed by `Reported`: an abnormal condition makes the monitor forget that the last warning was
answered before it publishes the next one, a normal one is looked up first, and a recovery that was
published then is remembered.  `reported_of_ends` says that reports do nothing else.

`Orderly` keeps of this what matters to recoveries: each published recovery stands between the look
that asked for it and the mark it leaves.  Whatever puts checks one after the other is orderly too.
-/

namespace StorageHealth

/-! ## The steps of a report -/

namespace Monitor

/-- The next normal condition of a subject counts as a recovery again. -/
def rearm (uid : String) (m : Monitor) : Monitor :=
  { m with warnings := m.warnings.clearRecovered uid .volumeAbnormal }

/-- The warning about a subject counts as answered. -/
def settle (uid : String) (m : Monitor) : Monitor :=
  { m with warnings := m.warnings.markRecovered uid .volumeAbnormal }

/-- Whether a normal condition of a subject counts as a recovery. -/
def awaits (uid : String) (m : Monitor) : Bool := m.warnings.needsRecovery uid .volumeAbnormal

end Monitor

namespace Deed

/-- A subject's next normal condition was made a recovery again. -/
def rearmed (uid : String) (m : Monitor) : Deed := ⟨.update (Monitor.rearm uid), m⟩

/-- The warning about a subject was marked as answered. -/
def settled (uid : String) (m : Monitor) : Deed := ⟨.update (Monitor.settle uid), m⟩

/-- A notice was published, or could not be. -/
def sent (n : Notice) (outcome : Except PublishError Unit) : Deed := ⟨.publish n, outcome⟩

/-- A recovery event about a subject was published. -/
def Recovers (uid : String) (d : Deed) : Prop :=
  ∃ n : Notice, n.subject.uid = some uid ∧ n.severity = .normal ∧ n.reason = .volumeNormal ∧
    d = sent n (.ok ())

end Deed

namespace Check

open Deed

/-- What a report on a subject does, and how it ends. -/
inductive Reported (s : Subject) (condition : Condition) :
    List Deed → Except CheckError Unit → Prop where
  | nameless (h : s.uid = none) :
      Reported s condition [] (.error (.missingUid "subject" (s.name.getD "")))
  | warned {uid : String} (h : s.uid = some uid) (ha : condition.abnormal = true) (m : Monitor)
      (outcome : Except PublishError Unit) :
      Reported s condition [rearmed uid m, sent (warning s condition.message) outcome]
        (outcome.mapError .publish)
  | quiet {uid : String} (h : s.uid = some uid) (ha : condition.abnormal = false) {m : Monitor}
      (hm : m.awaits uid = false) : Reported s condition [looked m] (.ok ())
  | refused {uid : String} (h : s.uid = some uid) (ha : condition.abnormal = false) {m : Monitor}
      (hm : m.awaits uid = true) (e : PublishError) :
      Reported s condition [looked m, sent (recovery s) (.error e)] (.error (.publish e))
  | recovered {uid : String} (h : s.uid = some uid) (ha : condition.abnormal = false) {m : Monitor}
      (hm : m.awaits uid = true) (m' : Monitor) :
      Reported s condition [looked m, sent (recovery s) (.ok ()), settled uid m'] (.ok ())

lemma ends_publish_iff {n : Notice} {ds : List Deed} {r : Except PublishError Unit} :
    (publish n).Ends ds r ↔ ds = [sent n r] := Process.ends_perform_iff

lemma reported_of_ends_reportAbnormal {s : Subject} {condition : Condition} {uid : String}
    (hs : s.uid = some uid) (ha : condition.abnormal = true) {ds : List Deed}
    {r : Except CheckError Unit} (h : (reportAbnormal s uid condition.message).Ends ds r) :
    Reported s condition ds r := by
  rw [reportAbnormal, Attempt.ends_change_bind_iff] at h
  obtain ⟨m, rest, rfl, hrest⟩ := h
  obtain ⟨outcome, hsent, rfl⟩ := Attempt.ends_mapError_iff.mp hrest
  rw [ends_publish_iff.mp hsent]
  exact Reported.warned hs ha m outcome

/-- A recovery is published when it is awaited, and remembered when that worked out. -/
lemma reported_of_ends_reportNormal {s : Subject} {condition : Condition} {uid : String}
    (hs : s.uid = some uid) (ha : condition.abnormal = false) {ds : List Deed}
    {r : Except CheckError Unit} (h : (reportNormal s uid).Ends ds r) :
    Reported s condition ds r := by
  rw [reportNormal, Attempt.ends_look_bind_iff] at h
  obtain ⟨m, rest, rfl, h⟩ := h
  cases hm : m.awaits uid with
  | false =>
    have hneeds : m.warnings.needsRecovery uid .volumeAbnormal = false := hm
    rw [hneeds, if_neg (by decide), Attempt.ends_pure_iff] at h
    obtain ⟨rfl, rfl⟩ := h
    exact Reported.quiet hs ha hm
  | true =>
    have hneeds : m.warnings.needsRecovery uid .volumeAbnormal = true := hm
    rw [hneeds, if_pos rfl, Attempt.ends_bind_iff] at h
    rcases h with ⟨first, _, rest, rfl, hsent, hrest⟩ | ⟨e, rfl, hsent⟩
    · obtain ⟨outcome, hsent, hok⟩ := Attempt.ends_mapError_iff.mp hsent
      obtain ⟨_, rfl, hchange⟩ := Attempt.ends_lift_iff.mp hrest
      obtain ⟨m', rfl⟩ := Process.ends_change_iff.mp hchange
      rw [ends_publish_iff.mp hsent]
      cases outcome with
      | ok _ => exact Reported.recovered hs ha hm m'
      | error e => cases hok
    · obtain ⟨outcome, hsent, herror⟩ := Attempt.ends_mapError_iff.mp hsent
      rw [ends_publish_iff.mp hsent]
      cases outcome with
      | ok _ => cases herror
      | error e' =>
        cases herror
        exact Reported.refused hs ha hm e'

/-- A report does nothing but what is listed. -/
theorem reported_of_ends {s : Subject} {condition : Condition} {ds : List Deed}
    {r : Except CheckError Unit} (h : (report s condition).Ends ds r) :
    Reported s condition ds r := by
  unfold report at h
  cases hs : s.uid with
  | none =>
    rw [hs] at h
    obtain ⟨rfl, rfl⟩ := Attempt.ends_throw_iff.mp h
    exact Reported.nameless hs
  | some uid =>
    cases ha : condition.abnormal with
    | true =>
      simp only [hs, ha, if_true] at h
      exact reported_of_ends_reportAbnormal hs ha h
    | false =>
      simp only [hs, ha] at h
      exact reported_of_ends_reportNormal hs ha h

/-- A check that gets as far as asking the driver either has nothing to report or reports what the
driver has answered. -/
lemma ends_ask_report {c : Conduct} {v : Volume} {call : Call} {s : Subject} {ds : List Deed}
    {r : Except CheckError Condition}
    (h : Attempt.Ends (ask c v call >>= fun condition =>
      report s condition >>= fun _ => pure condition) ds r) :
    (∃ outcome, ds = [⟨.probe call c.timeout, outcome⟩] ∧ ∀ a, outcome ≠ .answered a) ∨
      ∃ condition rest r', ds = ⟨.probe call c.timeout, .answered condition⟩ :: rest ∧
        Reported s condition rest r' := by
  have hask : ∀ {ds r}, (ask c v call).Ends ds r → ∃ outcome,
      ds = [⟨.probe call c.timeout, outcome⟩] ∧
        r = Outcome.orError (nameOf v) c.timeout outcome := by
    intro ds r h
    obtain ⟨first, outcome, rest, rfl, hprobe, hrest⟩ := Attempt.ends_lift_bind_iff.mp h
    obtain ⟨rfl, hr⟩ := Attempt.ends_ofExcept_iff.mp hrest
    rw [Process.ends_perform_iff.mp hprobe]
    exact ⟨outcome, rfl, hr⟩
  rcases Attempt.ends_bind_iff.mp h with ⟨first, condition, rest, rfl, hfirst, hrest⟩ | ⟨e, -, he⟩
  · obtain ⟨outcome, rfl, hok⟩ := hask hfirst
    cases outcome with
    | late => cases hok
    | failed cause => cases hok
    | answered a =>
      cases hok
      refine Or.inr ?_
      rcases Attempt.ends_bind_iff.mp hrest with
        ⟨ds, _, last, rfl, hreport, hpure⟩ | ⟨e, -, hreport⟩
      · obtain ⟨rfl, -⟩ := Attempt.ends_pure_iff.mp hpure
        rw [List.append_nil]
        exact ⟨condition, ds, _, rfl, reported_of_ends hreport⟩
      · exact ⟨condition, rest, _, rfl, reported_of_ends hreport⟩
  · obtain ⟨outcome, rfl, herror⟩ := hask he
    refine Or.inl ⟨outcome, rfl, ?_⟩
    rintro a rfl
    cases herror

end Check

end StorageHealth
