import StorageHealth.Proofs.Check.Eligibility
import StorageHealth.Proofs.Check.Protocol

/-!
# The order of a sweep

A sweep comes upon the volumes in the order in which the cache happens to hold them.  A report reads
and writes what is on record about its own subject only, so the order makes no difference as long as
no two volumes share a claim and publishing an event does not depend on the events before it.

A sweep is first reduced to the list of reports that it makes (`run_reportAll`).  When the reports
are on different subjects, what all of them come to can be read off the monitor before the first one
(`makeAll_eq`, `mem_answered_leavesAll_iff`), and `sweep_perm` follows.
-/

namespace StorageHealth

namespace Check

open Surroundings Report

/-! ## Reports on different subjects -/

namespace Report

variable {m m' : Monitor} {r : Report} {rs : List Report} {uid : String}

/-- The reports are on different subjects; those on nobody do not count. -/
def Separate (rs : List Report) : Prop :=
  rs.Pairwise fun r r' => ∀ uid, r.subject.uid = some uid → r'.subject.uid ≠ some uid

/-- How a report ends depends on the record of its subject only. -/
lemma result_congr (hs : r.subject.uid = some uid) (h : m.SameRecord uid m') :
    (r.run m').1 = (r.run m).1 := by
  cases ha : r.condition.abnormal with
  | true => rw [run_of_alarms ⟨hs, ha⟩, run_of_alarms ⟨hs, ha⟩]
  | false =>
    rw [run_of_calms ⟨hs, ha⟩, run_of_calms ⟨hs, ha⟩, h.awaits_eq]
    split <;> rfl

/-- A report changes nothing but the warnings. -/
lemma leaves_eq (r : Report) (m : Monitor) :
    r.leaves m = { m with warnings := (r.leaves m).warnings } := by
  rcases r.nameless_or_alarms_or_calms with hs | ⟨uid, h | h⟩
  · rw [leaves_nameless hs]
  · rw [leaves_of_alarms h]
    rfl
  · rw [leaves_of_calms h]
    split <;> rfl

/-- Reports leave the events on record alone. -/
lemma entries_leaves (r : Report) (m : Monitor) :
    (r.leaves m).warnings.entries = m.warnings.entries := by
  rcases r.nameless_or_alarms_or_calms with hs | ⟨uid, h | h⟩
  · rw [leaves_nameless hs]
  · rw [leaves_of_alarms h]
    rfl
  · rw [leaves_of_calms h]
    split
    · unfold Monitor.settle WarningIndex.markRecovered
      split <;> rfl
    · rfl

/-- A mark is there after a report when the report has left it, or when it was there before and the
report has not taken it away. -/
lemma mem_answered_leaves_iff {g : String} : g ∈ (r.leaves m).warnings.answered ↔
    (∃ uid, r.Recovers uid m ∧ g = WarningIndex.warningGroup uid .volumeAbnormal) ∨
      g ∈ m.warnings.answered ∧
        ∀ uid, r.Alarms uid → g ≠ WarningIndex.warningGroup uid .volumeAbnormal := by
  by_cases hg : ∃ uid, g = WarningIndex.warningGroup uid .volumeAbnormal
  · obtain ⟨uid, rfl⟩ := hg
    have hleaves : (r.leaves m).unanswered uid = false ↔
        r.Recovers uid m ∨ ¬ r.Alarms uid ∧ m.unanswered uid = false := answered_leaves_iff
    rw [Monitor.unanswered_eq_false_iff, Monitor.unanswered_eq_false_iff] at hleaves
    rw [hleaves]
    constructor
    · rintro (hrecovers | ⟨halarms, hmark⟩)
      · exact Or.inl ⟨uid, hrecovers, rfl⟩
      · refine Or.inr ⟨hmark, fun uid' h' he => halarms ?_⟩
        rwa [WarningIndex.warningGroup_inj_iff.mp he]
    · rintro (⟨uid', hrecovers, he⟩ | ⟨hmark, hnone⟩)
      · rw [WarningIndex.warningGroup_inj_iff.mp he]
        exact Or.inl hrecovers
      · exact Or.inr ⟨fun halarms => hnone uid halarms rfl, hmark⟩
  · -- Reports touch the groups of warnings only.
    have hother : ∀ uid, g ≠ WarningIndex.warningGroup uid .volumeAbnormal :=
      fun uid he => hg ⟨uid, he⟩
    have hkept : g ∈ (r.leaves m).warnings.answered ↔ g ∈ m.warnings.answered := by
      rcases r.nameless_or_alarms_or_calms with hs | ⟨uid, h | h⟩
      · rw [leaves_nameless hs]
      · rw [leaves_of_alarms h]
        simp [Monitor.rearm, WarningIndex.clearRecovered, hother uid]
      · rw [leaves_of_calms h]
        split
        · unfold Monitor.settle WarningIndex.markRecovered
          split
          · simp [hother uid]
          · rfl
        · rfl
    rw [hkept]
    constructor
    · exact fun hmark => Or.inr ⟨hmark, fun uid _ => hother uid⟩
    · rintro (⟨uid, -, he⟩ | ⟨hmark, -⟩)
      · exact absurd he (hother uid)
      · exact hmark

lemma leavesAll_cons (m : Monitor) (r : Report) (rs : List Report) :
    leavesAll m (r :: rs) = leavesAll (r.leaves m) rs := rfl

/-- Among different subjects, the record of a subject is untouched until it is reported on. -/
lemma sameRecord_of_separate (h : Separate (r :: rs)) (m : Monitor) {r' : Report} (hr' : r' ∈ rs)
    (hs : r'.subject.uid = some uid) : m.SameRecord uid (r.leaves m) := by
  have hne : r.subject.uid ≠ some uid := fun hr => (List.pairwise_cons.mp h).1 r' hr' uid hr hs
  exact sameRecord_leaves hne m

/-- Among different subjects, what becomes of a report can be seen before those in front of it. -/
lemma run_of_separate (h : Separate (r :: rs)) (m : Monitor) {r' : Report} (hr' : r' ∈ rs) :
    (r'.run (r.leaves m)).1 = (r'.run m).1 ∧ r'.attempts (r.leaves m) = r'.attempts m := by
  cases hs : r'.subject.uid with
  | none =>
    rw [run_nameless hs, run_nameless hs, attempts_nameless hs, attempts_nameless hs]
    exact ⟨rfl, rfl⟩
  | some uid =>
    have hrecord := sameRecord_of_separate h m hr' hs
    exact ⟨result_congr hs hrecord, attempts_congr hs hrecord⟩

/-- Among different subjects, which recoveries are published can be seen at the beginning. -/
lemma recovers_of_separate (h : Separate (r :: rs)) (m : Monitor) {r' : Report} (hr' : r' ∈ rs)
    (uid : String) : r'.Recovers uid (r.leaves m) ↔ r'.Recovers uid m := by
  rw [Recovers, Recovers, (run_of_separate h m hr').2]

lemma leavesAll_eq (m : Monitor) (rs : List Report) :
    leavesAll m rs = { m with warnings := (leavesAll m rs).warnings } := by
  induction rs generalizing m with
  | nil => rfl
  | cons r rs ih =>
    rw [leavesAll_cons, ih (r.leaves m), r.leaves_eq m]

lemma entries_leavesAll (m : Monitor) (rs : List Report) :
    (leavesAll m rs).warnings.entries = m.warnings.entries := by
  induction rs generalizing m with
  | nil => rfl
  | cons r rs ih => rw [leavesAll_cons, ih, entries_leaves]

/-- The marks that reports on different subjects leave: those of the recoveries that are published,
and those that were there and that no abnormal condition takes away. -/
lemma mem_answered_leavesAll_iff (h : Separate rs) {g : String} :
    g ∈ (leavesAll m rs).warnings.answered ↔
      (∃ r ∈ rs, ∃ uid, r.Recovers uid m ∧ g = WarningIndex.warningGroup uid .volumeAbnormal) ∨
        g ∈ m.warnings.answered ∧
          ∀ r ∈ rs, ∀ uid, r.Alarms uid → g ≠ WarningIndex.warningGroup uid .volumeAbnormal := by
  induction rs generalizing m with
  | nil => simp [leavesAll]
  | cons r rs ih =>
    have hfirst := (List.pairwise_cons.mp h).1
    have hrest : Separate rs := (List.pairwise_cons.mp h).2
    rw [leavesAll_cons, ih hrest, mem_answered_leaves_iff]
    constructor
    · rintro (⟨r', hr', uid, hrecovers, hg⟩ | ⟨⟨uid, hrecovers, hg⟩ | ⟨hmark, hnone⟩, hlater⟩)
      · refine Or.inl ⟨r', List.mem_cons_of_mem r hr', uid, ?_, hg⟩
        exact (recovers_of_separate h m hr' uid).mp hrecovers
      · exact Or.inl ⟨r, List.mem_cons_self, uid, hrecovers, hg⟩
      · refine Or.inr ⟨hmark, fun r' hr' => ?_⟩
        rcases List.mem_cons.mp hr' with rfl | hr'
        · exact hnone
        · exact hlater r' hr'
    · rintro (⟨r', hr', uid, hrecovers, hg⟩ | ⟨hmark, hnone⟩)
      · rcases List.mem_cons.mp hr' with rfl | hr'
        · -- Nobody else reports on this subject, so the mark stays.
          refine Or.inr ⟨Or.inl ⟨uid, hrecovers, hg⟩, fun r'' hr'' uid' halarms he => ?_⟩
          have huid : uid = uid' := WarningIndex.warningGroup_inj (hg.symm.trans he)
          exact hfirst r'' hr'' uid hrecovers.1 (huid ▸ halarms.1)
        · exact Or.inl ⟨r', hr', uid, (recovers_of_separate h m hr' uid).mpr hrecovers, hg⟩
      · refine Or.inr ⟨Or.inr ⟨hmark, hnone r List.mem_cons_self⟩, fun r' hr' => ?_⟩
        exact hnone r' (List.mem_cons_of_mem r hr')

/-! ## All reports of a sweep -/

/-- Makes reports one after the other: how many of them worked out, and the scene afterwards. -/
def makeAll : List Report → Scene → Nat × Scene
  | [], s => (0, s)
  | r :: rs, s =>
    let x := r.run s.monitor
    let y := makeAll rs ⟨x.2.monitor, s.sent ++ x.2.sent⟩
    ((if x.1.isOk then 1 else 0) + y.1, y.2)

/-- What reports on different subjects come to can be seen at the beginning. -/
lemma makeAll_eq (h : Separate rs) (s : Scene) : makeAll rs s =
    (rs.countP fun r => (r.run s.monitor).1.isOk,
      ⟨leavesAll s.monitor rs, s.sent ++ rs.flatMap fun r => r.attempts s.monitor⟩) := by
  induction rs generalizing s with
  | nil => simp [makeAll, leavesAll]
  | cons r rs ih =>
    have hrest : Separate rs := (List.pairwise_cons.mp h).2
    have hcount : (rs.countP fun r' => (r'.run (r.leaves s.monitor)).1.isOk) =
        rs.countP fun r' => (r'.run s.monitor).1.isOk := by
      refine List.countP_congr fun r' hr' => ?_
      rw [(run_of_separate h s.monitor hr').1]
    have hsent : (rs.flatMap fun r' => r'.attempts (r.leaves s.monitor)) =
        rs.flatMap fun r' => r'.attempts s.monitor := by
      refine List.flatMap_congr fun r' hr' => ?_
      exact (run_of_separate h s.monitor hr').2
    have hlater : makeAll rs ⟨r.leaves s.monitor, s.sent ++ r.attempts s.monitor⟩ = _ :=
      ih hrest _
    rw [hcount, hsent] at hlater
    change ((if (r.run s.monitor).1.isOk then 1 else 0) +
      (makeAll rs ⟨r.leaves s.monitor, s.sent ++ r.attempts s.monitor⟩).1,
      (makeAll rs ⟨r.leaves s.monitor, s.sent ++ r.attempts s.monitor⟩).2) = _
    rw [hlater, List.countP_cons, List.flatMap_cons, List.append_assoc, leavesAll_cons,
      Nat.add_comm]

/-- The event about a subject that a condition gives rise to, if any. -/
def noticeOf (s : Subject) (condition : Condition) : Notice :=
  if condition.abnormal then warning s condition.message else recovery s

/-- The report on a subject when it is settled what becomes of every event. -/
def under (accepts : Notice → Except PublishError Unit) (s : Subject) (condition : Condition) :
    Report :=
  ⟨s, condition, accepts (noticeOf s condition)⟩

/-- Where publishing depends on the event only, a report comes to the same wherever it is made. -/
lemma run_report {w : Surroundings} {accepts : Notice → Except PublishError Unit}
    (hw : w.publish = fun _ n => accepts n) (subject : Subject) (condition : Condition)
    (s : Scene) : w.run (report subject condition).run s =
      (((under accepts subject condition).run s.monitor).1,
        ⟨(under accepts subject condition).leaves s.monitor,
          s.sent ++ (under accepts subject condition).attempts s.monitor⟩) := by
  cases hs : subject.uid with
  | none =>
    rw [leaves_nameless hs, attempts_nameless hs, run_nameless hs, List.append_nil, report, hs]
    rfl
  | some uid =>
    cases ha : condition.abnormal with
    | true =>
      have halarms : (under accepts subject condition).Alarms uid := ⟨hs, ha⟩
      have hnotice : noticeOf subject condition = warning subject condition.message := if_pos ha
      rw [leaves_of_alarms halarms, attempts_of_alarms halarms, run_of_alarms halarms,
        report_of_abnormal hs ha, run_reportAbnormal, hw, under, hnotice]
    | false =>
      have hcalms : (under accepts subject condition).Calms uid := ⟨hs, ha⟩
      have hnotice : noticeOf subject condition = recovery subject :=
        if_neg (by rw [ha]; exact Bool.false_ne_true)
      rw [leaves_of_calms hcalms, attempts_of_calms hcalms, run_of_calms hcalms,
        report_of_normal hs ha, run_reportNormal, hw, under, hnotice]
      cases s.monitor.awaits uid with
      | false => simp
      | true => simp

end Report

/-- What a sweep that listed these conditions reports because of a volume, and on whom: nothing when
the volume is not eligible or not listed, or when its claim is not known. -/
def finding? (c : Conduct) (conditions : Conditions) (m : Monitor) (v : Volume) :
    Option (Subject × Condition) :=
  match handleOf c v with
  | .error _ => none
  | .ok handle =>
    match Table.get? conditions handle with
    | none => none
    | some condition =>
      match claimOf m v with
      | .error _ => none
      | .ok claim => some (claim.subject, condition)

/-- The reports of a sweep when it is settled what becomes of every event. -/
def reportsOf (accepts : Notice → Except PublishError Unit) (c : Conduct)
    (conditions : Conditions) (m : Monitor) (volumes : List Volume) : List Report :=
  volumes.filterMap fun v => (finding? c conditions m v).map fun x => under accepts x.1 x.2

section Reduction

variable {w : Surroundings} {accepts : Notice → Except PublishError Unit} {c : Conduct}
  {conditions : Conditions}

/-- Reports leave the claims alone, so they make no difference to what is found later. -/
lemma finding?_leaves (r : Report) (m : Monitor) (v : Volume) :
    finding? c conditions (r.leaves m) v = finding? c conditions m v := by
  have hclaim : claimOf (r.leaves m) v = claimOf m v := by
    rw [r.leaves_eq m]
    rfl
  rw [finding?, finding?, hclaim]

/-- What is found about a volume is reported, and it counts when the report works out; a volume
about which nothing is found is passed over. -/
lemma run_reportListed (hw : w.publish = fun _ n => accepts n) (v : Volume) (s : Scene) :
    w.run (reportListed c conditions v) s =
      match finding? c conditions s.monitor v with
      | none => (false, s)
      | some (subject, condition) =>
        (((under accepts subject condition).run s.monitor).1.isOk,
          ⟨(under accepts subject condition).leaves s.monitor,
            s.sent ++ (under accepts subject condition).attempts s.monitor⟩) := by
  rw [reportListed, finding?]
  cases handleOf c v with
  | error e => rfl
  | ok handle =>
    dsimp only
    cases Table.get? conditions handle with
    | none => rfl
    | some condition =>
      dsimp only
      rw [Process.bind_eq, run_bind, run_look]
      dsimp only
      cases claimOf s.monitor v with
      | error e => rfl
      | ok claim =>
        dsimp only
        rw [Process.bind_eq, run_bind, run_report hw]
        rfl

/-- A sweep makes its reports one after the other. -/
lemma run_reportAll (hw : w.publish = fun _ n => accepts n) (volumes : List Volume) (s : Scene) :
    w.run (reportAll c conditions volumes) s =
      makeAll (reportsOf accepts c conditions s.monitor volumes) s := by
  induction volumes generalizing s with
  | nil => rfl
  | cons v rest ih =>
    rw [reportAll, reportsOf, List.filterMap_cons]
    simp only [Process.bind_eq, run_bind]
    cases hv : finding? c conditions s.monitor v with
    | none =>
      rw [run_reportListed hw, hv]
      dsimp only
      rw [ih]
      simp only [Option.map_none, reportsOf, Bool.false_eq_true, if_false, Nat.zero_add]
      rfl
    | some x =>
      have hlater : reportsOf accepts c conditions ((under accepts x.1 x.2).leaves s.monitor) rest =
          reportsOf accepts c conditions s.monitor rest := by
        unfold reportsOf
        simp only [finding?_leaves]
      rw [run_reportListed hw, hv]
      dsimp only
      rw [ih, hlater]
      rfl

end Reduction

/-! ## Volumes in another order -/

/-- No two eligible volumes are bound to claims with the same uid. -/
def OwnClaims (c : Conduct) (m : Monitor) (volumes : List Volume) : Prop :=
  volumes.Pairwise fun v v' => ∀ handle handle' claim claim' uid, v.IsEligible c handle →
    v'.IsEligible c handle' → v.IsBoundTo m claim → v'.IsBoundTo m claim' →
    uidOf claim = some uid → uidOf claim' ≠ some uid

/-- The uid of the claim that a volume is bound to, if the volume is eligible. -/
def ownUid? (c : Conduct) (m : Monitor) (v : Volume) : Option String :=
  match handleOf c v, claimOf m v with
  | .ok _, .ok claim => uidOf claim
  | _, _ => none

lemma ownUid?_eq_some_iff {c : Conduct} {m : Monitor} {v : Volume} {uid : String} :
    ownUid? c m v = some uid ↔
      ∃ handle claim, v.IsEligible c handle ∧ v.IsBoundTo m claim ∧ uidOf claim = some uid := by
  simp only [← handleOf_eq_ok_iff, ← claimOf_eq_ok_iff, ownUid?]
  cases handleOf c v with
  | error e => simp
  | ok handle =>
    cases claimOf m v with
    | error e => simp
    | ok claim => simp

/-- Whether volumes have claims of their own can be computed. -/
lemma ownClaims_iff {c : Conduct} {m : Monitor} {volumes : List Volume} :
    OwnClaims c m volumes ↔
      volumes.Pairwise fun v v' => ownUid? c m v = none ∨ ownUid? c m v ≠ ownUid? c m v' := by
  refine List.Pairwise.iff fun v v' => ?_
  constructor
  · intro h
    cases huid : ownUid? c m v with
    | none => exact Or.inl rfl
    | some uid =>
      obtain ⟨handle, claim, he, hb, hu⟩ := ownUid?_eq_some_iff.mp huid
      refine Or.inr fun hsame => ?_
      obtain ⟨handle', claim', he', hb', hu'⟩ := ownUid?_eq_some_iff.mp hsame.symm
      exact h handle handle' claim claim' uid he he' hb hb' hu hu'
  · intro h handle handle' claim claim' uid he he' hb hb' hu hu'
    have huid : ownUid? c m v = some uid := ownUid?_eq_some_iff.mpr ⟨handle, claim, he, hb, hu⟩
    have huid' : ownUid? c m v' = some uid :=
      ownUid?_eq_some_iff.mpr ⟨handle', claim', he', hb', hu'⟩
    rcases h with hnone | hne
    · rw [huid] at hnone
      cases hnone
    · exact hne (huid.trans huid'.symm)

instance {c : Conduct} {m : Monitor} {volumes : List Volume} :
    Decidable (OwnClaims c m volumes) := decidable_of_iff _ ownClaims_iff.symm

/-- Two outcomes of a sweep that began in the same scene and differ in the order only. -/
structure SameButOrder (before : Scene) (x y : Except CheckError Nat × Scene) : Prop where
  /-- The count or the error is the same. -/
  result : x.1 = y.1
  /-- The same events are sent, and every subject gets the same ones. -/
  events : ∃ sent sent', x.2.sent = before.sent ++ sent ∧ y.2.sent = before.sent ++ sent' ∧
    sent.Perm sent' ∧ ∀ subject,
      sent.filter (fun n => n.subject = subject) = sent'.filter fun n => n.subject = subject
  /-- The same events are in the index, -/
  entries : x.2.monitor.warnings.entries = y.2.monitor.warnings.entries
  /-- the same warnings count as answered, -/
  answered : ∀ group, group ∈ x.2.monitor.warnings.answered ↔
    group ∈ y.2.monitor.warnings.answered
  /-- and nothing else of the monitor has changed. -/
  others : x.2.monitor = { before.monitor with warnings := x.2.monitor.warnings } ∧
    y.2.monitor = { before.monitor with warnings := y.2.monitor.warnings }

lemma OwnClaims.perm {c : Conduct} {m : Monitor} {volumes volumes' : List Volume}
    (h : OwnClaims c m volumes) (hperm : volumes.Perm volumes') : OwnClaims c m volumes' := by
  refine hperm.pairwise h ?_
  intro v v' hv handle handle' claim claim' uid he he' hb hb' hu hu'
  exact hv handle' handle claim' claim uid he' he hb' hb hu' hu

/-- A finding is about an eligible volume, and on the claim that the volume is bound to. -/
lemma exists_claim_of_finding? {c : Conduct} {conditions : Conditions} {m : Monitor} {v : Volume}
    {subject : Subject} {condition : Condition}
    (h : finding? c conditions m v = some (subject, condition)) :
    ∃ handle claim, v.IsEligible c handle ∧ v.IsBoundTo m claim ∧ subject = claim.subject := by
  unfold finding? at h
  split at h
  · cases h
  · rename_i handle hhandle
    split at h
    · cases h
    · split at h
      · cases h
      · rename_i claim hclaim
        cases h
        exact ⟨handle, claim, handleOf_eq_ok_iff.mp hhandle, claimOf_eq_ok_iff.mp hclaim, rfl⟩

/-- Volumes with claims of their own are reported on different subjects. -/
lemma OwnClaims.separate {c : Conduct} {m : Monitor} {volumes : List Volume}
    (h : OwnClaims c m volumes) (accepts : Notice → Except PublishError Unit)
    (conditions : Conditions) : Separate (reportsOf accepts c conditions m volumes) := by
  refine List.pairwise_filterMap.mpr (h.imp ?_)
  intro v v' hv r hr r' hr' uid hs hs'
  obtain ⟨x, hx, rfl⟩ := Option.map_eq_some_iff.mp hr
  obtain ⟨x', hx', rfl⟩ := Option.map_eq_some_iff.mp hr'
  obtain ⟨handle, claim, he, hb, hsubject⟩ := exists_claim_of_finding? hx
  obtain ⟨handle', claim', he', hb', hsubject'⟩ := exists_claim_of_finding? hx'
  have huid : uidOf claim = some uid := by
    rw [← hs]
    exact (congrArg Subject.uid hsubject).symm
  have huid' : uidOf claim' = some uid := by
    rw [← hs']
    exact (congrArg Subject.uid hsubject').symm
  exact hv handle handle' claim claim' uid he he' hb hb' huid huid'

namespace Report

/-- A report sends at most one event, about a subject that has a uid. -/
lemma attempts_cases (r : Report) (m : Monitor) : r.attempts m = [] ∨
    ∃ n uid, r.attempts m = [n] ∧ n.subject = r.subject ∧ r.subject.uid = some uid := by
  rcases r.nameless_or_alarms_or_calms with hs | ⟨uid, h | h⟩
  · exact Or.inl (attempts_nameless hs m)
  · exact Or.inr ⟨_, uid, attempts_of_alarms h m, rfl, h.1⟩
  · rw [attempts_of_calms h]
    split
    · exact Or.inr ⟨_, uid, rfl, rfl, h.1⟩
    · exact Or.inl rfl

/-- Reports on different subjects send at most one event about each of them. -/
lemma length_filter_attempts_le {rs : List Report} (h : Separate rs) (m : Monitor)
    (subject : Subject) : ((rs.flatMap fun r => r.attempts m).filter
      fun n => n.subject = subject).length ≤ 1 := by
  induction rs with
  | nil => simp
  | cons r rs ih =>
    have hrest := ih (List.pairwise_cons.mp h).2
    rw [List.flatMap_cons, List.filter_append, List.length_append]
    rcases r.attempts_cases m with hnone | ⟨n, uid, hone, hn, huid⟩
    · rw [hnone]
      simpa using hrest
    · by_cases hs : n.subject = subject
      · have hothers : (rs.flatMap fun r => r.attempts m).filter
            (fun n => n.subject = subject) = [] := by
          refine List.filter_eq_nil_iff.mpr fun n' hn' => ?_
          obtain ⟨r', hr', hmem⟩ := List.mem_flatMap.mp hn'
          rcases r'.attempts_cases m with hnone' | ⟨n'', uid', hone', hn'', huid'⟩
          · rw [hnone'] at hmem
            cases hmem
          · rw [hone', List.mem_singleton] at hmem
            have hne := (List.pairwise_cons.mp h).1 r' hr' uid huid
            intro he
            have hsubject : r'.subject = r.subject := by
              rw [← hn'', ← hmem, of_decide_eq_true he, ← hs, hn]
            exact hne (hsubject ▸ huid)
        rw [hone, hothers]
        simp [hs]
      · rw [hone]
        simpa [hs] using hrest

end Report

/-- Lists of at most one element that are permutations of each other are the same. -/
lemma eq_of_perm_of_length_le_one {α : Type} {xs ys : List α} (h : xs.Perm ys)
    (hxs : xs.length ≤ 1) : xs = ys := by
  rcases xs with _ | ⟨x, _ | ⟨x', xs⟩⟩
  · exact h.nil_eq
  · exact (List.singleton_perm.mp h)
  · simp at hxs

/-- The order of the volumes makes no difference to a sweep: when publishing depends on the event
only and no two eligible volumes are bound to claims with the same uid, every permutation of the
volumes leads to the same count, the same events for every subject, and the same index and marks,
whatever the driver lists. -/
theorem sweep_perm {w : Surroundings} {c : Conduct} {s : Scene} {volumes volumes' : List Volume}
    (hpublish : ∀ earlier earlier' n, w.publish earlier n = w.publish earlier' n)
    (hown : OwnClaims c s.monitor volumes) (hperm : volumes.Perm volumes') :
    SameButOrder s (w.run (sweep c volumes).run s) (w.run (sweep c volumes').run s) := by
  obtain ⟨accepts, hw⟩ : ∃ accepts, w.publish = fun _ n => accepts n :=
    ⟨w.publish [], funext fun earlier => funext fun n => hpublish earlier [] n⟩
  have hrun : ∀ vs, w.run (sweep c vs).run s =
      match Outcome.orError everyVolume c.timeout w.listing with
      | .error e => (.error e, s)
      | .ok conditions =>
        let x := makeAll (reportsOf accepts c conditions s.monitor vs) s
        (.ok x.1, x.2) := by
    intro vs
    rw [sweep, run_attempt_bind, run_lift, run_listing]
    dsimp only
    rw [run_attempt_bind, run_ofExcept]
    cases Outcome.orError everyVolume c.timeout w.listing with
    | error e => rfl
    | ok conditions =>
      dsimp only
      rw [run_lift, run_reportAll hw]
  rw [hrun, hrun]
  cases Outcome.orError everyVolume c.timeout w.listing with
  | error e => exact ⟨rfl, ⟨[], [], by simp⟩, rfl, fun _ => Iff.rfl, rfl, rfl⟩
  | ok conditions =>
    dsimp only
    have hreports : (reportsOf accepts c conditions s.monitor volumes).Perm
        (reportsOf accepts c conditions s.monitor volumes') := hperm.filterMap _
    have hseparate := hown.separate accepts conditions
    have hseparate' := (hown.perm hperm).separate accepts conditions
    generalize reportsOf accepts c conditions s.monitor volumes = rs at hreports hseparate ⊢
    generalize reportsOf accepts c conditions s.monitor volumes' = rs' at hreports hseparate' ⊢
    rw [makeAll_eq hseparate, makeAll_eq hseparate']
    have hsent : (rs.flatMap fun r => r.attempts s.monitor).Perm
        (rs'.flatMap fun r => r.attempts s.monitor) := hreports.flatMap_right _
    exact {
      result := congrArg Except.ok (hreports.countP_eq _)
      events := by
        refine ⟨_, _, rfl, rfl, hsent, fun subject => ?_⟩
        exact eq_of_perm_of_length_le_one (hsent.filter _)
          (length_filter_attempts_le hseparate s.monitor subject)
      entries := by rw [entries_leavesAll, entries_leavesAll]
      answered := by
        intro group
        rw [mem_answered_leavesAll_iff hseparate, mem_answered_leavesAll_iff hseparate']
        simp only [hreports.mem_iff]
      others := ⟨leavesAll_eq _ _, leavesAll_eq _ _⟩ }

end Check

/-! ## A sweep in two orders -/

namespace TwoOrders

open Happening

/-- How the controller works. -/
def conduct : Conduct := .usual "csi"

/-- A claim with a uid. -/
def claim (name volume : String) : Claim :=
  { MixedRound.claim name volume with
    identity := ⟨some name, none, some "default", some (name ++ "-uid"), none, false⟩ }

/-- An abnormal volume, two that have recovered, and one of another driver that refers to the claim
of the first. -/
def volumes : List Volume :=
  [MixedRound.volume "pv1" "h1" "pvc1", MixedRound.volume "pv2" "h2" "pvc2",
    MixedRound.volume "pv3" "h3" "pvc3",
    { MixedRound.volume "pv4" "h1" "pvc1" with source := some ⟨"other", "h1"⟩ }]

/-- The claims become known, and a warning about each of them. -/
def events : List (Happening Empty) :=
  ["pvc1", "pvc2", "pvc3"].flatMap fun name =>
    [.observed .claim (.apply (claim name "pv")),
      .observed .event (.apply (.about (name ++ ".warning") (name ++ "-uid") .warning
        .volumeAbnormal "1"))]

/-- The scene at the beginning; the warning about the first claim was answered before. -/
def start : Scene :=
  ⟨(leavesAll (.fresh conduct) events).settle "pvc1-uid", []⟩

/-- A driver that lists all volumes, and a cluster that takes no events about the third claim. -/
def surroundings : Surroundings where
  probe _ := .late
  listing := .answered (Table.ofList
    [("h1", ⟨true, "broken"⟩), ("h2", ⟨false, ""⟩), ("h3", ⟨false, ""⟩)])
  publish _ n := if n.subject.uid = some "pvc3-uid" then .error ⟨"refused"⟩ else .ok ()

/-- In both orders two volumes are reported on, the events are the same, and the marks are: that of
the first claim is gone, that of the second is new, and the third claim still waits. -/
theorem swept_in_two_orders :
    ((∀ earlier earlier' n, surroundings.publish earlier n = surroundings.publish earlier' n) ∧
      Check.OwnClaims conduct start.monitor volumes ∧ volumes.Perm volumes.reverse) ∧
    Check.SameButOrder start (surroundings.run (Check.sweep conduct volumes).run start)
      (surroundings.run (Check.sweep conduct volumes.reverse).run start) ∧
    (surroundings.run (Check.sweep conduct volumes).run start).1 = .ok 2 ∧
    (surroundings.run (Check.sweep conduct volumes.reverse).run start).2.sent =
      [Check.recovery (claim "pvc3" "pv").subject, Check.recovery (claim "pvc2" "pv").subject,
        Check.warning (claim "pvc1" "pv").subject "broken"] ∧
    (surroundings.run (Check.sweep conduct volumes.reverse).run start).2.monitor.warnings.answered =
      [WarningIndex.warningGroup "pvc2-uid" .volumeAbnormal] := by
  have hpublish : ∀ earlier earlier' n,
      surroundings.publish earlier n = surroundings.publish earlier' n := fun _ _ _ => rfl
  have hown : Check.OwnClaims conduct start.monitor volumes := by decide
  have hperm : volumes.Perm volumes.reverse := volumes.reverse_perm.symm
  exact ⟨⟨hpublish, hown, hperm⟩, Check.sweep_perm hpublish hown hperm, by decide, by decide,
    by decide⟩

end TwoOrders

end StorageHealth
