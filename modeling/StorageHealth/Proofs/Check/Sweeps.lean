import Mathlib.Data.List.Forall2
import StorageHealth.Proofs.Check.Eligibility

/-!
# What a sweep does

A sweep lists all conditions once, and then every volume has its `Part`, in the order in which the
volumes are given (`ends_sweepCached`).  In its part a volume is told about when `Tells` holds: it
is eligible and listed, its claim is known and has a uid, and the condition is abnormal or the
recovery from a warning.  No volume is asked about by itself.
-/

namespace StorageHealth

namespace Check

open Deed

/-- What is done about one volume in a sweep that listed these conditions. -/
def Part (c : Conduct) (conditions : Conditions) (v : Volume) (own : List Deed) : Prop :=
  ∃ reported, (reportListed c conditions v).Ends own reported

/-- A sweep has something to tell about a volume: the volume is eligible and listed, its claim is
known and has a uid, and the condition is abnormal or a warning waits to be answered. -/
def Tells (c : Conduct) (conditions : Conditions) (v : Volume) (own : List Deed) : Prop :=
  ∃ handle condition m claim uid rest, v.IsEligible c handle ∧
    Table.get? conditions handle = some condition ∧ own = looked m :: rest ∧ v.IsBoundTo m claim ∧
    uidOf claim = some uid ∧
    (condition.abnormal = true ∨ ∃ m' rest', rest = looked m' :: rest' ∧ m'.awaits uid = true)

/-- A report sends a notice when its subject has a uid and the condition is abnormal or a warning
waits to be answered. -/
lemma Reported.sends_iff {s : Subject} {condition : Condition} {ds : List Deed}
    {r : Except CheckError Unit} (h : Reported s condition ds r) :
    (∃ n, n ∈ notices ds) ↔ ∃ uid, s.uid = some uid ∧
      (condition.abnormal = true ∨ ∃ m rest, ds = looked m :: rest ∧ m.awaits uid = true) := by
  cases h with
  | nameless hs => simp [hs]
  | @warned uid hs ha m outcome =>
    exact iff_of_true ⟨warning s condition.message, by simp [rearmed, sent]⟩
      ⟨uid, hs, Or.inl ha⟩
  | @quiet uid hs ha m hm =>
    refine iff_of_false (by simp [looked]) ?_
    rintro ⟨uid', hs', habnormal | ⟨m', rest, hlooked, hm'⟩⟩
    · rw [ha] at habnormal
      cases habnormal
    · cases hlooked
      rw [Option.some.inj (hs'.symm.trans hs), hm] at hm'
      cases hm'
  | @refused uid hs _ m hm e =>
    exact iff_of_true ⟨recovery s, by simp [looked, sent]⟩ ⟨uid, hs, Or.inr ⟨m, _, rfl, hm⟩⟩
  | @recovered uid hs _ m hm m' =>
    exact iff_of_true ⟨recovery s, by simp [looked, sent]⟩ ⟨uid, hs, Or.inr ⟨m, _, rfl, hm⟩⟩

/-- A volume that is not eligible or not listed is skipped; otherwise its claim is looked up, and
the condition is reported on the claim if that is known. -/
lemma Part.cases {c : Conduct} {conditions : Conditions} {v : Volume} {own : List Deed}
    (h : Part c conditions v own) :
    (own = [] ∧ ∀ handle condition, v.IsEligible c handle →
      Table.get? conditions handle ≠ some condition) ∨
    ∃ handle condition m, v.IsEligible c handle ∧ Table.get? conditions handle = some condition ∧
      ((own = [looked m] ∧ ∀ claim, ¬ v.IsBoundTo m claim) ∨
        ∃ claim ds r, v.IsBoundTo m claim ∧ own = looked m :: ds ∧
          Reported claim.subject condition ds r) := by
  obtain ⟨reported, h⟩ := h
  unfold reportListed at h
  split at h
  · rename_i e herror
    refine Or.inl ⟨(Process.ends_done_iff.mp h).1, fun handle condition heligible _ => ?_⟩
    cases herror.symm.trans (handleOf_eq_ok_iff.mpr heligible)
  · rename_i handle hok
    have heligible : v.IsEligible c handle := handleOf_eq_ok_iff.mp hok
    split at h
    · rename_i hnone
      refine Or.inl ⟨(Process.ends_done_iff.mp h).1, fun handle' condition heligible' hlisted => ?_⟩
      rw [heligible.handle_eq heligible', hlisted] at hnone
      cases hnone
    · rename_i condition hlisted
      obtain ⟨first, m, rest, rfl, hfirst, hrest⟩ := Process.ends_bind_iff.mp h
      rw [Process.ends_look_iff.mp hfirst, List.singleton_append]
      refine Or.inr ⟨handle, condition, m, heligible, hlisted, ?_⟩
      split at hrest
      · rename_i e herror
        refine Or.inl ⟨by rw [(Process.ends_done_iff.mp hrest).1], fun claim hbound => ?_⟩
        cases herror.symm.trans (claimOf_eq_ok_iff.mpr hbound)
      · rename_i claim hok
        obtain ⟨ds, r, last, rfl, hreport, hlast⟩ := Process.ends_bind_iff.mp hrest
        rw [(Process.ends_done_iff.mp hlast).1, List.append_nil]
        exact Or.inr ⟨claim, ds, r, claimOf_eq_ok_iff.mp hok, rfl, reported_of_ends hreport⟩

/-- About a single volume a sweep asks nothing. -/
lemma Part.inquiries_eq {c : Conduct} {conditions : Conditions} {v : Volume} {own : List Deed}
    (h : Part c conditions v own) : inquiries own = [] := by
  rcases h.cases with ⟨rfl, -⟩ | ⟨_, _, m, -, -, ⟨rfl, -⟩ | ⟨claim, ds, r, -, rfl, hreport⟩⟩
  · rfl
  · rfl
  · exact hreport.traffic.1

/-- A notice is sent because of a volume when there is something to tell about it. -/
lemma Part.sends_iff {c : Conduct} {conditions : Conditions} {v : Volume} {own : List Deed}
    (h : Part c conditions v own) : (∃ n, n ∈ notices own) ↔ Tells c conditions v own := by
  rcases h.cases with ⟨rfl, hnone⟩ | ⟨handle, condition, m, heligible, hlisted, hpart⟩
  · refine iff_of_false (by simp) ?_
    rintro ⟨handle, condition, _, _, _, _, heligible, hlisted, -⟩
    exact hnone handle condition heligible hlisted
  · have hunique : ∀ handle' condition', v.IsEligible c handle' →
        Table.get? conditions handle' = some condition' → condition' = condition := by
      intro handle' condition' heligible' hlisted'
      rw [heligible'.handle_eq heligible, hlisted] at hlisted'
      exact (Option.some.inj hlisted').symm
    rcases hpart with ⟨rfl, hunknown⟩ | ⟨claim, ds, r, hbound, rfl, hreport⟩
    · refine iff_of_false (by simp [looked]) ?_
      rintro ⟨_, _, m', claim, _, _, -, -, hown, hbound, -⟩
      cases hown
      exact hunknown claim hbound
    · have hsame : notices (looked m :: ds) = notices ds := rfl
      rw [hsame, hreport.sends_iff]
      constructor
      · rintro ⟨uid, huid, hwhy⟩
        exact ⟨handle, condition, m, claim, uid, ds, heligible, hlisted, rfl, hbound, huid, hwhy⟩
      · rintro ⟨handle', condition', m', claim', uid, rest, heligible', hlisted', hown, hbound',
          huid, hwhy⟩
        cases hown
        obtain rfl := hunique handle' condition' heligible' hlisted'
        rw [hbound.claim_eq hbound'] at huid
        exact ⟨uid, huid, hwhy⟩

/-- Reporting on several volumes falls into the parts of the volumes. -/
lemma exists_parts {c : Conduct} {conditions : Conditions} {volumes : List Volume} {ds : List Deed}
    {n : Nat} (h : (reportAll c conditions volumes).Ends ds n) :
    ∃ parts : List (List Deed), ds = parts.flatten ∧
      List.Forall₂ (Part c conditions) volumes parts := by
  induction volumes generalizing ds n with
  | nil => exact ⟨[], (Process.ends_done_iff.mp h).1, List.Forall₂.nil⟩
  | cons v rest ih =>
    obtain ⟨own, reported, later, rfl, hown, hlater⟩ := Process.ends_bind_iff.mp h
    obtain ⟨others, k, last, rfl, hothers, hlast⟩ := Process.ends_bind_iff.mp hlater
    obtain ⟨parts, rfl, hparts⟩ := ih hothers
    refine ⟨own :: parts, ?_, List.Forall₂.cons ⟨reported, hown⟩ hparts⟩
    rw [(Process.ends_done_iff.mp hlast).1, List.append_nil, List.flatten_cons]

/-- A sweep over the cached volumes lists all conditions, once.  If that fails nothing else is done,
otherwise every volume has its part. -/
lemma ends_sweepCached {c : Conduct} {ds : List Deed} {r : Except CheckError Nat}
    (h : (sweepCached c).Ends ds r) : ∃ m outcome rest,
      ds = looked m :: ⟨.listing c.timeout, outcome⟩ :: rest ∧
      ((rest = [] ∧ ∀ conditions, outcome ≠ .answered conditions) ∨
        ∃ conditions parts, outcome = .answered conditions ∧ rest = List.flatten parts ∧
          List.Forall₂ (Part c conditions) (m.cached .volume).objects parts) := by
  obtain ⟨m, swept, rfl, hswept⟩ := Attempt.ends_look_bind_iff.mp h
  obtain ⟨listed, outcome, rest, rfl, hlisted, hrest⟩ := Attempt.ends_lift_bind_iff.mp hswept
  rw [Process.ends_perform_iff.mp hlisted, List.singleton_append]
  refine ⟨m, outcome, rest, rfl, ?_⟩
  rcases Attempt.ends_bind_iff.mp hrest with
    ⟨first, conditions, later, rfl, hfirst, hlater⟩ | ⟨e, rfl, hfirst⟩
  · obtain ⟨rfl, hok⟩ := Attempt.ends_ofExcept_iff.mp hfirst
    obtain ⟨n, -, hreported⟩ := Attempt.ends_lift_iff.mp hlater
    obtain ⟨parts, rfl, hparts⟩ := exists_parts hreported
    cases outcome with
    | late => cases hok
    | failed cause => cases hok
    | answered listed =>
      cases hok
      exact Or.inr ⟨conditions, parts, rfl, rfl, hparts⟩
  · obtain ⟨rfl, herror⟩ := Attempt.ends_ofExcept_iff.mp hfirst
    refine Or.inl ⟨rfl, ?_⟩
    rintro conditions rfl
    cases herror

end Check

end StorageHealth
