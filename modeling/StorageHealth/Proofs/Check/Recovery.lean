import StorageHealth.Proofs.Check.Memory

/-!
# When a recovery is published again

This file looks at runs in which any number of checks and rounds take turns with watch events.  Of
two recoveries about one subject the second one needs a reason, unless its check had looked before
the first one left its mark: `Run.recovers_again_iff_rearmed` says that the reasons are those of
`Happening.Rearmed`, and that each of them is enough.

An update counts as a moment without the updated event, so a warning that is merely delivered again
is answered again (`recovers_after_redelivery`).
-/

namespace StorageHealth

/-! ## Errands -/

/-- Runs an attempt for what it does; nobody waits for the result. -/
def Attempt.detached {ε α : Type} (x : Attempt ε α) : Process Unit := x.run.bind fun _ => .done ()

/-- Everything in which volumes are checked. -/
inductive Errand where
  | controller (v : Volume)
  | mount (v : Volume) (p : Pod)
  | sweep (volumes : List Volume)
  | volumeRound (now : Nat) (v : Volume)
  | podRound (p : Pod)

/-- What is done on an errand. -/
def Errand.process (c : Conduct) : Errand → Process Unit
  | controller v => (Check.controller c v).detached
  | mount v p => (Check.mount c v p).detached
  | sweep volumes => (Check.sweep c volumes).detached
  | volumeRound now v => (Volume.cycle c now v).detached
  | podRound p => (Pod.cycle c p).detached

lemma Attempt.orderly_detached {ε α : Type} {x : Attempt ε α} (h : x.Always Deed.Orderly) :
    x.detached.Always Deed.Orderly :=
  Deed.closed_orderly.bind h fun _ => Deed.closed_orderly.done _

lemma Errand.orderly_process (c : Conduct) (t : Errand) : (t.process c).Always Deed.Orderly := by
  cases t with
  | controller v => exact Attempt.orderly_detached (Check.orderly_controller c v)
  | mount v p => exact Attempt.orderly_detached (Check.orderly_mount c v p)
  | sweep volumes => exact Attempt.orderly_detached (Check.orderly_sweep c volumes)
  | volumeRound now v => exact Attempt.orderly_detached (Volume.orderly_cycle c now v)
  | podRound p => exact Attempt.orderly_detached (Pod.orderly_cycle c p)

/-! ## Where two recoveries stand -/

namespace Happening

variable {ι : Type}

/-- An event is a warning about the volumes of a subject. -/
def Warns (uid : String) (e : Event) : Prop :=
  e.subjectUid = some uid ∧ e.kind = some Severity.warning.label ∧
    e.reason = some Reason.volumeAbnormal.label

/-- A subject's next normal condition is a recovery when a warning is there that is not marked. -/
lemma awaits_iff {m : Monitor} {uid : String} :
    m.awaits uid = true ↔ m.warnings.contains uid .warning .volumeAbnormal = true ∧
      mark uid ∉ m.warnings.answered := by
  simp [Monitor.awaits, WarningIndex.needsRecovery, WarningIndex.contains, mark,
    WarningIndex.warningGroup]

variable [DecidableEq ι]

/-- The check that publishes second has looked before the check that publishes first has left its
mark: the first one does nothing up to some moment, the second one nothing after it. -/
def Overlapping (i j : ι) (mid : List (Happening ι)) : Prop :=
  i ≠ j ∧ ∃ before after, mid = before ++ after ∧ Idle i before ∧ Idle j after

end Happening

namespace Workplace

open Happening

variable {ι : Type} [DecidableEq ι]

/-- Orderly activities do orderly things, up to the point where they are. -/
lemma Run.orderly {s s' : Workplace ι} {hs : List (Happening ι)} (hrun : s.Run hs s')
    (hact : ∀ i, (s.activity i).Always Deed.Orderly) (i : ι) :
    ∃ rest, Deed.Orderly (own i hs ++ rest) := by
  obtain ⟨rest, a, hends⟩ := (hrun.does i).exists_ends
  exact ⟨rest, hact i _ a hends⟩

lemma Run.allTame {s s' : Workplace ι} {hs : List (Happening ι)} (hrun : s.Run hs s')
    (hact : ∀ i, (s.activity i).Always Deed.Orderly) : AllTame hs := by
  intro i d hd
  obtain ⟨rest, horderly⟩ := hrun.orderly hact i
  exact horderly.tame (List.mem_append_left rest (mem_own_of_mem hd))

/-- What an activity does next after it has published a recovery is to mark that. -/
lemma Run.settled_after {s s' : Workplace ι} {pre post : List (Happening ι)} {i : ι} {r : Deed}
    {uid : String} (hrun : s.Run (pre ++ .did i r :: post) s')
    (hact : ∀ i, (s.activity i).Always Deed.Orderly) (hr : r.Recovers uid) :
    ∃ rest x later, own i post ++ rest = Deed.settled uid x :: later ∧ Deed.Orderly later := by
  obtain ⟨rest, horderly⟩ := hrun.orderly hact i
  rw [own_append, own_cons_did_self, List.append_assoc, List.cons_append] at horderly
  obtain ⟨_, _, x, later, -, -, hafter, hlater⟩ := horderly.around_recovery hr
  exact ⟨rest, x, later, hafter, hlater⟩

/-- What an activity has done last before it publishes a recovery is to look whether one is
awaited. -/
lemma Run.looked_before {s s' : Workplace ι} {pre post : List (Happening ι)} {i : ι} {r : Deed}
    {uid : String} (hrun : s.Run (pre ++ .did i r :: post) s')
    (hact : ∀ i, (s.activity i).Always Deed.Orderly) (hr : r.Recovers uid) :
    ∃ earlier y, own i pre = earlier ++ [Deed.looked y] ∧ y.awaits uid = true := by
  obtain ⟨rest, horderly⟩ := hrun.orderly hact i
  rw [own_append, own_cons_did_self, List.append_assoc, List.cons_append] at horderly
  obtain ⟨earlier, y, _, _, hbefore, hy, -, -⟩ := horderly.around_recovery hr
  exact ⟨earlier, y, hbefore, hy⟩

/-- Between two recoveries about a subject, the first check leaves its mark and the second one looks
after that, unless the checks overlap. -/
lemma Run.settled_then_looked {s s' : Workplace ι} {pre mid post : List (Happening ι)} {i j : ι}
    {r₁ r₂ : Deed} {uid : String}
    (hrun : s.Run (pre ++ .did i r₁ :: mid ++ .did j r₂ :: post) s')
    (hact : ∀ i, (s.activity i).Always Deed.Orderly) (h₁ : r₁.Recovers uid) (h₂ : r₂.Recovers uid) :
    Overlapping i j mid ∨ ∃ before x between y after, mid = before ++
      .did i (Deed.settled uid x) :: between ++ .did j (Deed.looked y) :: after ∧
      y.awaits uid = true := by
  obtain ⟨earlier, y, hlook, hy⟩ := hrun.looked_before hact h₂
  rw [List.append_assoc, List.cons_append] at hrun
  obtain ⟨rest₁, x, later, hmark, hlater⟩ := hrun.settled_after hact h₁
  rw [own_append] at hmark
  cases hmid : own i mid with
  | nil =>
    rw [hmid, List.nil_append] at hmark
    by_cases hij : i = j
    · subst hij
      rw [own_cons_did_self, List.cons_append] at hmark
      rw [(List.cons.inj hmark).1] at h₂
      exact absurd h₂ (Deed.not_recovers_update _ _)
    · exact Or.inl ⟨hij, mid, [], by rw [List.append_nil], hmid, rfl⟩
  | cons d ds =>
    rw [hmid, List.cons_append, List.cons_append] at hmark
    obtain ⟨rfl, rfl⟩ := List.cons.inj hmark
    obtain ⟨before, rest, rfl, hidle, hds⟩ := exists_first hmid
    rcases List.eq_nil_or_concat (own j rest) with hrest | ⟨own', last, hrest⟩
    · by_cases hij : i = j
      · -- A check that recovers twice must have looked again.
        subst hij
        rw [← hds, hrest, List.nil_append, own_cons_did_self] at hlater
        have hfirst : Deed.Orderly ([] ++ r₂ :: (own i post ++ rest₁)) := hlater
        obtain ⟨_, _, _, _, hnil, -⟩ := hfirst.around_recovery h₂
        simp at hnil
      · refine Or.inl ⟨hij, before, _, rfl, hidle, ?_⟩
        rw [Idle, own_cons_did_of_ne hij, hrest]
    · right
      have hsplit : pre ++ .did i r₁ :: (before ++ .did i (Deed.settled uid x) :: rest) =
          (pre ++ .did i r₁ :: before ++ [.did i (Deed.settled uid x)]) ++ rest := by simp
      rw [hsplit, own_append, hrest, List.concat_eq_append, ← List.append_assoc] at hlook
      have hlast : last = Deed.looked y := List.singleton_inj.mp (List.append_inj' hlook rfl).2
      subst hlast
      obtain ⟨between, after, rfl, -, -⟩ := exists_last (hrest.trans List.concat_eq_append)
      exact ⟨before, x, between, y, after, by simp, hy⟩

/-- A mark is made while a warning is there, and hangs on it then. -/
lemma tied_settled {m : Monitor} {uid : String}
    (hm : m.warnings.contains uid .warning .volumeAbnormal = true) :
    mark uid ∈ (m.settle uid).warnings.answered ∧ (m.settle uid).warnings.Tied (mark uid) := by
  have hgroup : m.warnings.hasGroup (mark uid) = true := hm
  refine ⟨WarningIndex.mem_answered_markRecovered.mpr (Or.inl ⟨rfl, hgroup⟩), fun _ => ?_⟩
  rw [Monitor.settle, WarningIndex.hasGroup_markRecovered]
  exact hgroup

/-- What the monitor remembers after a mark was made. -/
lemma Run.leavesAll_settled {s s' : Workplace ι} {pre post : List (Happening ι)} {i : ι}
    {uid : String} {x : Monitor}
    (hrun : s.Run (pre ++ .did i (Deed.settled uid x) :: post) s') :
    leavesAll s.monitor (pre ++ [.did i (Deed.settled uid x)]) = x.settle uid := by
  have hx : x = leavesAll s.monitor pre := hrun.answer_eq
  rw [leavesAll_append, ← hx]
  rfl

/-- After a mark that is not made anew, a subject's normal condition is a recovery exactly when a
warning is there and the mark was taken away. -/
lemma Run.awaits_iff_rearmed {s s' : Workplace ι} {pre mid post : List (Happening ι)} {i : ι}
    {uid : String} {x : Monitor}
    (hrun : s.Run (pre ++ .did i (Deed.settled uid x) :: mid ++ post) s')
    (hact : ∀ i, (s.activity i).Always Deed.Orderly)
    (hx : x.warnings.contains uid .warning .volumeAbnormal = true)
    (hmid : ∀ j y, .did j (Deed.settled uid y) ∉ mid) :
    (leavesAll s.monitor (pre ++ .did i (Deed.settled uid x) :: mid)).awaits uid = true ↔
      (leavesAll s.monitor (pre ++ .did i (Deed.settled uid x) :: mid)).warnings.contains uid
        .warning .volumeAbnormal = true ∧ Rearmed uid (x.settle uid) mid := by
  have htame : AllTame mid := fun j d hd => hrun.allTame hact j d (by simp [hd])
  rw [List.append_assoc, List.cons_append] at hrun
  have hsplit : pre ++ .did i (Deed.settled uid x) :: mid =
      (pre ++ [.did i (Deed.settled uid x)]) ++ mid := by simp
  obtain ⟨hmark, htied⟩ := tied_settled hx
  rw [awaits_iff, hsplit, leavesAll_append, hrun.leavesAll_settled,
    answered_leavesAll_iff htame htied hmid]
  simp [hmark]

/-- When a mark was made and the subject counts as unanswered again, the mark had no warning to hang
on, or there was a reason to forget it. -/
lemma Run.rearmed_of_settled {s s' : Workplace ι} {pre between post : List (Happening ι)} {i j : ι}
    {uid : String} {x y : Monitor}
    (hrun : s.Run (pre ++ .did i (Deed.settled uid x) :: between ++ .did j (Deed.looked y) :: post)
      s')
    (hact : ∀ i, (s.activity i).Always Deed.Orderly) (hy : y.awaits uid = true)
    (hx : x.warnings.contains uid .warning .volumeAbnormal = true) :
    Rearmed uid (x.settle uid) between := by
  by_contra hnot
  have hlooked : y = leavesAll s.monitor (pre ++ .did i (Deed.settled uid x) :: between) :=
    hrun.answer_eq
  have htame : AllTame between := fun k d hd => hrun.allTame hact k d (by simp [hd])
  have hsplit : pre ++ .did i (Deed.settled uid x) :: between =
      (pre ++ [.did i (Deed.settled uid x)]) ++ between := by simp
  rw [List.append_assoc, List.cons_append] at hrun
  rw [hsplit, leavesAll_append, hrun.leavesAll_settled] at hlooked
  obtain ⟨hmark, htied⟩ := tied_settled hx
  have hkept := answered_of_not_rearmed htame htied hmark hnot
  rw [← hlooked] at hkept
  exact (awaits_iff.mp hy).2 hkept

/-- Two recoveries about a subject have a reason for the second one between them, unless the checks
overlap. -/
lemma Run.rearmed_or_overlapping {s s' : Workplace ι} {pre mid post : List (Happening ι)} {i j : ι}
    {r₁ r₂ : Deed} {uid : String}
    (hrun : s.Run (pre ++ .did i r₁ :: mid ++ .did j r₂ :: post) s')
    (hact : ∀ i, (s.activity i).Always Deed.Orderly) (h₁ : r₁.Recovers uid) (h₂ : r₂.Recovers uid) :
    Rearmed uid (leavesAll s.monitor (pre ++ [.did i r₁])) mid ∨ Overlapping i j mid := by
  rcases hrun.settled_then_looked hact h₁ h₂ with hover | ⟨before, x, between, y, after, rfl, hy⟩
  · exact Or.inr hover
  left
  set start := leavesAll s.monitor (pre ++ [.did i r₁]) with hstart
  have hrun' : s.Run ((pre ++ [.did i r₁] ++ before) ++ .did i (Deed.settled uid x) :: between ++
      .did j (Deed.looked y) :: (after ++ .did j r₂ :: post)) s' := by
    simpa using hrun
  have hsettled : s.Run ((pre ++ [.did i r₁] ++ before) ++ .did i (Deed.settled uid x) ::
      (between ++ .did j (Deed.looked y) :: (after ++ .did j r₂ :: post))) s' := by
    simpa using hrun
  by_cases hx : x.warnings.contains uid .warning .volumeAbnormal = true
  · have hbetween := hrun'.rearmed_of_settled hact hy hx
    rw [← hsettled.leavesAll_settled, List.append_assoc, leavesAll_append, ← hstart] at hbetween
    have hall := hbetween.append_right.append_left (.did j (Deed.looked y) :: after)
    simpa using hall
  · -- The mark was made at a moment without a warning.
    refine Or.inr ⟨x.warnings, ?_, Bool.eq_false_iff.mpr hx⟩
    have hmoment : x = leavesAll start before := by
      rw [hstart, ← leavesAll_append]
      exact hsettled.answer_eq
    rw [List.append_assoc]
    refine indices_subset_append_right start before _ ?_
    rw [← hmoment]
    exact start_mem_indices x _

/-- Between plain watch events the index has a warning about a subject exactly when one is
cached. -/
lemma Run.contains_iff_exists_warning {s s' : Workplace ι} {pre post : List (Happening ι)}
    (hrun : s.Run (pre ++ post) s') (hact : ∀ i, (s.activity i).Always Deed.Orderly)
    (hstep : s.monitor.EventsInStep) (hplain : PlainEvents (pre ++ post)) {uid : String}
    (hne : uid ≠ "") (hcolon : ':' ∉ uid.toList) :
    (leavesAll s.monitor pre).warnings.contains uid .warning .volumeAbnormal = true ↔
      ∃ e ∈ ((leavesAll s.monitor pre).cached .event).objects, Warns uid e := by
  have htame : AllTame pre := fun i d hd => hrun.allTame hact i d (List.mem_append_left post hd)
  have hpre : PlainEvents pre := fun e he => hplain e (List.mem_append_left post he)
  exact WarningIndex.contains_iff_of_inStep (eventsInStep_leavesAll hstep htame hpre) hne hcolon
    .warning .volumeAbnormal

/-- A recovery about a subject is published again only after a report of an abnormal condition or a
moment without a warning, unless two checks overlap.  Once a recovery has left its mark, the next
normal condition counts as a recovery exactly when a warning is there and one of the two happened.
Between two happenings, a moment without a warning is one of the cache itself. -/
theorem Run.recovers_again_iff_rearmed (c : Conduct) (errand : ι → Errand) {s s' : Workplace ι}
    (herrand : ∀ i, s.activity i = (errand i).process c) {hs : List (Happening ι)}
    (hrun : s.Run hs s') (uid : String) :
    (∀ pre mid post i j r₁ r₂, hs = pre ++ .did i r₁ :: mid ++ .did j r₂ :: post →
      r₁.Recovers uid → r₂.Recovers uid →
      Rearmed uid (leavesAll s.monitor (pre ++ [.did i r₁])) mid ∨ Overlapping i j mid) ∧
    (∀ pre mid post i x, hs = pre ++ .did i (Deed.settled uid x) :: mid ++ post →
      x.warnings.contains uid .warning .volumeAbnormal = true →
      (∀ j y, .did j (Deed.settled uid y) ∉ mid) →
      ((leavesAll s.monitor (pre ++ .did i (Deed.settled uid x) :: mid)).awaits uid = true ↔
        (leavesAll s.monitor (pre ++ .did i (Deed.settled uid x) :: mid)).warnings.contains uid
          .warning .volumeAbnormal = true ∧ Rearmed uid (x.settle uid) mid)) ∧
    (s.monitor.EventsInStep → PlainEvents hs → uid ≠ "" → ':' ∉ uid.toList →
      ∀ pre post, hs = pre ++ post →
      ((leavesAll s.monitor pre).warnings.contains uid .warning .volumeAbnormal = true ↔
        ∃ e ∈ ((leavesAll s.monitor pre).cached .event).objects, Warns uid e)) := by
  have horderly : ∀ i, (s.activity i).Always Deed.Orderly := fun i => by
    rw [herrand i]
    exact (errand i).orderly_process c
  refine ⟨?_, ?_, ?_⟩
  · rintro pre mid post i j r₁ r₂ rfl h₁ h₂
    exact hrun.rearmed_or_overlapping horderly h₁ h₂
  · rintro pre mid post i x rfl hx hmid
    exact hrun.awaits_iff_rearmed horderly hx hmid
  · rintro hstep hplain hne hcolon pre post rfl
    exact hrun.contains_iff_exists_warning horderly hstep hplain hne hcolon

end Workplace

/-! ## A warning that is delivered twice -/

namespace Redelivery

open Happening Workplace

/-- A volume of the driver that is bound to a claim. -/
def volume : Volume :=
  ⟨⟨some "pv1", none, none, none, none, false⟩, some ⟨"csi", "h1"⟩,
    some ⟨some "default", some "pvc1"⟩, none, some "Bound"⟩

/-- The claim of the volume. -/
def claim : Claim :=
  ⟨⟨some "pvc1", none, some "default", some "uid-1", none, false⟩, some "pv1", some "Bound"⟩

/-- A warning about the claim. -/
def warning : Event := .about "pvc1.warning" "uid-1" .warning .volumeAbnormal "1"

/-- A fresh monitor, and two checks of the volume. -/
def start : Workplace Bool :=
  ⟨.fresh (.usual "csi"), fun _ => (Errand.controller volume).process (.usual "csi")⟩

/-- The claim and the warning become known. -/
def known : Monitor :=
  ((start.monitor.observe .claim (.apply claim)).1.observe .event (.apply warning)).1

/-- A recovery about the claim is published. -/
def recovery : Deed := .sent (Check.recovery claim.subject) (.ok ())

/-- What a check does until its recovery is published, if it begins when `m` is remembered. -/
def beforeRecovery (i : Bool) (m : Monitor) : List (Happening Bool) :=
  [.did i (.looked m), .did i ⟨.probe (.controller "h1") (.ofSeconds 15), .answered ⟨false, ""⟩⟩,
    .did i (.looked m)]

/-- The beginning, until the first recovery is published. -/
def before : List (Happening Bool) :=
  [.observed .claim (.apply claim), .observed .event (.apply warning)] ++ beforeRecovery false known

/-- The monitor when the warning was answered and delivered again. -/
def again : Monitor := ((known.settle "uid-1").observe .event (.apply warning)).1

/-- What happens between the two recoveries. -/
def between : List (Happening Bool) :=
  .did false (.settled "uid-1" known) :: .observed .event (.apply warning) ::
    beforeRecovery true again

lemma exists_run :
    ∃ s', start.Run (before ++ .did false recovery :: between ++ .did true recovery :: []) s' := by
  refine exists_run_cons (Step.observe _ _ _) ?_
  refine exists_run_cons (Step.observe _ _ _) ?_
  refine exists_run_cons (Step.perform false rfl _ rfl) ?_
  refine exists_run_cons (Step.perform false rfl _ trivial) ?_
  refine exists_run_cons (Step.perform false rfl _ rfl) ?_
  refine exists_run_cons (Step.perform false rfl _ trivial) ?_
  refine exists_run_cons (Step.perform false rfl _ rfl) ?_
  refine exists_run_cons (Step.observe _ _ _) ?_
  refine exists_run_cons (Step.perform true rfl _ rfl) ?_
  refine exists_run_cons (Step.perform true rfl _ trivial) ?_
  refine exists_run_cons (Step.perform true rfl _ rfl) ?_
  refine exists_run_cons (Step.perform true rfl _ trivial) ?_
  exact ⟨_, Run.nothing _⟩

lemma recovery_recovers : recovery.Recovers "uid-1" :=
  ⟨Check.recovery claim.subject, rfl, rfl, rfl, rfl⟩

/-- The second check looks long after the first one has left its mark. -/
lemma not_overlapping : ¬ Overlapping false true between := by
  rintro ⟨-, _ | ⟨h, first⟩, rest, hsplit, hfirst, hrest⟩
  · rw [List.nil_append] at hsplit
    rw [← hsplit] at hrest
    cases hrest
  · obtain ⟨rfl, -⟩ := List.cons.inj hsplit
    rw [Idle, own_cons_did_self] at hfirst
    cases hfirst

/-- The warning that is delivered again gives the reason for a second recovery. -/
theorem rearmed_between :
    (∀ i, start.activity i = (Errand.controller volume).process (.usual "csi")) ∧
    (∃ s', start.Run (before ++ .did false recovery :: between ++ .did true recovery :: []) s') ∧
    Rearmed "uid-1" (leavesAll start.monitor (before ++ [.did false recovery])) between := by
  obtain ⟨s', hrun⟩ := exists_run
  refine ⟨fun _ => rfl, ⟨s', hrun⟩, ?_⟩
  have hreason := (hrun.recovers_again_iff_rearmed (.usual "csi") (fun _ => .controller volume)
    (fun _ => rfl) "uid-1").1 before between [] false true recovery recovery rfl recovery_recovers
    recovery_recovers
  exact hreason.resolve_right not_overlapping

/-- All the time between the two recoveries the warning is cached. -/
lemma warning_cached (n : Nat) : warning ∈ ((leavesAll start.monitor
    (before ++ .did false recovery :: between.take n)).cached .event).objects := by
  rcases n with _ | _ | _ | _ | _ | n
  · decide
  · decide
  · decide
  · decide
  · decide
  · rw [List.take_of_length_le (by simp [between, beforeRecovery])]
    decide

/-- Nothing abnormal is reported between the two recoveries. -/
lemma not_rearmed (i : Bool) (x : Monitor) : .did i (Deed.rearmed "uid-1" x) ∉ between := by
  intro hx
  have hkept : ∀ i, ∀ d ∈ own i between,
      mark "uid-1" ∈ (leaves (known.settle "uid-1") (.did i d)).warnings.answered := by
    decide
  exact ne_rearmed_of_answered (hkept i _ (mem_own_of_mem hx)) x rfl

/-- A subject can recover twice with nothing abnormal reported in between and its warning cached all
the time. -/
theorem recovers_after_redelivery : ¬ ∀ (c : Conduct) (errand : Bool → Errand)
    (s s' : Workplace Bool) (pre mid post : List (Happening Bool)) (i j : Bool) (r₁ r₂ : Deed)
    (uid : String),
    (∀ k, s.activity k = (errand k).process c) →
    s.Run (pre ++ .did i r₁ :: mid ++ .did j r₂ :: post) s' → r₁.Recovers uid → r₂.Recovers uid →
    (∃ k x, .did k (Deed.rearmed uid x) ∈ mid) ∨ ∃ n, ∀ e ∈ ((leavesAll s.monitor
      (pre ++ .did i r₁ :: mid.take n)).cached .event).objects, ¬ Warns uid e := by
  intro hclaim
  obtain ⟨s', hrun⟩ := exists_run
  rcases hclaim (.usual "csi") (fun _ => .controller volume) start s' before between [] false true
    recovery recovery "uid-1" (fun _ => rfl) hrun recovery_recovers recovery_recovers with
    ⟨i, x, hx⟩ | ⟨n, hn⟩
  · exact not_rearmed i x hx
  · exact hn warning (warning_cached n) ⟨rfl, rfl, rfl⟩

end Redelivery

end StorageHealth
