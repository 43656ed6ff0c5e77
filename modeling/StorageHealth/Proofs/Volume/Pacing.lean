import StorageHealth.Proofs.Volume.Turns

/-!
# How often volumes are checked

However often a volume is triggered, its checks are an interval apart; and whenever it is looked
after, it is told when to come back, at which time it is checked.  `Paced` makes this precise for
the turns that volumes take, and `Turns.paced` proves it for all of them, whatever becomes of the
checks.

What a single turn does to a slot carries over to all slots at all times: to every slot there is
(`Turns.forall_slot`), and to a slot as long as its volume is not given up (`Turns.exists_slot`).
-/

namespace StorageHealth

namespace Volume

/-- The clock does not run backwards. -/
def InOrder (ts : List Turn) : Prop :=
  ts.Pairwise fun a b => ∀ now ∈ a.time?, ∀ later ∈ b.time?, now ≤ later

/-! ## Pacing -/

/-- Checks are paced: `spaced` says that they are not too frequent, `answered` that they do not
cease, and `fresh` that a volume which comes anew is checked at once. -/
structure Paced (c : Conduct) (ts : List Turn) : Prop where
  /-- Two checks of a volume are an interval apart, if it was neither dropped nor replaced in
  between. -/
  spaced : ∀ {before between later : List Turn} {first second : Turn} {t₁ t₂ : Nat}
    {v₁ v₂ : Volume}, ts = before ++ first :: (between ++ second :: later) → first.Claims c t₁ v₁ →
    second.Claims c t₂ v₂ → nameOf v₂ = nameOf v₁ → uidOf v₂ = uidOf v₁ →
    (∀ t ∈ between, ¬ t.Drops c (nameOf v₁) ∧ ¬ t.Replaces (nameOf v₁) (uidOf v₁)) →
    t₁ + c.monitorInterval.nanos ≤ t₂
  /-- A visit to a volume that is to be monitored is answered with a delay: the interval if the
  volume is checked, and otherwise some time that is not longer.  A visit after exactly that time
  checks the volume, unless a volume of this name was checked in between. -/
  answered : ∀ {before later : List Turn} {now : Nat} {v : Volume} {seen : Slots}
    {answer : Schedule}, ts = before ++ .visited now v seen answer :: later →
    v.isMonitored c = true →
    ∃ delay : Span, answer = .after delay ∧
      ((Turn.visited now v seen answer).Claims c now v → delay = c.monitorInterval) ∧
      (¬ (Turn.visited now v seen answer).Claims c now v →
        0 < delay.nanos ∧ delay.nanos ≤ c.monitorInterval.nanos) ∧
      ∀ {between rest : List Turn} {again : Volume} {seen' : Slots} {answer' : Schedule},
        later = between ++ .visited (now + delay.nanos) again seen' answer' :: rest →
        nameOf again = nameOf v → uidOf again = uidOf v → again.isMonitored c = true →
        (∀ t ∈ between, ∀ t' v', nameOf v' = nameOf v → ¬ t.Claims c t' v') →
        (Turn.visited (now + delay.nanos) again seen' answer').Claims c (now + delay.nanos) again
  /-- After a volume was dropped, gone or looked after under another uid, the next visit to one that
  is to be monitored checks it. -/
  fresh : ∀ {before between later : List Turn} {first : Turn} {now : Nat} {v : Volume}
    {seen : Slots} {answer : Schedule},
    ts = before ++ first :: (between ++ .visited now v seen answer :: later) →
    first.Drops c (nameOf v) ∨ first.Replaces (nameOf v) (uidOf v) →
    (∀ t ∈ between, ¬ t.Monitors c (nameOf v)) → v.isMonitored c = true →
    (Turn.visited now v seen answer).Claims c now v

namespace Turns

variable {c : Conduct} {s s' : Slots} {ts : List Turn}

/-- What holds for a slot at first, and for every slot that is taken, holds for it later. -/
lemma forall_slot (h : Turns c s ts s') {name : String} {P : Slot → Prop}
    (hclaims : ∀ t ∈ ts, ∀ now v, t.Claims c now v → nameOf v = name →
      P ⟨uidOf v, now + c.monitorInterval.nanos⟩)
    (hs : ∀ slot, Table.get? s name = some slot → P slot) :
    ∀ slot, Table.get? s' name = some slot → P slot := by
  refine Path.keeps (P := fun s => ∀ slot, Table.get? s name = some slot → P slot) h ?_ hs
  intro s t ht s' hstep hs slot hslot
  rcases hstep.slot_eq hslot with hslot | ⟨now, v, hclaim, hname, rfl⟩
  · exact hs slot hslot
  · exact hclaims t ht now v hclaim hname

/-- A slot is kept, or taken again later, while its volume is neither dropped nor replaced. -/
lemma exists_slot (h : Turns c s ts s') {name : String} {slot : Slot}
    (hslot : Table.get? s name = some slot)
    (hkeeps : ∀ t ∈ ts, ¬ t.Drops c name ∧ ¬ t.Replaces name slot.uid) :
    ∃ slot', Table.get? s' name = some slot' ∧ slot'.uid = slot.uid ∧ slot.opens ≤ slot'.opens := by
  refine Path.keeps (P := fun s => ∃ slot', Table.get? s name = some slot' ∧
    slot'.uid = slot.uid ∧ slot.opens ≤ slot'.opens) h ?_ ⟨slot, hslot, rfl, Nat.le_refl _⟩
  rintro s t ht s' hstep ⟨slot₁, hslot₁, huid, hopens⟩
  obtain ⟨hdrops, hreplaces⟩ := hkeeps t ht
  obtain ⟨slot₂, hslot₂, huid₂, hopens₂⟩ := hstep.slot_kept hslot₁ hdrops (huid ▸ hreplaces)
  exact ⟨slot₂, hslot₂, huid₂.trans huid, Nat.le_trans hopens hopens₂⟩

/-- After a claim, and while the volume is neither dropped nor replaced, the next claim is an
interval later. -/
lemma le_of_claims {first second : Turn} {between later : List Turn} {t₁ t₂ : Nat} {v₁ v₂ : Volume}
    (h : Turns c s (first :: (between ++ second :: later)) s') (hfirst : first.Claims c t₁ v₁)
    (hsecond : second.Claims c t₂ v₂) (hname : nameOf v₂ = nameOf v₁) (huid : uidOf v₂ = uidOf v₁)
    (hkeeps : ∀ t ∈ between, ¬ t.Drops c (nameOf v₁) ∧ ¬ t.Replaces (nameOf v₁) (uidOf v₁)) :
    t₁ + c.monitorInterval.nanos ≤ t₂ := by
  obtain ⟨x, hstep₁, hrest⟩ := Path.cons_iff.mp h
  obtain ⟨y, hbetween, hlater⟩ := Path.append_iff.mp hrest
  obtain ⟨z, hstep₂, -⟩ := Path.cons_iff.mp hlater
  obtain ⟨slot, hslot, hsame, hopens⟩ := exists_slot hbetween (hstep₁.of_claims hfirst).2 hkeeps
  have hopen := Slots.closedFor_eq_none_iff.mp (hstep₂.of_claims hsecond).1
  rw [hname, huid] at hopen
  exact Nat.le_trans hopens (hopen slot hslot hsame)

/-- A slot that was taken by now opens within an interval. -/
lemma opens_le (h : Turns c Table.empty ts s) {now : Nat}
    (htimes : ∀ t ∈ ts, ∀ now' ∈ t.time?, now' ≤ now) {name : String} {slot : Slot}
    (hslot : Table.get? s name = some slot) : slot.opens ≤ now + c.monitorInterval.nanos := by
  refine forall_slot (P := fun slot => slot.opens ≤ now + c.monitorInterval.nanos)
    h ?_ ?_ slot hslot
  · rintro t ht now' v ⟨seen, answer, rfl, -⟩ -
    exact Nat.add_le_add_right (htimes _ ht now' rfl) _
  · intro slot hslot
    cases hslot

/-- The checks of volumes are paced. -/
theorem paced (h : Turns c Table.empty ts s) (htimes : InOrder ts) : Paced c ts where
  spaced := by
    rintro before between later first second t₁ t₂ v₁ v₂ rfl hfirst hsecond hname huid hkeeps
    obtain ⟨x, -, hrest⟩ := Path.append_iff.mp h
    exact le_of_claims hrest hfirst hsecond hname huid hkeeps
  answered := by
    rintro before later now v seen answer rfl hmonitored
    obtain ⟨x, hbefore, hrest⟩ := Path.append_iff.mp h
    obtain ⟨y, hstep, hlater⟩ := Path.cons_iff.mp hrest
    obtain ⟨delay, rfl, hslot, hwhy⟩ := hstep.answered hmonitored
    refine ⟨delay, rfl, ?_, ?_, ?_⟩
    · intro hclaims
      exact (hwhy.resolve_right fun hnot => hnot.1 hclaims).2
    · intro hnot
      obtain ⟨-, hpos, hslot⟩ := hwhy.resolve_left fun hclaims => hnot hclaims.1
      have hnow : ∀ t ∈ before, ∀ now' ∈ t.time?, now' ≤ now := by
        intro t ht now' hnow'
        exact (List.pairwise_append.mp htimes).2.2 t ht _ List.mem_cons_self now' hnow' now rfl
      exact ⟨hpos, Nat.le_of_add_le_add_left (opens_le hbefore hnow hslot)⟩
    · rintro between rest again seen' answer' rfl hname huid hagain hbetween
      obtain ⟨z, hfirst, hsecond⟩ := Path.append_iff.mp hlater
      obtain ⟨u, hvisit, -⟩ := Path.cons_iff.mp hsecond
      refine hvisit.claims hagain fun slot hslot' _ => ?_
      rw [hname] at hslot'
      refine forall_slot (P := fun slot => slot.opens ≤ now + delay.nanos) hfirst ?_ ?_ slot hslot'
      · exact fun t ht now' v' hclaims hname' => absurd hclaims (hbetween t ht now' v' hname')
      · rintro slot' hslot'
        obtain rfl := Option.some.inj (hslot.symm.trans hslot')
        exact Nat.le_refl _
  fresh := by
    rintro before between later first now v seen answer rfl hfirst hbetween hmonitored
    obtain ⟨x, -, hrest⟩ := Path.append_iff.mp h
    obtain ⟨y, hstep, hafter⟩ := Path.cons_iff.mp hrest
    obtain ⟨z, hquiet, hlater⟩ := Path.append_iff.mp hafter
    obtain ⟨u, hvisit, -⟩ := Path.cons_iff.mp hlater
    refine hvisit.claims hmonitored fun slot hslot huid => absurd huid ?_
    refine forall_slot (P := fun slot => slot.uid ≠ uidOf v) hquiet ?_ ?_ slot hslot
    · rintro t ht now' v' ⟨seen', answer', rfl, hmonitored', -⟩ hname
      exact absurd ⟨hname, hmonitored'⟩ (hbetween _ ht)
    · exact fun slot' hslot' => hstep.uid_ne hfirst hslot'

end Turns

end Volume

/-! ## A volume that is triggered too early -/

namespace EarlyTrigger

open Volume

/-- A conduct with an interval of a minute. -/
def conduct : Conduct := Conduct.usual "csi"

/-- A bound volume; the driver's name for it is empty, so checks of it fail. -/
def volume : Volume :=
  ⟨⟨some "pv1", none, none, some "uid-1", none, false⟩, some ⟨"csi", ""⟩,
    some ⟨some "default", some "pvc1"⟩, none, some "Bound"⟩

/-- A monitor with these slots. -/
def monitor (s : Slots) : Monitor := { Monitor.fresh conduct with slots := s }

/-- The slots after a check at this time. -/
def taken (seconds : Nat) : Slots :=
  Slots.take Table.empty volume (Span.ofSeconds seconds).nanos (.ofSeconds 60)

/-- The volume is checked at first. -/
def first : Turn := .visited 0 volume Table.empty (.after (.ofSeconds 60))

/-- After twenty seconds it is triggered again. -/
def early : Turn := .visited (Span.ofSeconds 20).nanos volume (taken 0) (.after (.ofSeconds 40))

/-- It is looked after again when this was due. -/
def due : Turn := .visited (Span.ofSeconds 60).nanos volume (taken 0) (.after (.ofSeconds 60))

lemma ends_controller :
    (Check.controller conduct volume).Ends [] (.error (.emptyHandle "pv1")) :=
  Process.Does.nothing _

lemma step_checked {s : Slots} {now : Nat} (hopen : s.closedFor volume now = none) :
    Turn.Step conduct s (.visited now volume s (.after (.ofSeconds 60)))
      (s.take volume now (.ofSeconds 60)) := by
  have hcheck := Attended.checked (c := conduct) (m := monitor s) (by decide) hopen ends_controller
  have hstep := Turn.Step.visit (ends_cycle_iff.mpr hcheck) rfl
  have hslots : (s.claim volume now (.ofSeconds 60)).1 = _ := Slots.claim_fst_of_open hopen _
  rw [← hslots]
  exact hstep

lemma step_early {s : Slots} {now : Nat} {left : Span}
    (hclosed : s.closedFor volume now = some left) :
    Turn.Step conduct s (.visited now volume s (.after left)) s := by
  have hearly := Attended.early (c := conduct) (m := monitor s) (by decide) hclosed
  have hstep := Turn.Step.visit (ends_cycle_iff.mpr hearly) rfl
  have hslots : (s.claim volume now (.ofSeconds 60)).1 = s := Slots.claim_fst_of_closed hclosed _
  nth_rewrite 3 [← hslots]
  exact hstep

lemma turns_due : Turns conduct Table.empty [first, early, due] (taken 60) :=
  Path.step (step_checked (by decide)) (Path.step (step_early (by decide))
    (Path.single (step_checked (by decide))))

lemma inOrder_due : InOrder [first, early, due] := by
  simp [InOrder, first, early, due, Turn.time?, Span.ofSeconds, Span.nanosPerSecond]

/-- The trigger does not put the next check off. -/
theorem checked_when_due : Turns conduct Table.empty [first, early, due] (taken 60) ∧
    InOrder [first, early, due] ∧ due.Claims conduct (Span.ofSeconds 60).nanos volume := by
  refine ⟨turns_due, inOrder_due, ?_⟩
  obtain ⟨delay, hdelay, -, -, hagain⟩ := (Turns.paced turns_due inOrder_due).answered
    (show [first, early, due] = [first] ++ early :: [due] from rfl) (by decide)
  obtain rfl := Schedule.after.inj hdelay
  exact hagain (show [due] = [] ++ due :: [] from rfl) rfl rfl (by decide) (by simp)

end EarlyTrigger

end StorageHealth
