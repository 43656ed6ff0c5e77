import StorageHealth.Timer
import StorageHealth.Simulation.Caretaker
import StorageHealth.Simulation.Sweeper
import StorageHealth.Proofs.Settings.Lengths

/-!
# Timers that can be set

A controller sets one timer for its sweeps or for its volumes, one for its nodes, and a new moment
for every slot that it takes.  `Plan.Timely` says that none of this fails up to some moment.  Where
it does not fail, it is what the virtual clock does (`Slots.eq_claim_of_claimOn`,
`Simulation.Caretaker.resync_start`); where the sweeper has no period it never sweeps
(`Simulation.Sweeper.wake_of_no_period`).

The settings are not judged for this, so `timely_controller_iff` states what has to be true of them:
the periods that are used are not zero, and the clock reaches far enough, which 64-bit seconds are
enough for.
-/

namespace StorageHealth

/-! ## Setting timers -/

lemma Clock.exists_ahead_iff {k : Clock} {now : Nat} {length : Span} :
    (∃ moment, k.ahead now length = .ok moment) ↔ now + length.nanos ≤ k.last := by
  unfold ahead
  split
  · rename_i h
    exact iff_of_true ⟨_, rfl⟩ h
  · rename_i h
    exact iff_of_false nofun h

lemma Clock.eq_of_ahead {k : Clock} {now moment : Nat} {length : Span}
    (h : k.ahead now length = .ok moment) : moment = now + length.nanos := by
  unfold ahead at h
  split at h
  · cases h
    rfl
  · cases h

namespace Ticker

lemma exists_startingAt_iff {first : Nat} {period : Span} :
    (∃ t, startingAt first period = .ok t) ↔ 0 < period.nanos := by
  unfold startingAt
  split
  · rename_i h
    exact iff_of_false nofun (by omega)
  · rename_i h
    exact iff_of_true ⟨_, rfl⟩ (by omega)

lemma eq_of_startingAt {first : Nat} {period : Span} {t : Ticker}
    (h : startingAt first period = .ok t) : t = ⟨first, period⟩ := by
  unfold startingAt at h
  split at h
  · cases h
  · cases h
    rfl

/-- A timer that starts after one period needs a period and a clock that reaches so far. -/
lemma exists_startingAfter_iff {k : Clock} {now : Nat} {period : Span} :
    (∃ t, startingAfter k now period = .ok t) ↔
      0 < period.nanos ∧ now + period.nanos ≤ k.last := by
  rw [← Clock.exists_ahead_iff]
  constructor
  · rintro ⟨t, ht⟩
    obtain ⟨first, hfirst, ht⟩ := exists_of_bind_ok ht
    exact ⟨exists_startingAt_iff.mp ⟨t, ht⟩, first, hfirst⟩
  · rintro ⟨hperiod, first, hfirst⟩
    obtain ⟨t, ht⟩ := exists_startingAt_iff.mpr hperiod
    refine ⟨t, ?_⟩
    rw [startingAfter, hfirst]
    exact ht

lemma eq_of_startingAfter {k : Clock} {now : Nat} {period : Span} {t : Ticker}
    (h : startingAfter k now period = .ok t) : t = ⟨now + period.nanos, period⟩ := by
  obtain ⟨first, hfirst, ht⟩ := exists_of_bind_ok h
  rw [eq_of_startingAt ht, Clock.eq_of_ahead hfirst]

end Ticker

namespace Slots

/-- A slot can be taken when it is closed anyway or the clock reaches its next opening. -/
lemma exists_claimOn_iff {k : Clock} {s : Slots} {v : Volume} {now : Nat} {interval : Span} :
    (∃ r, s.claimOn k v now interval = .ok r) ↔
      s.closedFor v now ≠ none ∨ now + interval.nanos ≤ k.last := by
  unfold claimOn
  split
  · rename_i left hclosed
    exact iff_of_true ⟨_, rfl⟩ (Or.inl (by rw [hclosed]; nofun))
  · rename_i hopen
    rw [← Clock.exists_ahead_iff]
    constructor
    · rintro ⟨r, hr⟩
      obtain ⟨opens, hopens, -⟩ := exists_of_bind_ok hr
      exact Or.inr ⟨opens, hopens⟩
    · rintro (hclosed | ⟨opens, hopens⟩)
      · exact absurd hopen hclosed
      · rw [hopens]
        exact ⟨_, rfl⟩

/-- Where the clock reaches far enough, slots are taken as on a clock without an end. -/
theorem eq_claim_of_claimOn {k : Clock} {s : Slots} {v : Volume} {now : Nat} {interval : Span}
    {r : Slots × Option Span} (h : s.claimOn k v now interval = .ok r) :
    r = s.claim v now interval := by
  rw [claimOn] at h
  rw [claim]
  cases hclosed : s.closedFor v now with
  | some left =>
    rw [hclosed] at h
    cases h
    rfl
  | none =>
    rw [hclosed] at h
    obtain ⟨opens, hopens, hr⟩ := exists_of_bind_ok h
    cases hr
    rw [Clock.eq_of_ahead hopens]
    rfl

end Slots

/-! ## The timers of duties -/

namespace Duty

variable {k : Clock} {c : Conduct} {now : Nat}

lemma exists_ticker_sweep_iff : (∃ t, Duty.sweep.ticker k c now = .ok t) ↔
    0 < c.sweepInterval.nanos := by
  rw [← @Ticker.exists_startingAt_iff now, ticker]
  cases Ticker.startingAt now c.sweepInterval with
  | error e => exact iff_of_false nofun nofun
  | ok t => exact iff_of_true ⟨_, rfl⟩ ⟨_, rfl⟩

lemma exists_ticker_care_iff {objects : Care} :
    (∃ t, (Duty.care objects).ticker k c now = .ok t) ↔
      ∀ period, objects.resync c = some period →
        0 < period.nanos ∧ now + period.nanos ≤ k.last := by
  rw [ticker]
  cases hresync : objects.resync c with
  | none => exact iff_of_true ⟨none, rfl⟩ nofun
  | some period =>
    have hsome : (∃ t, (Ticker.startingAfter k now period).map some = .ok t) ↔
        ∃ t, Ticker.startingAfter k now period = .ok t := by
      cases Ticker.startingAfter k now period with
      | error e => exact iff_of_false nofun nofun
      | ok t => exact iff_of_true ⟨_, rfl⟩ ⟨_, rfl⟩
    simp only [hsome, Ticker.exists_startingAfter_iff, Option.some.injEq, forall_eq']

/-- A timer that can be set at a moment can be set earlier. -/
lemma exists_ticker_of_le {d : Duty} {latest : Nat} (h : ∃ t, d.ticker k c latest = .ok t)
    (hle : now ≤ latest) : ∃ t, d.ticker k c now = .ok t := by
  cases d with
  | feed query => exact ⟨none, rfl⟩
  | sweep => exact exists_ticker_sweep_iff.mpr (exists_ticker_sweep_iff.mp h)
  | care objects =>
    refine exists_ticker_care_iff.mpr fun period hperiod => ?_
    have hlatest := exists_ticker_care_iff.mp h period hperiod
    exact ⟨hlatest.1, by omega⟩

end Duty

namespace Simulation

/-- A caretaker on the virtual clock has the timer that is set for it. -/
theorem Caretaker.resync_start {k : Clock} {c : Conduct} {care : Care} {now : Nat}
    {t : Option Ticker} (h : (Duty.care care).ticker k c now = .ok t) :
    (Caretaker.start c care now).resync = t.map fun x => (x.first, x.period) := by
  have hfits := Duty.exists_ticker_care_iff.mp ⟨t, h⟩
  rw [Duty.ticker] at h
  rw [Caretaker.start]
  cases hresync : care.resync c with
  | none =>
    rw [hresync] at h
    cases h
    rfl
  | some period =>
    rw [hresync] at h
    dsimp only at h
    have hperiod : ¬ period.nanos = 0 := Nat.ne_of_gt (hfits period hresync).1
    cases hticker : Ticker.startingAfter k now period with
    | error e =>
      rw [hticker] at h
      cases h
    | ok x =>
      rw [hticker] at h
      cases h
      rw [Ticker.eq_of_startingAfter hticker]
      simp [hperiod]

namespace Sweeper

/-- A sweeper that does nothing but wait for its caches, or has ended. -/
def Idle : Sweeper → Prop
  | .waiting _ => True
  | .ended => True
  | _ => False

end Sweeper

/-- Asking for caches leaves the monitor and the record alone. -/
lemma askGroup_eq (task : Nat) (group : List Kind) (s : Stage) :
    (askGroup task group s).1 = { s with callbacks := (askGroup task group s).1.callbacks } := by
  induction group generalizing s with
  | nil => rfl
  | cons k rest ih =>
    rw [askGroup]
    split
    · exact ih s
    · split
      · rfl
      · exact ih (s.enlist k task)

lemma askAll_eq (task : Nat) (needs : List (List Kind)) (s : Stage) :
    (askAll task needs s).1 = { s with callbacks := (askAll task needs s).1.callbacks } := by
  induction needs generalizing s with
  | nil => rfl
  | cons group rest ih =>
    have hgroup := askGroup_eq task group s
    rw [askAll]
    split
    · rename_i s' heq
      rw [heq] at hgroup
      exact hgroup
    · rename_i s' heq
      rw [heq] at hgroup
      dsimp only at hgroup
      rw [hgroup, ih]
    · rename_i s' heq
      rw [heq] at hgroup
      exact hgroup

/-- Without a period the sweeper ends as soon as its caches are complete, before the first sweep:
it asks nothing, publishes nothing and changes nothing. -/
theorem Sweeper.wake_of_no_period {c : Conduct} (h : c.sweepInterval.nanos = 0) {x : Sweeper}
    (hx : x.Idle) (task : Nat) (called cancelled : Bool) (s : Stage) :
    (x.wake c task called cancelled s).2.Idle ∧
      (x.wake c task called cancelled s).1 =
        { s with callbacks := (x.wake c task called cancelled s).1.callbacks } := by
  cases x with
  | ended => exact ⟨trivial, rfl⟩
  | ticking next => exact hx.elim
  | sweeping next wakes rest => exact hx.elim
  | waiting needs =>
    have hask := askAll_eq task needs s
    unfold wake
    dsimp only
    split
    · split
      · rename_i s' heq
        rw [heq] at hask
        exact ⟨trivial, hask⟩
      · rename_i s' needs' heq
        rw [heq] at hask
        exact ⟨trivial, hask⟩
      · rename_i s' heq
        rw [heq] at hask
        rw [if_pos (by simp [h])]
        exact ⟨trivial, hask⟩
    · exact ⟨trivial, rfl⟩

end Simulation

/-! ## The timers of a controller -/

namespace Plan

/-- Nothing that has to do with timers fails up to a moment: no duty fails to set its timer, and no
volume that is looked after fails to take its slot. -/
structure Timely (p : Plan) (k : Clock) (latest : Nat) : Prop where
  tickers : ∀ d ∈ p.duties, ∀ now ≤ latest, ∃ t, d.ticker k p.conduct now = .ok t
  slots : .care .volumes ∈ p.duties → ∀ now ≤ latest, ∀ (s : Slots) (v : Volume),
    ∃ r, s.claimOn k v now p.conduct.monitorInterval = .ok r

/-- It is enough to look at the last moment, and at a slot that is open. -/
lemma timely_iff {p : Plan} {k : Clock} {latest : Nat} : p.Timely k latest ↔
    (∀ d ∈ p.duties, ∃ t, d.ticker k p.conduct latest = .ok t) ∧
      (.care .volumes ∈ p.duties → latest + p.conduct.monitorInterval.nanos ≤ k.last) := by
  constructor
  · intro h
    refine ⟨fun d hd => h.tickers d hd latest (Nat.le_refl latest), fun hcare => ?_⟩
    have hslot := h.slots hcare latest (Nat.le_refl latest) Table.empty
      ⟨default, none, none, none, none⟩
    exact (Slots.exists_claimOn_iff.mp hslot).resolve_left fun hclosed => hclosed rfl
  · intro h
    refine ⟨fun d hd now hnow => ?_, fun hcare now hnow s v => ?_⟩
    · exact Duty.exists_ticker_of_le (h.1 d hd) hnow
    · have hreach := h.2 hcare
      exact Slots.exists_claimOn_iff.mpr (Or.inr (by omega))

lemma duties_controller {s : ControllerSettings} {known : KnownDriver} :
    (controller s known).duties =
      [.feed (.all .claim), .feed (.eventsAbout "PersistentVolumeClaim")] ++
        volumeDuties (.ofCapabilities known.capabilities) ++
        (if s.watchNodes then nodeDuties else []) := rfl

/-- The periods that a controller uses must not be zero, and the clock must reach as far ahead as is
asked of it. -/
lemma timely_controller {s : ControllerSettings} {known : KnownDriver} {k : Clock} {latest : Nat} :
    (controller s known).Timely k latest ↔
      (if known.capabilities.listVolumes then 0 < s.sweepInterval.nanos
        else 0 < s.volumeResync.nanos ∧ latest + s.volumeResync.nanos ≤ k.last ∧
          latest + s.common.monitorInterval.nanos ≤ k.last) ∧
      (s.watchNodes = true →
        0 < s.nodeResync.nanos ∧ latest + s.nodeResync.nanos ≤ k.last) := by
  have hfeed : ∀ query, ∃ t, (Duty.feed query).ticker k (controller s known).conduct latest =
      .ok t := fun query => ⟨none, rfl⟩
  have hvolumes : Care.volumes.resync (controller s known).conduct = some s.volumeResync := rfl
  have hnodes : Care.nodes.resync (controller s known).conduct = some s.nodeResync := rfl
  have hsweep : (controller s known).conduct.sweepInterval = s.sweepInterval := rfl
  have hinterval : (controller s known).conduct.monitorInterval = s.common.monitorInterval := rfl
  rw [timely_iff, duties_controller, hinterval]
  cases hlist : known.capabilities.listVolumes <;> cases hwatch : s.watchNodes <;>
    simp [CheckMode.ofCapabilities, hlist, volumeDuties, nodeDuties, hfeed,
      Duty.exists_ticker_sweep_iff, Duty.exists_ticker_care_iff, hvolumes, hnodes, hsweep] <;>
    tauto

/-- The periods of a controller are those its sweeps or its volumes are looked after at, and those
of the nodes if it was told to look after them. -/
lemma periods_controller {s : ControllerSettings} {known : KnownDriver} :
    (controller s known).periods =
      (if known.capabilities.listVolumes then s.sweepInterval else s.volumeResync) ::
        (if s.watchNodes then [s.nodeResync] else []) := by
  rw [periods, duties_controller]
  cases hlist : known.capabilities.listVolumes <;> cases hwatch : s.watchNodes <;>
    simp only [CheckMode.ofCapabilities, hlist, volumeDuties, nodeDuties] <;> rfl

/-- A clock that reaches as far ahead as written spans can be leaves only the periods to be looked
at. -/
lemma timely_controller_of_reach {s : ControllerSettings} (hs : s.SpansFit) {known : KnownDriver}
    {k : Clock} {latest : Nat} (hreach : latest + Span.lengthLimit ≤ k.last) :
    (controller s known).Timely k latest ↔
      ∀ period ∈ (controller s known).periods, 0 < period.nanos := by
  have hfits : ∀ period : Span, period.Fits → latest + period.nanos ≤ k.last := by
    intro period h
    unfold Span.Fits at h
    omega
  have hvolumes := hfits _ hs.volumeResync
  have hnodes := hfits _ hs.nodeResync
  have hslots := hfits _ hs.common.monitorInterval
  rw [timely_controller, periods_controller]
  cases known.capabilities.listVolumes <;> cases s.watchNodes <;>
    simp [hvolumes, hnodes, hslots]

/-- The settings of a controller are accepted as soon as there is somebody to do the work, so its
timers can be set only if more than that is true of them.  Every period that is used must be
positive, and the clock must reach ahead as far as the periods and the slots of volumes ask; a clock
that reaches as far as 64-bit seconds leaves only the periods.  A sweeper without a period never
gets to a sweep. -/
theorem timely_controller_iff {line : List String} {s : ControllerSettings}
    (hread : ControllerSettings.read line = .ok s) (known : KnownDriver) :
    (s.check = .ok () ↔ 0 < s.common.workers) ∧
      (∀ (k : Clock) (latest : Nat),
        ((controller s known).Timely k latest ↔
          (if known.capabilities.listVolumes then 0 < s.sweepInterval.nanos
            else 0 < s.volumeResync.nanos ∧ latest + s.volumeResync.nanos ≤ k.last ∧
              latest + s.common.monitorInterval.nanos ≤ k.last) ∧
          (s.watchNodes = true →
            0 < s.nodeResync.nanos ∧ latest + s.nodeResync.nanos ≤ k.last)) ∧
        (latest + Span.lengthLimit ≤ k.last →
          ((controller s known).Timely k latest ↔
            ∀ period ∈ (controller s known).periods, 0 < period.nanos))) ∧
      (s.sweepInterval.nanos = 0 → ∀ x : Simulation.Sweeper, x.Idle →
        ∀ (task : Nat) (called cancelled : Bool) (stage : Simulation.Stage),
          (x.wake (controller s known).conduct task called cancelled stage).2.Idle ∧
            (x.wake (controller s known).conduct task called cancelled stage).1 =
              { stage with callbacks :=
                  (x.wake (controller s known).conduct task called cancelled
                    stage).1.callbacks }) := by
  have hfits : s.SpansFit := ControllerSettings.fits_of_read hread
  refine ⟨?_, fun k latest => ⟨timely_controller, timely_controller_of_reach hfits⟩, ?_⟩
  · rw [ControllerSettings.check, CommonSettings.check]
    split
    · rename_i hnone
      exact iff_of_false nofun (by omega)
    · rename_i hsome
      exact iff_of_true rfl (by omega)
  · intro hzero x hx task called cancelled stage
    exact Simulation.Sweeper.wake_of_no_period hzero hx task called cancelled stage

end Plan

/-! ## Accepted settings -/

namespace AcceptedSettings

/-- A driver that can list its volumes. -/
def listing : KnownDriver := ⟨"fake.csi.driver.io", ⟨true, true, false, true, false, false⟩⟩

/-- A driver that is asked about each volume. -/
def asked : KnownDriver := ⟨"fake.csi.driver.io", ⟨true, false, true, true, false, false⟩⟩

/-- What a controller is told that looks after its nodes and sweeps every 90 seconds. -/
def steady : ControllerSettings :=
  { (default : ControllerSettings) with sweepInterval := .ofSeconds 90, watchNodes := true }

theorem timely_steady :
    ControllerSettings.read ["--enable-node-watcher", "--list-volumes-interval", "90s"] =
        .ok steady ∧
      steady.check = .ok () ∧ (Plan.controller steady listing).Timely Clock.signed64 0 := by
  have hread : ControllerSettings.read
      ["--enable-node-watcher", "--list-volumes-interval", "90s"] = .ok steady := by
    decide +kernel
  have htimers := Plan.timely_controller_iff hread listing
  exact ⟨hread, htimers.1.mpr (by decide), (htimers.2.1 Clock.signed64 0).1.mpr (by decide)⟩

/-- What a controller is told that sweeps without a pause. -/
def restless : ControllerSettings :=
  { (default : ControllerSettings) with sweepInterval := ⟨0⟩ }

/-- What a controller is told that takes the slot of a volume for as long as can be written. -/
def patient : ControllerSettings :=
  { (default : ControllerSettings) with
    common := { CommonSettings.default with monitorInterval := .ofSeconds 18446744073709551615 } }

/-- No clock helps a controller that sweeps without a pause, and a clock of signed seconds does not
help one that takes slots for as long as can be written.  Both are accepted. -/
theorem accepted_untimely :
    (ControllerSettings.read ["--list-volumes-interval", "0s"] = .ok restless ∧
      restless.check = .ok () ∧
      ∀ k latest, ¬ (Plan.controller restless listing).Timely k latest) ∧
    (ControllerSettings.read ["--monitor-interval", "18446744073709551615s"] = .ok patient ∧
      patient.check = .ok () ∧
      ∀ latest, ¬ (Plan.controller patient asked).Timely Clock.signed64 latest) := by
  refine ⟨⟨by decide +kernel, rfl, fun k latest h => ?_⟩, by decide +kernel, rfl,
    fun latest h => ?_⟩
  · have hperiod : 0 < restless.sweepInterval.nanos := (Plan.timely_controller.mp h).1
    exact absurd hperiod (by decide)
  · have hslots : latest + patient.common.monitorInterval.nanos ≤ Clock.signed64.last :=
      (Plan.timely_controller.mp h).1.2.2
    have hshort : Clock.signed64.last < patient.common.monitorInterval.nanos := by decide
    omega

end AcceptedSettings

end StorageHealth
