import StorageHealth.Proofs.Pod.Round
import StorageHealth.Proofs.Process.Surroundings

/-!
# A sweep compared with single checks

A sweep learns all conditions at once, single checks learn one condition each.  When a driver lists
exactly what it answers about single volumes, this makes no difference to anybody else: whatever
becomes of the notices, a sweep sends the same ones as checks of the same volumes one after the
other, leaves the same monitor, and counts the checks that work out (`run_sweep_eq`).

This is an induction over the volumes.  Its step is `run_reportListed_eq`: what is done about one
volume does not depend on how its condition was learned, although a check looks the claim up before
it asks for the condition and a sweep looks it up afterwards.
-/

namespace StorageHealth

namespace Check

open Surroundings

/-- Checks volumes one after the other, whatever becomes of the checks, and counts those that worked
out. -/
def oneByOne (c : Conduct) : List Volume → Process Nat
  | [] => return 0
  | v :: rest => do
    let checked ← (controller c v).run
    let others ← oneByOne c rest
    return (if checked.isOk then 1 else 0) + others

/-- A driver that lists these conditions answers with them, and with no others. -/
def Consistent (w : Surroundings) (conditions : Conditions) : Prop :=
  ∀ handle condition, Table.get? conditions handle = some condition ↔
    w.probe (.controller handle) = .answered condition

variable {w : Surroundings} {c : Conduct} {conditions : Conditions}

lemma run_ask_eq (v : Volume) (call : Call) (s : Scene) :
    w.run (ask c v call).run s = (Outcome.orError (nameOf v) c.timeout (w.probe call), s) := by
  rw [ask, run_attempt_bind, run_lift, run_probe]
  exact run_ofExcept ..

/-- About an unlisted volume a driver has no answer. -/
lemma Consistent.exists_error {handle : String} (h : Consistent w conditions)
    (hunlisted : Table.get? conditions handle = none) (v : Volume) :
    ∃ e, Outcome.orError (nameOf v) c.timeout (w.probe (.controller handle)) = .error e := by
  cases hprobe : w.probe (.controller handle) with
  | late => exact ⟨_, rfl⟩
  | failed cause => exact ⟨_, rfl⟩
  | answered condition =>
    rw [(h handle condition).mpr hprobe] at hunlisted
    cases hunlisted

/-- A sweep does about a volume what a check of the volume does. -/
lemma run_reportListed_eq (h : Consistent w conditions) (v : Volume) (s : Scene) :
    w.run (reportListed c conditions v) s =
      ((w.run (controller c v).run s).1.isOk, (w.run (controller c v).run s).2) := by
  rw [reportListed, controller, run_attempt_bind, run_ofExcept]
  cases hhandle : handleOf c v with
  | error e => rfl
  | ok handle =>
    dsimp only
    rw [run_attempt_bind, run_lift, run_look]
    dsimp only
    rw [run_attempt_bind, run_ofExcept]
    cases hlisted : Table.get? conditions handle with
    | none =>
      -- The sweep stops here; the check still has to find out, unless there is no claim.
      cases hclaim : claimOf s.monitor v with
      | error e => rfl
      | ok claim =>
        obtain ⟨e, he⟩ := h.exists_error (c := c) hlisted v
        dsimp only
        rw [run_attempt_bind, run_ask_eq, he]
        rfl
    | some condition =>
      have hanswer := (h handle condition).mp hlisted
      dsimp only
      rw [Process.bind_eq, run_bind, run_look]
      dsimp only
      cases hclaim : claimOf s.monitor v with
      | error e => rfl
      | ok claim =>
        dsimp only
        rw [run_attempt_bind, run_ask_eq, hanswer]
        simp only [Outcome.orError]
        rw [run_attempt_bind, Process.bind_eq, run_bind]
        rcases w.run (report claim.subject condition).run s with ⟨e | a, t⟩
        · rfl
        · rfl

/-- Reporting on several volumes comes to the same as checking them one by one. -/
lemma run_reportAll_eq (h : Consistent w conditions) (volumes : List Volume) (s : Scene) :
    w.run (reportAll c conditions volumes) s = w.run (oneByOne c volumes) s := by
  induction volumes generalizing s with
  | nil => rfl
  | cons v rest ih =>
    rw [reportAll, oneByOne]
    simp only [Process.bind_eq, run_bind, run_reportListed_eq h, ih]

/-- When a driver lists what it answers, a sweep comes to the same as checks one by one: the same
notices are sent in the same order, the monitor is the same in the end, and so is the number of
volumes for which it worked out. -/
theorem run_sweep_eq (hlisting : w.listing = .answered conditions) (h : Consistent w conditions)
    (volumes : List Volume) (s : Scene) :
    w.run (sweep c volumes).run s =
      (.ok (w.run (oneByOne c volumes) s).1, (w.run (oneByOne c volumes) s).2) := by
  rw [sweep, run_attempt_bind, run_lift, run_listing, hlisting]
  dsimp only
  rw [run_attempt_bind, run_ofExcept]
  simp only [Outcome.orError]
  rw [run_lift, run_reportAll_eq h]

end Check

/-! ## Volumes that share a claim -/

namespace SharedClaim

open Happening

/-- How the controller works. -/
def conduct : Conduct := .usual "csi"

/-- The claim behind two of the volumes. -/
def claim : Claim :=
  { MixedRound.claim "pvc1" "pv1" with
    identity := ⟨some "pvc1", none, some "default", some "pvc1-uid", none, false⟩ }

/-- Two volumes that share a claim, and one that is not listed. -/
def volumes : List Volume :=
  [MixedRound.volume "pv1" "h1" "pvc1", MixedRound.volume "pv2" "h2" "pvc1",
    MixedRound.volume "pv3" "h3" "pvc1"]

/-- The claim and a warning about it become known. -/
def events : List (Happening Empty) :=
  [.observed .claim (.apply claim),
    .observed .event (.apply (.about "pvc1.warning" "pvc1-uid" .warning .volumeAbnormal "1"))]

/-- The scene at the beginning. -/
def start : Scene := ⟨leavesAll (.fresh conduct) events, []⟩

/-- The conditions that are listed. -/
def conditions : Conditions := Table.ofList [("h1", ⟨false, ""⟩), ("h2", ⟨true, "broken"⟩)]

/-- A driver that answers with what it lists.  Only the first notice can be published. -/
def surroundings : Surroundings where
  probe call :=
    match Table.get? conditions call.handle with
    | some condition => .answered condition
    | none => .failed (.failedCall "ControllerGetVolume" 5 none)
  listing := .answered conditions
  publish earlier _ := if earlier = [] then .ok () else .error ⟨"refused"⟩

lemma consistent : Check.Consistent surroundings conditions := by
  intro handle condition
  have hprobe : surroundings.probe (.controller handle) =
      match Table.get? conditions handle with
      | some condition => .answered condition
      | none => .failed (.failedCall "ControllerGetVolume" 5 none) := rfl
  rw [hprobe]
  cases Table.get? conditions handle <;> simp

/-- The sweep tells that the claim recovers and then that it is broken again, and so do single
checks. -/
theorem swept_as_one_by_one :
    (surroundings.listing = .answered conditions ∧ Check.Consistent surroundings conditions) ∧
    surroundings.run (Check.sweep conduct volumes).run start =
      (.ok (surroundings.run (Check.oneByOne conduct volumes) start).1,
        (surroundings.run (Check.oneByOne conduct volumes) start).2) ∧
    (surroundings.run (Check.oneByOne conduct volumes) start).1 = 1 ∧
    (surroundings.run (Check.oneByOne conduct volumes) start).2.sent =
      [Check.recovery claim.subject, Check.warning claim.subject "broken"] :=
  ⟨⟨rfl, consistent⟩, Check.run_sweep_eq rfl consistent volumes start, by decide, by decide⟩

end SharedClaim

end StorageHealth
