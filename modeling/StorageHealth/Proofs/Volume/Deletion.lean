import StorageHealth.Proofs.Check.Sweeps
import StorageHealth.Proofs.Volume.Visits

/-!
# Volumes that are being deleted

A visit to a volume that is being deleted drops it, and a round over a pod passes it over; in either
case nobody outside the monitor notices anything.  A sweep does not look at deletion at all: it asks
nothing about a single volume, but it tells about one that is being deleted as about any other
(`deleting_told_by_sweeps_only`).
-/

namespace StorageHealth

open Deed

namespace Volume

/-- A visit to a volume that is being deleted gives its slot up and does nothing else. -/
lemma cycle_unnoticed_of_deleting {c : Conduct} {now : Nat} {v : Volume} (hv : isDeleting v = true)
    {ds : List Deed} {r : Except CheckError Schedule} (h : (cycle c now v).Ends ds r) :
    r = .ok .onChange ∧ Unnoticed ds := by
  have hdrop : v.isMonitored c = false := by simp [isMonitored, hv]
  rw [cycle, if_neg (by rw [hdrop]; exact Bool.false_ne_true)] at h
  obtain ⟨m, rest, rfl, hrest⟩ := Attempt.ends_change_bind_iff.mp h
  obtain ⟨rfl, rfl⟩ := Attempt.ends_pure_iff.mp hrest
  exact ⟨rfl, rfl, rfl⟩

end Volume

namespace Pod

/-- A round over a pod passes over a volume that is being deleted. -/
lemma checkVolume_unnoticed_of_deleting {c : Conduct} {p : Pod} {x : PodVolume} {m : Monitor}
    {v : Volume} (hv : isDeleting v = true) {ds : List Deed} {r : Except CheckError Bool}
    (h : (checkVolume c p x).Ends ds r) (hm : m.Begins ds) (hx : m.volume? x.volume = some v) :
    r = .ok false ∧ Unnoticed ds := by
  unfold checkVolume at h
  split at h
  · obtain ⟨y, rest, rfl, hrest⟩ := Attempt.ends_look_bind_iff.mp h
    obtain rfl : y = m := hm.eq
    simp only [hx, hv, Bool.true_or, if_true] at hrest
    obtain ⟨rfl, rfl⟩ := Attempt.ends_pure_iff.mp hrest
    exact ⟨rfl, rfl, rfl⟩
  · obtain ⟨rfl, rfl⟩ := Attempt.ends_pure_iff.mp h
    exact ⟨rfl, rfl, rfl⟩

end Pod

/-- Nobody notices anything of a volume that is being deleted, neither when it is visited nor when a
pod that mounts it is.  A sweep asks nothing about a single volume, but whenever there is something
to tell about a volume it tells it, whether the volume is being deleted or not. -/
theorem Volume.deleting_told_by_sweeps_only (c : Conduct) {v : Volume} (hv : isDeleting v = true) :
    (∀ now ds r, (Volume.cycle c now v).Ends ds r → r = .ok .onChange ∧ Unnoticed ds) ∧
    (∀ (m : Monitor) p x ds r, (Pod.checkVolume c p x).Ends ds r → m.Begins ds →
      m.volume? x.volume = some v → r = .ok false ∧ Unnoticed ds) ∧
    ∀ (m : Monitor) ds r, (Check.sweepCached c).Ends ds r → m.Begins ds →
      (∃ outcome, (∀ conditions, outcome ≠ .answered conditions) ∧
        ds = [looked m, ⟨.listing c.timeout, outcome⟩]) ∨
      ∃ conditions parts,
        ds = looked m :: ⟨.listing c.timeout, .answered conditions⟩ :: List.flatten parts ∧
        List.Forall₂ (fun u own => Check.Part c conditions u own ∧ inquiries own = [] ∧
          ((∃ n, n ∈ notices own) ↔ Check.Tells c conditions u own))
          (m.cached .volume).objects parts := by
  refine ⟨fun now ds r h => cycle_unnoticed_of_deleting hv h,
    fun m p x ds r h hm hx => Pod.checkVolume_unnoticed_of_deleting hv h hm hx,
    fun m ds r h hm => ?_⟩
  obtain ⟨y, outcome, rest, rfl, hparts⟩ := Check.ends_sweepCached h
  obtain rfl : y = m := hm.eq
  rcases hparts with ⟨rfl, hnone⟩ | ⟨conditions, parts, rfl, rfl, hparts⟩
  · exact Or.inl ⟨outcome, hnone, rfl⟩
  · refine Or.inr ⟨conditions, parts, rfl, hparts.imp fun u own hown => ?_⟩
    exact ⟨hown, hown.inquiries_eq, hown.sends_iff⟩

/-! ## A sweep over a deleted volume -/

namespace LastWarning

open Happening

/-- How the controller works. -/
def conduct : Conduct := .usual "csi"

/-- A bound volume that is being deleted. -/
def volume : Volume :=
  { MixedRound.volume "pv1" "h1" "pvc1" with
    identity := ⟨some "pv1", none, none, none, none, true⟩ }

/-- The claim of the volume. -/
def claim : Claim :=
  { MixedRound.claim "pvc1" "pv1" with
    identity := ⟨some "pvc1", none, some "default", some "pvc1-uid", none, false⟩ }

/-- The volume and its claim become known. -/
def events : List (Happening Empty) :=
  [.observed .volume (.apply volume), .observed .claim (.apply claim)]

/-- The monitor when the sweep begins. -/
def known : Monitor := leavesAll (.fresh conduct) events

/-- The conditions that are listed. -/
def conditions : Conditions := Table.ofList [("h1", ⟨true, "gone"⟩)]

/-- What the sweep does about the volume. -/
def told : List Deed :=
  [looked known, rearmed "pvc1-uid" known, sent (Check.warning claim.subject "gone") (.ok ())]

/-- The sweep. -/
def deeds : List Deed :=
  [looked known, ⟨.listing (.ofSeconds 15), .answered conditions⟩] ++ told

/-- The visit to the volume. -/
def visit : List Deed := [slotted (fun s => s.forget "pv1") known]

lemma ends_visit : (Volume.cycle conduct 0 volume).Ends visit (.ok .onChange) := by
  refine Process.Does.step _ ?_
  exact Process.Does.nothing _

/-- The volume as a pod mounts it. -/
def mounted : PodVolume := ⟨"default", "app", "pv1"⟩

lemma ends_passed_over :
    (Pod.checkVolume conduct MixedRound.pod mounted).Ends [looked known] (.ok false) := by
  refine Process.Does.step _ ?_
  exact Process.Does.nothing _

lemma ends_sweep : (Check.sweepCached conduct).Ends deeds (.ok 1) := by
  refine Process.Does.step _ ?_
  refine Process.Does.step _ ?_
  refine Process.Does.step _ ?_
  refine Process.Does.step _ ?_
  refine Process.Does.step _ ?_
  exact Process.Does.nothing _

lemma alone_sweep : known.Alone deeds := ⟨rfl, trivial, rfl, rfl, trivial, trivial⟩

/-- A visit drops the volume, a round over a pod passes it over, and a sweep warns about it. -/
theorem warned_when_swept :
    (isDeleting volume = true ∧ (Volume.cycle conduct 0 volume).Ends visit (.ok .onChange) ∧
      Unnoticed visit) ∧
    ((Pod.checkVolume conduct MixedRound.pod mounted).Ends [looked known] (.ok false) ∧
      known.volume? mounted.volume = some volume ∧ Unnoticed [looked known]) ∧
    (Check.sweepCached conduct).Ends deeds (.ok 1) ∧ known.Begins deeds ∧
      (known.cached .volume).objects = [volume] ∧
      ∃ conditions parts,
        deeds = looked known :: ⟨.listing conduct.timeout, .answered conditions⟩ ::
          List.flatten parts ∧
        List.Forall₂ (fun u own => Check.Part conduct conditions u own ∧ inquiries own = [] ∧
          ((∃ n, n ∈ notices own) ↔ Check.Tells conduct conditions u own)) [volume] parts := by
  have hbegins : known.Begins deeds := known.begins_looked _
  have hcached : (known.cached .volume).objects = [volume] := rfl
  have hknown : known.volume? mounted.volume = some volume := rfl
  obtain ⟨hvisited, hpassed, hswept⟩ :=
    Volume.deleting_told_by_sweeps_only conduct (v := volume) rfl
  have hunnoticed : Unnoticed [looked known] :=
    (hpassed known _ mounted _ _ ends_passed_over (known.begins_looked _) hknown).2
  refine ⟨⟨rfl, ends_visit, (hvisited 0 visit _ ends_visit).2⟩,
    ⟨ends_passed_over, hknown, hunnoticed⟩, ends_sweep, hbegins, hcached, ?_⟩
  rcases hswept known deeds _ ends_sweep hbegins with ⟨outcome, -, habsurd⟩ | hparts
  · cases habsurd
  · exact hparts

/-- A sweep can warn because of a volume that is being deleted, even if it is the only one that is
known. -/
theorem deleting_not_left_alone : ¬ ∀ (c : Conduct) (events : List (Happening Empty)) (v : Volume)
    (ds : List Deed) (r : Except CheckError Nat), isDeleting v = true →
    ((leavesAll (.fresh c) events).cached .volume).objects = [v] →
    (Check.sweepCached c).Ends ds r → (leavesAll (.fresh c) events).Alone ds →
    notices ds = [] := by
  intro hclaim
  have hsilent : notices deeds = [] :=
    hclaim conduct events volume deeds (.ok 1) rfl rfl ends_sweep alone_sweep
  have htold : notices deeds = [Check.warning claim.subject "gone"] := rfl
  rw [htold] at hsilent
  cases hsilent

end LastWarning

end StorageHealth
