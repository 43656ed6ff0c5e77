import StorageHealth.Proofs.Pod.Requests

/-!
# Volumes that a pod mentions more than once

A pod may mount one claim several times, and several claims may name one volume.  The volumes of a
pod are resolved claim by claim and nobody looks for repetitions, so a volume is visited as often as
the pod mentions it (`Pod.mentions`).

`Pod.cycle_repeats` says so for a whole round: a volume with a call is asked about once for each
mention, and each abnormal answer is a warning of its own.  So there is one call per volume, for
every pod whose claims lead to different volumes, and for no other.
-/

namespace StorageHealth

/-- Whether a notice is a warning. -/
def Notice.isWarning (n : Notice) : Bool := n.severity = .warning

open Deed

/-! ## Warnings for answers -/

/-- As many warnings are sent as abnormal conditions are learned. -/
def Deed.WarnsOfEach (ds : List Deed) : Prop :=
  (notices ds).countP Notice.isWarning = (conditions ds).countP Condition.abnormal

lemma Deed.closed_warnsOfEach : Closed WarnsOfEach where
  nothing := rfl
  append := by
    intro ds es h h'
    unfold WarnsOfEach conditions at *
    rw [notices_append, List.filterMap_append, List.countP_append, List.countP_append, h, h']

lemma Deed.warnsOfEach_map_looked (ms : List Monitor) : WarnsOfEach (ms.map looked) := by
  obtain ⟨-, hnotices, hconditions, -⟩ := Check.idle_map_looked ms
  unfold WarnsOfEach
  rw [hnotices, hconditions]
  rfl

namespace Check

/-- An answer that is reported on a subject with a uid is a warning if it is abnormal. -/
lemma Reported.warnsOfEach {s : Subject} {uid : String} (hs : s.uid = some uid)
    {condition : Condition} {ds : List Deed} {r : Except CheckError Unit}
    (h : Reported s condition ds r) (call : Call) (deadline : Span) :
    WarnsOfEach (⟨.probe call deadline, .answered condition⟩ :: ds) := by
  have hconditions := conditions_cons_answered call deadline h []
  rw [List.append_nil] at hconditions
  unfold WarnsOfEach
  rw [notices_cons_probe, hconditions]
  cases h with
  | nameless hnone => cases hs.symm.trans hnone
  | warned _ ha m outcome => simp [rearmed, sent, warning, Notice.isWarning, ha, conditions]
  | quiet _ ha _ => simp [looked, ha, conditions]
  | refused _ ha _ e => simp [looked, sent, recovery, Notice.isWarning, ha, conditions]
  | recovered _ ha _ m' => simp [looked, sent, settled, recovery, Notice.isWarning, ha, conditions]

/-- A pod is warned of every abnormal answer about a volume that it mounts. -/
lemma warnsOfEach_mount (c : Conduct) (v : Volume) (p : Pod) :
    (mount c v p).Always WarnsOfEach := by
  refine closed_warnsOfEach.andThen (closed_warnsOfEach.ofExcept _) fun handle => ?_
  intro ds r h
  cases hcall : mountCall c v p handle with
  | error e =>
    rw [hcall] at h
    obtain ⟨rfl, -⟩ := Attempt.ends_throw_iff.mp h
    exact closed_warnsOfEach.nothing
  | ok call =>
    rw [hcall] at h
    obtain ⟨uid, -, huid, -⟩ := mountCall_eq_ok_iff.mp hcall
    rcases ends_ask_report h with ⟨outcome, rfl, hnone⟩ | ⟨condition, rest, r', rfl, hreport⟩
    · have hsilent : Silent ⟨.probe call c.timeout, outcome⟩ := silent_probe hnone
      unfold WarnsOfEach conditions
      rw [List.filterMap_cons_none hsilent.condition?_eq]
      rfl
    · exact hreport.warnsOfEach huid call c.timeout

end Check

namespace Pod

/-- Whatever is done about a pod, it is warned of every abnormal answer. -/
lemma warnsOfEach_checkVolume (c : Conduct) (p : Pod) (x : PodVolume) :
    (checkVolume c p x).Always WarnsOfEach :=
  always_checkVolume closed_warnsOfEach (fun m => warnsOfEach_map_looked [m])
    (fun v => Check.warnsOfEach_mount c v p) x

/-! ## Mentions -/

/-- How often the claims of a pod lead to a volume. -/
def mentions (c : Conduct) (m : Monitor) (p : Pod) (volume : String) : Nat :=
  p.claimNames.countP fun claim => volumeBehind c m p.home claim == some volume

/-- A volume is among the volumes of a pod as often as the pod mentions it. -/
lemma count_volumes (c : Conduct) (m : Monitor) (p : Pod) (volume : String) :
    (p.volumes c m).count (p.mounting volume) = p.mentions c m volume := by
  unfold volumes mentions mounting
  rw [List.count_filterMap]
  refine List.countP_congr fun claim _ => ?_
  cases volumeBehind c m p.home claim <;> simp

lemma exists_mounting_of_mem {c : Conduct} {m : Monitor} {p : Pod} {x : PodVolume}
    (h : x ∈ p.volumes c m) : ∃ volume, x = p.mounting volume := by
  obtain ⟨claim, -, hclaim⟩ := List.mem_filterMap.mp h
  obtain ⟨volume, -, hvolume⟩ := Option.map_eq_some_iff.mp hclaim
  exact ⟨volume, hvolume.symm⟩

/-- The volumes of a pod are all different when none of them is mentioned twice. -/
lemma nodup_volumes_iff {c : Conduct} {m : Monitor} {p : Pod} :
    (p.volumes c m).Nodup ↔ ∀ volume, p.mentions c m volume ≤ 1 := by
  rw [List.nodup_iff_count]
  constructor
  · intro h volume
    rw [← count_volumes]
    exact h _
  · intro h x
    by_cases hx : x ∈ p.volumes c m
    · obtain ⟨volume, rfl⟩ := exists_mounting_of_mem hx
      rw [count_volumes]
      exact h volume
    · rw [List.count_eq_zero_of_not_mem hx]
      exact Nat.zero_le 1

/-! ## The visits to one volume -/

/-- The visits that were made to one volume, in a round over several. -/
def visitsTo (items : List PodVolume) (visits : List Visit) (x : PodVolume) : List Visit :=
  (items.zip visits).filterMap fun e => if e.1 = x then some e.2 else none

/-- A volume is visited as often as it is among the volumes of the round. -/
lemma forall₂_visitsTo {R : PodVolume → Visit → Prop} {items : List PodVolume}
    {visits : List Visit} (h : List.Forall₂ R items visits) (x : PodVolume) :
    List.Forall₂ R (List.replicate (items.count x) x) (visitsTo items visits x) := by
  unfold visitsTo
  induction h with
  | nil => exact List.Forall₂.nil
  | @cons y visit items visits hvisit _ ih =>
    by_cases hy : y = x
    · subst hy
      simpa [List.replicate_succ] using And.intro hvisit ih
    · simpa [List.count_cons, hy] using ih

/-- The visits to one volume are among all visits. -/
lemma mem_of_mem_visitsTo {items : List PodVolume} {visits : List Visit} {x : PodVolume}
    {visit : Visit} (h : visit ∈ visitsTo items visits x) : visit ∈ visits := by
  obtain ⟨⟨y, visit'⟩, hmem, hvisit⟩ := List.mem_filterMap.mp h
  split at hvisit
  · obtain rfl := Option.some.inj hvisit
    exact (List.of_mem_zip hmem).2
  · cases hvisit

/-- A volume with a call is asked about once on each visit. -/
lemma inquiries_visitsTo {c : Conduct} {m : Monitor} {p : Pod} {items : List PodVolume}
    {visits : List Visit} (h : List.Forall₂ (Visit.IsTo c p) items visits)
    (hsees : ∀ d ∈ Visit.allDeeds visits, d.SeesMounts m) {x : PodVolume} {call : Call}
    (hcall : callAbout? c m p x = some call) :
    inquiries (Visit.allDeeds (visitsTo items visits x)) =
      List.replicate (items.count x) (.about call) := by
  have hown : ∀ d ∈ Visit.allDeeds (visitsTo items visits x), d.SeesMounts m := by
    intro d hd
    obtain ⟨visit, hvisit, hd⟩ := List.mem_flatMap.mp hd
    exact hsees d (List.mem_flatMap.mpr ⟨visit, mem_of_mem_visitsTo hvisit, hd⟩)
  rw [inquiries_allDeeds (forall₂_visitsTo h x) hown, List.filterMap_replicate_of_some hcall,
    List.map_replicate]

/-- Each abnormal answer about a volume is a warning of its own. -/
lemma warnsOfEach_visits {c : Conduct} {p : Pod} {items : List PodVolume} {visits : List Visit}
    (h : List.Forall₂ (Visit.IsTo c p) items visits) : WarnsOfEach (Visit.allDeeds visits) := by
  induction h with
  | nil => exact closed_warnsOfEach.nothing
  | @cons x visit _ _ hvisit _ ih =>
    have hfirst : WarnsOfEach visit.deeds := warnsOfEach_checkVolume c p x _ _ hvisit
    exact closed_warnsOfEach.append hfirst ih

/-- The volumes of a pod are all different exactly when no volume is mentioned twice.  In a round
over a pod that is due, a volume is visited as often as it is mentioned; each time the driver is
asked about it, and each abnormal answer is a warning of its own. -/
theorem cycle_repeats (c : Conduct) (m : Monitor) (p : Pod) :
    (∀ volume, (p.volumes c m).count (p.mounting volume) = p.mentions c m volume) ∧
    ((p.volumes c m).Nodup ↔ ∀ volume, p.mentions c m volume ≤ 1) ∧
    (isDeleting p = false → p.isScheduled = true → ∀ ds r, (cycle c p).Ends ds r →
      (∀ d ∈ ds, d.SeesMounts m) → ∃ seen visits, ds = looked seen :: Visit.allDeeds visits ∧
        List.Forall₂ (Visit.IsTo c p) (p.volumes c m) visits ∧
        ∀ volume call, callAbout? c m p (p.mounting volume) = some call →
          let own := Visit.allDeeds (visitsTo (p.volumes c m) visits (p.mounting volume))
          inquiries own = List.replicate (p.mentions c m volume) (.about call) ∧
          (notices own).countP Notice.isWarning =
            (conditions own).countP Condition.abnormal) := by
  refine ⟨count_volumes c m p, nodup_volumes_iff, fun hdeleting hscheduled ds r h hsees => ?_⟩
  obtain ⟨-, seen, visits, rfl, hvisits, -⟩ := cycle_asks_of_due hdeleting hscheduled h hsees
  refine ⟨seen, visits, rfl, hvisits, fun volume call hcall => ⟨?_, ?_⟩⟩
  · rw [inquiries_visitsTo hvisits (fun d hd => hsees d (List.mem_cons_of_mem _ hd)) hcall,
      count_volumes]
  · exact warnsOfEach_visits (forall₂_visitsTo hvisits (p.mounting volume))

end Pod

/-! ## A claim that is mounted twice -/

namespace MountedTwice

open Happening

/-- A driver that stages nothing. -/
def conduct : Conduct := MixedRound.conduct

/-- A pod that mounts one claim twice. -/
def pod : Pod :=
  ⟨⟨some "app", none, some "default", some "uid-1", none, false⟩, some "node-1",
    [some "pvc1", some "pvc1"]⟩

/-- The volume and its claim become known. -/
def events : List (Happening Empty) :=
  [.observed .volume (.apply (MixedRound.volume "pv1" "h1" "pvc1")),
    .observed .claim (.apply (MixedRound.claim "pvc1" "pv1"))]

/-- The monitor when the round begins. -/
def known : Monitor := leavesAll (.fresh conduct) events

/-- The call about the volume. -/
def call : Call :=
  .node "h1" "/var/lib/kubelet/pods/uid-1/volumes/kubernetes.io~csi/pv1/mount" ""

/-- On a visit the volume is found to be broken, and a warning is sent. -/
def visit (m : Monitor) : List Deed :=
  [looked m, ⟨.probe call (.ofSeconds 15), .answered ⟨true, "broken"⟩⟩, rearmed "uid-1" m,
    sent (Check.warning pod.subject "broken") (.ok ())]

/-- The volume is visited twice. -/
def deeds : List Deed := looked known :: (visit known ++ visit (known.rearm "uid-1"))

lemma ends_round : (Pod.cycle conduct pod).Ends deeds (.ok (.after (.ofSeconds 60))) := by
  refine Process.Does.step _ ?_
  refine Process.Does.step _ ?_
  refine Process.Does.step _ ?_
  refine Process.Does.step _ ?_
  refine Process.Does.step _ ?_
  refine Process.Does.step _ ?_
  refine Process.Does.step _ ?_
  refine Process.Does.step _ ?_
  refine Process.Does.step _ ?_
  exact Process.Does.nothing _

lemma alone_round : known.Alone deeds :=
  ⟨rfl, rfl, trivial, rfl, trivial, rfl, trivial, rfl, trivial, trivial⟩

/-- The volume is mentioned twice, so the driver is asked about it twice. -/
theorem visited_twice :
    ((Pod.cycle conduct pod).Ends deeds (.ok (.after (.ofSeconds 60))) ∧
      isDeleting pod = false ∧ pod.isScheduled = true ∧ (∀ d ∈ deeds, d.SeesMounts known) ∧
      Pod.callAbout? conduct known pod (pod.mounting "pv1") = some call) ∧
    (pod.volumes conduct known).count (pod.mounting "pv1") = 2 ∧
    ∃ visits, inquiries (Pod.Visit.allDeeds (Pod.visitsTo (pod.volumes conduct known) visits
      (pod.mounting "pv1"))) = [.about call, .about call] := by
  have hsees : ∀ d ∈ deeds, d.SeesMounts known :=
    Pod.seesMounts_of_ends_cycle ends_round alone_round
  have hmentions : pod.mentions conduct known "pv1" = 2 := by decide
  obtain ⟨hcount, -, hround⟩ := Pod.cycle_repeats conduct known pod
  obtain ⟨seen, visits, -, -, hown⟩ := hround rfl rfl deeds _ ends_round hsees
  refine ⟨⟨ends_round, rfl, rfl, hsees, rfl⟩, ?_, visits, ?_⟩
  · rw [hcount, hmentions]
  · rw [(hown "pv1" call rfl).1, hmentions]
    rfl

/-- A pod that mounts one claim twice has its volume twice, and in a round the driver is asked about
it twice and two warnings are sent. -/
theorem asked_twice :
    (¬ ∀ (c : Conduct) (p : Pod) (events : List (Happening Empty)),
      (p.volumes c (leavesAll (.fresh c) events)).Nodup) ∧
    pod.volumes conduct known = [⟨"default", "app", "pv1"⟩, ⟨"default", "app", "pv1"⟩] ∧
    (Pod.cycle conduct pod).Ends deeds (.ok (.after (.ofSeconds 60))) ∧ known.Alone deeds ∧
    inquiries deeds = [.about call, .about call] ∧
    notices deeds = [Check.warning pod.subject "broken", Check.warning pod.subject "broken"] := by
  have hvolumes : pod.volumes conduct known =
      [⟨"default", "app", "pv1"⟩, ⟨"default", "app", "pv1"⟩] := by decide
  refine ⟨fun hclaim => ?_, hvolumes, ends_round, alone_round, rfl, rfl⟩
  have hnodup : (pod.volumes conduct known).Nodup := hclaim conduct pod events
  rw [hvolumes] at hnodup
  exact absurd hnodup (by decide)

end MountedTwice

end StorageHealth
