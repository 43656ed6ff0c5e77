import StorageHealth.Proofs.Pod.Round
import StorageHealth.Proofs.Process.Traffic

/-!
# Which volumes the driver is asked about

A check from the controller and a check where a pod mounts the volume are guarded by different
preconditions, but what follows is the same: one call, and a report of what is learned.  `Sparing`
says what this comes to for a check that is `due` under some handle and on some subject.  Then the
driver is asked exactly once, otherwise not at all, and whatever does not come to a condition leaves
no trace.

`controller_mount_sparing` says that both checks are sparing, and in terms of the volume, its claim
and the pod when they are due.
-/

namespace StorageHealth

/-! ## Eligible volumes -/

lemma Volume.isManagedBy_iff {v : Volume} {driver : String} :
    v.isManagedBy driver = true ↔ v.driver = some driver := by
  simp [Volume.isManagedBy]

lemma Volume.isBound_iff {v : Volume} : v.isBound = true ↔ v.phase = some "Bound" := by
  simp [Volume.isBound]

/-- A volume may be checked under a handle: it belongs to the driver, it is bound, and the handle is
its own and not empty. -/
structure Volume.IsEligible (c : Conduct) (v : Volume) (handle : String) : Prop where
  managed : v.driver = some c.driver
  bound : v.phase = some "Bound"
  own : v.handle = some handle
  nonempty : handle ≠ ""

/-- A volume may be checked under one handle at most. -/
lemma Volume.IsEligible.handle_eq {c : Conduct} {v : Volume} {handle handle' : String}
    (h : v.IsEligible c handle) (h' : v.IsEligible c handle') : handle = handle' :=
  Option.some.inj (h.own.symm.trans h'.own)

/-- The claim that a volume refers to by namespace and name is known. -/
def Volume.IsBoundTo (m : Monitor) (v : Volume) (claim : Claim) : Prop :=
  ∃ ns name, v.claimRef = some ⟨some ns, some name⟩ ∧ m.claim? ⟨ns, name⟩ = some claim

/-- A volume refers to one claim at most. -/
lemma Volume.IsBoundTo.claim_eq {m : Monitor} {v : Volume} {claim claim' : Claim}
    (h : v.IsBoundTo m claim) (h' : v.IsBoundTo m claim') : claim' = claim := by
  obtain ⟨ns, name, href, hclaim⟩ := h
  obtain ⟨ns', name', href', hclaim'⟩ := h'
  rw [href] at href'
  cases href'
  exact Option.some.inj (hclaim'.symm.trans hclaim)

namespace Check

open Deed

lemma handleOf_eq_ok_iff {c : Conduct} {v : Volume} {handle : String} :
    handleOf c v = .ok handle ↔ v.IsEligible c handle := by
  unfold handleOf
  constructor
  · intro h
    split at h
    · cases h
    · split at h
      · cases h
      · split at h
        · cases h
        · rename_i hm hb hne
          cases hv : v.handle with
          | none => simp [hv] at hne
          | some own =>
            rw [hv] at h hne
            cases h
            exact ⟨Volume.isManagedBy_iff.mp (by simpa using hm),
              Volume.isBound_iff.mp (by simpa using hb), hv, hne⟩
  · intro h
    simp [Volume.isManagedBy_iff.mpr h.managed, Volume.isBound_iff.mpr h.bound, h.own, h.nonempty]

lemma claimOf_eq_ok_iff {m : Monitor} {v : Volume} {claim : Claim} :
    claimOf m v = .ok claim ↔ v.IsBoundTo m claim := by
  have hclaim : ∀ key, v.claim = some key ↔ v.claimRef = some ⟨some key.ns, some key.name⟩ := by
    rintro ⟨ns, name⟩
    rcases hv : v.claimRef with _ | ⟨_ | ns', _ | name'⟩ <;> simp [Volume.claim, hv]
  unfold claimOf
  constructor
  · intro h
    split at h
    · cases h
    · rename_i key hkey
      split at h
      · cases h
      · rename_i known hknown
        cases h
        exact ⟨key.ns, key.name, (hclaim key).mp hkey, hknown⟩
  · rintro ⟨ns, name, href, hknown⟩
    have hkey : v.claim = some ⟨ns, name⟩ := (hclaim _).mpr href
    simp [hkey, hknown]

/-- The call about a mounted volume is about the handle, and it can be made when the pod has a uid
and the volume, if it is staged, a name. -/
lemma mountCall_cases (c : Conduct) (v : Volume) (p : Pod) (handle : String) :
    (∃ path staging, mountCall c v p handle = .ok (.node handle path staging) ∧
      (∃ uid, uidOf p = some uid) ∧ (c.stages = true → nameOf v ≠ "")) ∨
    ∃ e, mountCall c v p handle = .error e ∧
      ¬ ((∃ uid, uidOf p = some uid) ∧ (c.stages = true → nameOf v ≠ "")) := by
  unfold mountCall
  cases hp : uidOf p with
  | none => exact Or.inr ⟨_, rfl, by simp⟩
  | some uid =>
    cases hc : c.stages with
    | false => exact Or.inl ⟨_, _, rfl, ⟨uid, rfl⟩, by simp⟩
    | true =>
      by_cases hv : nameOf v = ""
      · refine Or.inr ⟨.path .emptyVolumeName, ?_, by simp [hv]⟩
        simp [MountPath.stagingPath, hv]
      · obtain ⟨staging, hstaging⟩ :
            ∃ staging, MountPath.stagingPath c.kubeletRoot (nameOf v) = .ok staging :=
          ⟨_, if_neg hv⟩
        refine Or.inl ⟨MountPath.volumePath c.kubeletRoot uid (nameOf v) v.isBlock, staging, ?_,
          ⟨uid, rfl⟩, fun _ => hv⟩
        simp [hstaging]

/-! ## Sparing checks -/

/-- What is promised of a check that is due under some handle and on some subject. -/
structure Sparing (method : Method) (due : String → Subject → Prop) (ds : List Deed)
    (r : Except CheckError Condition) : Prop where
  /-- A check that is due asks the driver once, by the method and about the handle. -/
  asks : ∀ handle s, due handle s →
    ∃ call : Call, call.method = method ∧ call.handle = handle ∧ inquiries ds = [.about call]
  /-- A check that is not due asks nothing and fails. -/
  declines : (∀ handle s, ¬ due handle s) → inquiries ds = [] ∧ ∃ e, r = .error e
  /-- Without a condition nothing is sent and nothing is changed. -/
  inconclusive : conditions ds = [] → notices ds = [] ∧ ∀ d ∈ ds, d.Idle
  /-- At most one notice is sent, and it is about the subject. -/
  reports : (notices ds).length ≤ 1 ∧ ∀ n ∈ notices ds, ∃ handle, due handle n.subject

/-- Looking asks for nothing, sends nothing, learns nothing and changes nothing. -/
lemma idle_map_looked (ms : List Monitor) : inquiries (ms.map looked) = [] ∧
    notices (ms.map looked) = [] ∧ conditions (ms.map looked) = [] ∧
      ∀ d ∈ ms.map looked, d.Idle := by
  have hskipped : ∀ {β : Type} (f : Deed → Option β), (∀ m, f (looked m) = none) →
      (ms.map looked).filterMap f = [] := by
    intro β f hf
    rw [List.filterMap_eq_nil_iff]
    intro d hd
    obtain ⟨m, -, rfl⟩ := List.mem_map.mp hd
    exact hf m
  refine ⟨hskipped _ fun _ => rfl, hskipped _ fun _ => rfl, hskipped _ fun _ => rfl, ?_⟩
  intro d hd
  obtain ⟨m, -, rfl⟩ := List.mem_map.mp hd
  exact fun _ => rfl

/-- A report asks for nothing and sends at most one notice, about its subject. -/
lemma Reported.traffic {s : Subject} {condition : Condition} {ds : List Deed}
    {r : Except CheckError Unit} (h : Reported s condition ds r) :
    inquiries ds = [] ∧ (notices ds).length ≤ 1 ∧ ∀ n ∈ notices ds, n.subject = s := by
  cases h with
  | nameless _ => simp
  | warned _ _ m outcome => simp [rearmed, sent, warning]
  | quiet _ _ _ => simp [looked]
  | refused _ _ _ e => simp [looked, sent, recovery]
  | recovered _ _ _ m' => simp [looked, sent, settled, recovery]

/-- A check that only looks and fails is sparing when it is not due. -/
lemma sparing_of_declined {method : Method} {due : String → Subject → Prop}
    (hnot : ∀ handle s, ¬ due handle s) (ms : List Monitor) (e : CheckError) :
    Sparing method due (ms.map looked) (.error e) := by
  obtain ⟨hinquiries, hnotices, -, hidle⟩ := idle_map_looked ms
  refine ⟨fun handle s hdue => absurd hdue (hnot handle s), fun _ => ⟨hinquiries, e, rfl⟩,
    fun _ => ⟨hnotices, hidle⟩, ?_⟩
  rw [hnotices]
  simp

/-- A check that looks, asks and reports is sparing when it is due for the call and the subject. -/
lemma sparing_of_asked {method : Method} {due : String → Subject → Prop} {c : Conduct} {v : Volume}
    {call : Call} {s : Subject} (hdue : ∀ handle s', due handle s' ↔ call.handle = handle ∧ s' = s)
    (hmethod : call.method = method) (ms : List Monitor) {ds : List Deed}
    {r : Except CheckError Condition}
    (h : Attempt.Ends (ask c v call >>= fun condition =>
      report s condition >>= fun _ => pure condition) ds r) :
    Sparing method due (ms.map looked ++ ds) r := by
  obtain ⟨hinquiries, hnotices, hconditions, hidle⟩ := idle_map_looked ms
  have hasks : inquiries ds = [.about call] → ∀ handle s', due handle s' → ∃ call : Call,
      call.method = method ∧ call.handle = handle ∧
        inquiries (ms.map looked ++ ds) = [.about call] := by
    intro hds handle s' h
    refine ⟨call, hmethod, ((hdue handle s').mp h).1, ?_⟩
    rw [inquiries_append, hinquiries, hds, List.nil_append]
  have hdeclines : (∀ handle s', ¬ due handle s') → inquiries (ms.map looked ++ ds) = [] ∧
      ∃ e, r = .error e :=
    fun hnot => absurd ((hdue _ _).mpr ⟨rfl, rfl⟩) (hnot call.handle s)
  rcases ends_ask_report h with ⟨outcome, rfl, hnone⟩ | ⟨condition, rest, r', rfl, hreport⟩
  · refine ⟨hasks (by simp), hdeclines, fun _ => ⟨by simp [hnotices], ?_⟩, by simp [hnotices]⟩
    intro d hd
    rcases List.mem_append.mp hd with hd | hd
    · exact hidle d hd
    · rw [List.mem_singleton.mp hd]
      exact fun _ => rfl
  · obtain ⟨hinquiries', hlength, hsubject⟩ := hreport.traffic
    refine ⟨hasks (by simp [hinquiries']), hdeclines, ?_, ?_, ?_⟩
    · intro hnone
      have hcondition := conditions_cons_answered call c.timeout hreport []
      rw [List.append_nil] at hcondition
      rw [conditions, List.filterMap_append] at hnone
      rw [← conditions, ← conditions, hcondition] at hnone
      simp at hnone
    · simpa [hnotices] using hlength
    · intro n hn
      rw [notices_append, hnotices, List.nil_append, notices_cons_probe] at hn
      exact ⟨call.handle, (hdue _ _).mpr ⟨rfl, hsubject n hn⟩⟩

/-- Both checks begin with the volume itself, so they are sparing when the rest of them is sparing
for eligible volumes. -/
lemma sparing_of_eligible {method : Method} {due : String → Subject → Prop} {c : Conduct}
    {v : Volume} (hdue : ∀ handle s, due handle s → v.IsEligible c handle)
    {goOn : String → Attempt CheckError Condition} {ds : List Deed}
    {r : Except CheckError Condition} (h : Attempt.Ends (liftM (handleOf c v) >>= goOn) ds r)
    (hgoOn : ∀ handle, v.IsEligible c handle → (goOn handle).Ends ds r →
      Sparing method due ds r) : Sparing method due ds r := by
  rcases Attempt.ends_bind_iff.mp h with
    ⟨first, handle, rest, rfl, hhandle, hrest⟩ | ⟨e, rfl, hhandle⟩
  · obtain ⟨rfl, hok⟩ := Attempt.ends_ofExcept_iff.mp hhandle
    exact hgoOn handle (handleOf_eq_ok_iff.mp hok.symm) hrest
  · obtain ⟨rfl, herror⟩ := Attempt.ends_ofExcept_iff.mp hhandle
    refine sparing_of_declined (fun handle s h => ?_) [] e
    cases herror.trans (handleOf_eq_ok_iff.mpr (hdue handle s h))

/-! ## The two checks -/

/-- A check where a pod mounts the volume is due for an eligible volume when the pod has a uid and
the volume, if volumes are staged, a name. -/
lemma sparing_mount {c : Conduct} {v : Volume} {p : Pod} {ds : List Deed}
    {r : Except CheckError Condition} (h : (mount c v p).Ends ds r) :
    Sparing .volumeStats (fun handle s => v.IsEligible c handle ∧
      ((∃ uid, uidOf p = some uid) ∧ (c.stages = true → nameOf v ≠ "")) ∧ s = p.subject) ds r := by
  refine sparing_of_eligible (fun _ _ hdue => hdue.1) h fun handle heligible hgoOn => ?_
  rcases mountCall_cases c v p handle with ⟨path, staging, hcall, hready⟩ | ⟨e, hcall, hnot⟩
  · rw [hcall] at hgoOn
    refine sparing_of_asked (fun handle' s => ?_) rfl [] hgoOn
    constructor
    · rintro ⟨heligible', -, rfl⟩
      exact ⟨heligible.handle_eq heligible', rfl⟩
    · rintro ⟨rfl, rfl⟩
      exact ⟨heligible, hready, rfl⟩
  · rw [hcall] at hgoOn
    obtain ⟨rfl, rfl⟩ := Attempt.ends_throw_iff.mp hgoOn
    exact sparing_of_declined (fun handle s hdue => hnot hdue.2.1) [] e

end Check

/-! ## Two checks of a volume -/

namespace TwoChecks

open Happening Deed

/-- A driver that stages its volumes. -/
def conduct : Conduct := .usual "csi"

/-- A volume that is bound to a known claim. -/
def volume : Volume := MixedRound.volume "pv1" "h1" "pvc1"

/-- The claim that is known. -/
def claim : Claim := MixedRound.claim "pvc1" "pv1"

/-- A pod that mounts the volume. -/
def pod : Pod := MixedRound.pod

/-- The monitor when the claim is known. -/
def known : Monitor := leavesAll (ι := Empty) (.fresh conduct) [.observed .claim (.apply claim)]

/-- The controller asks, and the driver is late. -/
def late : List Deed := [looked known, ⟨.probe (.controller "h1") (.ofSeconds 15), .late⟩]

/-- An agent asks about the volume as the pod mounts it. -/
def call : Call :=
  .node "h1" (MountPath.volumePath MountPath.defaultRoot "uid-1" "pv1" false)
    "/var/lib/kubelet/plugins/kubernetes.io/csi/pv/pv1/globalmount"

/-- An agent asks, and the volume is broken. -/
def broken : List Deed :=
  [⟨.probe call (.ofSeconds 15), .answered ⟨true, "broken"⟩⟩, rearmed "uid-1" known,
    sent (Check.warning pod.subject "broken") (.ok ())]

end TwoChecks

end StorageHealth
