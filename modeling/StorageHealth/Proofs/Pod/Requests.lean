import Mathlib.Data.List.Forall2
import StorageHealth.Proofs.Check.Eligibility
import StorageHealth.Proofs.Cluster.Relist
import StorageHealth.Proofs.Volume.Visits

/-!
# What a round over a pod asks for

The volumes of a pod are visited one after the other, and what is learned on one visit matters to no
other.  As long as the caches of volumes and claims stay as they are (`Deed.SeesMounts`), it can be
told beforehand which call a claim of the pod leads to, if it leads to any (`Pod.call?`).

`Pod.cycle_asks` says that a round makes exactly these calls, in the order of the claims, whatever
the driver answers and whichever notices cannot be published.  It fails when some visit fails, and
tells how many did; the pod is looked after again in either case.
-/

namespace StorageHealth

/-! ## Caches that stay as they are -/

/-- Two monitors know the same volumes and the same claims. -/
structure Monitor.SameMounts (m m' : Monitor) : Prop where
  volumes : m'.cached .volume = m.cached .volume
  claims : m'.cached .claim = m.cached .claim

namespace Monitor.SameMounts

variable {m m' : Monitor} (h : m.SameMounts m')

include h

lemma volume?_eq (name : String) : m'.volume? name = m.volume? name :=
  congrArg (fun s : Store Volume => s.lookup? (.unscoped name)) h.volumes

lemma claim?_eq (k : ClaimKey) : m'.claim? k = m.claim? k :=
  congrArg (fun s : Store Claim => s.lookup? (.within k.ns k.name)) h.claims

/-- The volumes of a pod are found through the caches of volumes and claims. -/
lemma volumes_eq (c : Conduct) (p : Pod) : p.volumes c m' = p.volumes c m := by
  unfold Pod.volumes Pod.volumeBehind
  simp only [h.claim?_eq, h.volume?_eq]

lemma trans {m'' : Monitor} (h' : m'.SameMounts m'') : m.SameMounts m'' :=
  ⟨h'.volumes.trans h.volumes, h'.claims.trans h.claims⟩

end Monitor.SameMounts

namespace Deed

/-- Whoever looks around in this deed sees the volumes and claims that a monitor knows. -/
def SeesMounts (m : Monitor) : Deed → Prop
  | ⟨.update _, before⟩ => m.SameMounts before
  | _ => True

/-- An orderly deed leaves the caches as they are. -/
lemma Tame.sameMounts {d : Deed} (h : d.Tame) (m : Monitor) :
    m.SameMounts (d.effect.leaves m) := by
  have hcaches : (d.effect.leaves m).caches = m.caches := by
    rcases h with hquiet | ⟨uid, m', rfl⟩ | ⟨uid, m', rfl⟩
    · exact (hquiet m).1
    · rfl
    · rfl
  have hcached : ∀ k, (d.effect.leaves m).cached k = m.cached k := by
    intro k
    unfold Monitor.cached
    rw [hcaches]
  exact ⟨hcached .volume, hcached .claim⟩

/-- Whoever has the monitor to themselves and is orderly sees the same volumes and claims
throughout. -/
lemma seesMounts_of_alone {m : Monitor} {ds : List Deed} (htame : ∀ d ∈ ds, d.Tame)
    (halone : m.Alone ds) : ∀ d ∈ ds, d.SeesMounts m := by
  suffices h : ∀ x : Monitor, m.SameMounts x → x.Alone ds → ∀ d ∈ ds, d.SeesMounts m from
    h m ⟨rfl, rfl⟩ halone
  clear halone
  induction ds with
  | nil => simp
  | cons d ds ih =>
    intro x hx hxalone d' hd'
    obtain ⟨hfits, hrest⟩ := hxalone
    have hafter : m.SameMounts (d.effect.leaves x) :=
      hx.trans ((htame d List.mem_cons_self).sameMounts x)
    rcases List.mem_cons.mp hd' with rfl | hd'
    · obtain ⟨effect, answer⟩ := d'
      cases effect with
      | update f =>
        obtain rfl : answer = x := hfits
        exact hx
      | listing deadline => trivial
      | probe call deadline => trivial
      | publish n => trivial
      | pause length => trivial
    · exact ih (fun d hd => htame d (List.mem_cons_of_mem _ hd)) _ hafter hrest d' hd'

end Deed

/-! ## The call of a visit -/

namespace Check

open Deed

/-- The call that a check makes where a pod mounts a volume. -/
def call? (c : Conduct) (v : Volume) (p : Pod) : Option Call :=
  (handleOf c v >>= mountCall c v p).toOption

/-- Where a volume is staged: nowhere, unless the driver stages its volumes. -/
def StagedAt (c : Conduct) (volume staging : String) : Prop :=
  if c.stages then MountPath.stagingPath c.kubeletRoot volume = .ok staging else staging = ""

lemma mountCall_eq_ok_iff {c : Conduct} {v : Volume} {p : Pod} {handle : String} {call : Call} :
    mountCall c v p handle = .ok call ↔ ∃ uid staging, uidOf p = some uid ∧
      StagedAt c (nameOf v) staging ∧ call = .node handle
        (MountPath.volumePath c.kubeletRoot uid (nameOf v) v.isBlock) staging := by
  unfold mountCall StagedAt
  cases huid : uidOf p with
  | none => simp
  | some uid =>
    cases c.stages with
    | false => simp [eq_comm]
    | true =>
      cases MountPath.stagingPath c.kubeletRoot (nameOf v) with
      | error e => simp
      | ok staging => simp [eq_comm]

lemma call?_eq_some_iff {c : Conduct} {v : Volume} {p : Pod} {call : Call} :
    call? c v p = some call ↔
      ∃ handle, v.IsEligible c handle ∧ mountCall c v p handle = .ok call := by
  unfold call?
  cases hhandle : handleOf c v with
  | error e =>
    constructor
    · intro h
      cases h
    · rintro ⟨handle, heligible, -⟩
      cases hhandle.symm.trans (handleOf_eq_ok_iff.mpr heligible)
  | ok handle =>
    have heligible : v.IsEligible c handle := handleOf_eq_ok_iff.mp hhandle
    have hcall : (Except.ok handle >>= mountCall c v p).toOption = some call ↔
        mountCall c v p handle = .ok call := by
      change (mountCall c v p handle).toOption = some call ↔ _
      cases mountCall c v p handle <;> simp [Except.toOption]
    rw [hcall]
    constructor
    · exact fun h => ⟨handle, heligible, h⟩
    · rintro ⟨handle', heligible', h⟩
      rwa [heligible.handle_eq heligible']

/-- A check where a pod mounts the volume makes its call, if there is one, and asks for nothing
else. -/
lemma inquiries_mount {c : Conduct} {v : Volume} {p : Pod} {ds : List Deed}
    {r : Except CheckError Condition} (h : (mount c v p).Ends ds r) :
    inquiries ds = (call? c v p).toList.map .about := by
  unfold mount at h
  unfold call?
  cases hhandle : handleOf c v with
  | error e =>
    rw [hhandle] at h
    obtain ⟨rfl, -⟩ := Attempt.ends_throw_iff.mp h
    rfl
  | ok handle =>
    rw [hhandle] at h
    change Attempt.Ends (liftM (mountCall c v p handle) >>= _) ds r at h
    change _ = (mountCall c v p handle).toOption.toList.map _
    cases hcall : mountCall c v p handle with
    | error e =>
      rw [hcall] at h
      obtain ⟨rfl, -⟩ := Attempt.ends_throw_iff.mp h
      rfl
    | ok call =>
      rw [hcall] at h
      rcases ends_ask_report h with ⟨outcome, rfl, -⟩ | ⟨condition, rest, r', rfl, hreport⟩
      · rfl
      · rw [inquiries_cons_probe, hreport.traffic.1]
        rfl

end Check

namespace Pod

open Deed

/-- A volume as the pod mounts it. -/
def mounting (p : Pod) (volume : String) : PodVolume := ⟨p.home, nameOf p, volume⟩

/-- The call that a visit to a volume of a pod makes. -/
def callAbout? (c : Conduct) (m : Monitor) (p : Pod) (x : PodVolume) : Option Call :=
  if x.isValid then
    (m.volume? x.volume).bind fun v =>
      if isDeleting v || !v.isBound then none else Check.call? c v p
  else none

/-- A visit either comes to nothing after a look at most, or it looks and then checks a volume. -/
lemma checkVolume_cases {c : Conduct} {m : Monitor} {p : Pod} {x : PodVolume} {ds : List Deed}
    {r : Except CheckError Bool} (h : (checkVolume c p x).Ends ds r)
    (hsees : ∀ d ∈ ds, d.SeesMounts m) :
    (callAbout? c m p x = none ∧ ∃ seen : List Monitor, ds = seen.map looked) ∨
      ∃ v seen rest r', callAbout? c m p x = Check.call? c v p ∧ ds = looked seen :: rest ∧
        (Check.mount c v p).Ends rest r' := by
  unfold checkVolume at h
  unfold callAbout?
  cases hvalid : x.isValid with
  | false =>
    rw [hvalid, if_neg Bool.false_ne_true] at h
    obtain ⟨rfl, -⟩ := Attempt.ends_pure_iff.mp h
    exact Or.inl ⟨rfl, [], rfl⟩
  | true =>
    rw [hvalid, if_pos rfl] at h
    obtain ⟨seen, rest, rfl, hrest⟩ := Attempt.ends_look_bind_iff.mp h
    have hseen : m.SameMounts seen := hsees _ List.mem_cons_self
    rw [hseen.volume?_eq] at hrest
    rw [if_pos rfl]
    cases hv : m.volume? x.volume with
    | none =>
      simp only [hv] at hrest
      obtain ⟨rfl, -⟩ := Attempt.ends_pure_iff.mp hrest
      exact Or.inl ⟨rfl, [seen], rfl⟩
    | some v =>
      simp only [hv] at hrest
      rw [Option.bind_some]
      split at hrest
      · rename_i hskipped
        obtain ⟨rfl, -⟩ := Attempt.ends_pure_iff.mp hrest
        exact Or.inl ⟨if_pos hskipped, [seen], rfl⟩
      · rename_i hchecked
        obtain ⟨r', hmount, -⟩ := Attempt.ends_bind_pure_iff.mp hrest
        exact Or.inr ⟨v, seen, rest, r', if_neg hchecked, rfl, hmount⟩

/-- A visit makes the call it is expected to make, and asks for nothing else. -/
lemma inquiries_checkVolume {c : Conduct} {m : Monitor} {p : Pod} {x : PodVolume} {ds : List Deed}
    {r : Except CheckError Bool} (h : (checkVolume c p x).Ends ds r)
    (hsees : ∀ d ∈ ds, d.SeesMounts m) :
    inquiries ds = (callAbout? c m p x).toList.map .about := by
  rcases checkVolume_cases h hsees with
    ⟨hnone, seen, rfl⟩ | ⟨v, seen, rest, r', hcall, rfl, hmount⟩
  · rw [hnone, (Check.idle_map_looked seen).1]
    rfl
  · have hlooked : inquiries (looked seen :: rest) = inquiries rest := rfl
    rw [hlooked, hcall, Check.inquiries_mount hmount]

/-! ## Visits, one after the other -/

/-- A visit to a volume of a pod: what was done, and what came of it. -/
structure Visit where
  deeds : List Deed
  result : Except CheckError Bool

namespace Visit

/-- A visit is one to a volume of a pod. -/
def IsTo (c : Conduct) (p : Pod) (x : PodVolume) (visit : Visit) : Prop :=
  (checkVolume c p x).Ends visit.deeds visit.result

/-- Whether a visit failed. -/
def failed (visit : Visit) : Bool := !visit.result.isOk

/-- What was done on several visits, one after the other. -/
def allDeeds (visits : List Visit) : List Deed := visits.flatMap Visit.deeds

end Visit

/-- Checking several volumes means to visit each of them and to count the failures. -/
lemma exists_visits {c : Conduct} {p : Pod} {items : List PodVolume} {ds : List Deed} {failed : Nat}
    (h : (checkVolumes c p items).Ends ds failed) : ∃ visits,
      List.Forall₂ (Visit.IsTo c p) items visits ∧ ds = Visit.allDeeds visits ∧
        failed = visits.countP Visit.failed := by
  induction items generalizing ds failed with
  | nil =>
    obtain ⟨rfl, rfl⟩ := Process.ends_done_iff.mp h
    exact ⟨[], List.Forall₂.nil, rfl, rfl⟩
  | cons x items ih =>
    obtain ⟨first, result, more, rfl, hfirst, hmore⟩ := Process.ends_bind_iff.mp h
    obtain ⟨others, n, last, rfl, hothers, hlast⟩ := Process.ends_bind_iff.mp hmore
    obtain ⟨rfl, rfl⟩ := Process.ends_done_iff.mp hlast
    obtain ⟨visits, hvisits, rfl, rfl⟩ := ih hothers
    refine ⟨⟨first, result⟩ :: visits, List.Forall₂.cons hfirst hvisits, ?_, ?_⟩
    · rw [List.append_nil]
      rfl
    · rw [List.countP_cons, Nat.add_comm]
      cases result <;> rfl

/-- Visits to volumes make the calls they are expected to make, in the order of the volumes. -/
lemma inquiries_allDeeds {c : Conduct} {m : Monitor} {p : Pod} {items : List PodVolume}
    {visits : List Visit} (h : List.Forall₂ (Visit.IsTo c p) items visits)
    (hsees : ∀ d ∈ Visit.allDeeds visits, d.SeesMounts m) :
    inquiries (Visit.allDeeds visits) = (items.filterMap (callAbout? c m p)).map .about := by
  induction h with
  | nil => rfl
  | @cons x visit items visits hvisit _ ih =>
    have hsplit : Visit.allDeeds (visit :: visits) = visit.deeds ++ Visit.allDeeds visits := rfl
    rw [hsplit] at hsees ⊢
    have hfirst := inquiries_checkVolume hvisit fun d hd => hsees d (List.mem_append_left _ hd)
    have hrest := ih fun d hd => hsees d (List.mem_append_right _ hd)
    rw [inquiries_append, hfirst, hrest, ← List.map_append]
    congr 1
    rw [List.filterMap_cons]
    cases callAbout? c m p x <;> rfl

/-- How a round over volumes ends: well when no visit failed, else with the number of those that
did. -/
def outcome (c : Conduct) (p : Pod) (visits : List Visit) : Except PodError Schedule :=
  if visits.countP Visit.failed = 0 then .ok (.after c.monitorInterval)
  else .error ⟨nameOf p, visits.countP Visit.failed, visits.length⟩

/-- A round over a pod that is due visits the volumes that it found at the beginning. -/
lemma exists_visits_of_cycle {c : Conduct} {p : Pod} (hdeleting : isDeleting p = false)
    (hscheduled : p.isScheduled = true) {ds : List Deed} {r : Except PodError Schedule}
    (h : (cycle c p).Ends ds r) : ∃ seen visits, ds = looked seen :: Visit.allDeeds visits ∧
      List.Forall₂ (Visit.IsTo c p) (p.volumes c seen) visits ∧ r = outcome c p visits := by
  have hdue : ¬ (isDeleting p || !p.isScheduled) = true := by simp [hdeleting, hscheduled]
  rw [cycle, if_neg hdue] at h
  obtain ⟨seen, rest, rfl, hrest⟩ := Attempt.ends_look_bind_iff.mp h
  obtain ⟨all, failed, last, rfl, hall, hlast⟩ := Attempt.ends_lift_bind_iff.mp hrest
  obtain ⟨visits, hvisits, rfl, rfl⟩ := exists_visits hall
  refine ⟨seen, visits, ?_, hvisits, ?_⟩
  · have hnothing : last = [] := by
      split at hlast
      · exact (Attempt.ends_pure_iff.mp hlast).1
      · exact (Attempt.ends_throw_iff.mp hlast).1
    rw [hnothing, List.append_nil]
  · unfold outcome
    rw [← hvisits.length_eq]
    split at hlast
    · rename_i hwell
      rw [if_pos hwell]
      exact (Attempt.ends_pure_iff.mp hlast).2
    · rename_i hfailed
      rw [if_neg hfailed]
      exact (Attempt.ends_throw_iff.mp hlast).2

/-! ## The calls of a round -/

/-- The call that a claim of a pod leads to. -/
def call? (c : Conduct) (m : Monitor) (p : Pod) (claim : String) : Option Call :=
  (volumeBehind c m p.home claim).bind fun volume => callAbout? c m p (p.mounting volume)

/-- A claim of a pod leads to a volume: it is known in the namespace of the pod, it is bound, and
the volume it names is known and served by the driver. -/
def Resolves (c : Conduct) (m : Monitor) (p : Pod) (claim volume : String) (v : Volume) : Prop :=
  ∃ bound : Claim, m.claim? ⟨p.home, claim⟩ = some bound ∧ bound.phase = some "Bound" ∧
    bound.volumeName = some volume ∧ volume ≠ "" ∧
    m.volume? volume = some v ∧ v.driver = some c.driver

/-- The volume a claim leads to has a name and is known under it. -/
lemma Resolves.known {c : Conduct} {m : Monitor} {p : Pod} {claim volume : String} {v : Volume}
    (h : p.Resolves c m claim volume v) : volume ≠ "" ∧ m.volume? volume = some v := by
  obtain ⟨bound, -, -, -, hne, hv, -⟩ := h
  exact ⟨hne, hv⟩

/-- A claim of a pod asks for a call: the pod is named and has a uid, and the volume that the claim
leads to may be checked and is not being deleted. -/
def Asks (c : Conduct) (m : Monitor) (p : Pod) (claim : String) (call : Call) : Prop :=
  p.home ≠ "" ∧ nameOf p ≠ "" ∧ ∃ uid volume v handle staging,
    uidOf p = some uid ∧ p.Resolves c m claim volume v ∧ isDeleting v = false ∧
    v.IsEligible c handle ∧ Check.StagedAt c volume staging ∧
    call = .node handle (MountPath.volumePath c.kubeletRoot uid volume v.isBlock) staging

lemma filterMap_volumes (c : Conduct) (m : Monitor) (p : Pod) :
    (p.volumes c m).filterMap (callAbout? c m p) = p.claimNames.filterMap (p.call? c m) := by
  unfold volumes
  rw [List.filterMap_filterMap]
  refine List.filterMap_congr fun claim _ => ?_
  unfold call?
  cases volumeBehind c m p.home claim <;> rfl

lemma volumeBehind_eq_some_iff {c : Conduct} {m : Monitor} {p : Pod} {claim volume : String} :
    volumeBehind c m p.home claim = some volume ↔ ∃ v, p.Resolves c m claim volume v := by
  have hbound : ∀ bound : Claim, bound.isBound = true ↔ bound.phase = some "Bound" := by
    simp [Claim.isBound]
  have hnamed : ∀ bound : Claim, bound.boundVolume = some volume ↔
      bound.volumeName = some volume ∧ volume ≠ "" := by
    simp [Claim.boundVolume, Option.filter_eq_some_iff]
  unfold volumeBehind
  constructor
  · intro h
    obtain ⟨bound, hclaim, h⟩ := Option.bind_eq_some_iff.mp h
    split at h
    · rename_i hphase
      obtain ⟨name, hname, h⟩ := Option.bind_eq_some_iff.mp h
      obtain ⟨v, hv, h⟩ := Option.bind_eq_some_iff.mp h
      split at h
      · rename_i hdriver
        obtain rfl := Option.some.inj h
        obtain ⟨hvolume, hne⟩ := (hnamed bound).mp hname
        exact ⟨v, bound, hclaim, (hbound bound).mp hphase, hvolume, hne, hv,
          Volume.isManagedBy_iff.mp hdriver⟩
      · cases h
    · cases h
  · rintro ⟨v, bound, hclaim, hphase, hvolume, hne, hv, hdriver⟩
    simp [hclaim, (hbound bound).mpr hphase, (hnamed bound).mpr ⟨hvolume, hne⟩, hv,
      Volume.isManagedBy_iff.mpr hdriver]

/-- A cached volume has the name under which it is found. -/
lemma nameOf_of_volume? {m : Monitor} (hm : (m.cached .volume).Sound) {name : String} {v : Volume}
    (h : m.volume? name = some v) : nameOf v = name := by
  rcases hm.of_lookup h with hkey | hkey
  · exact congrArg ObjectKey.name hkey
  · exact congrArg ObjectKey.name hkey

lemma isValid_mounting (p : Pod) {volume : String} (hne : volume ≠ "") :
    (p.mounting volume).isValid = true ↔ p.home ≠ "" ∧ nameOf p ≠ "" := by
  unfold PodVolume.isValid
  rw [Bool.and_eq_true, Bool.and_eq_true, decide_eq_true_eq, decide_eq_true_eq, decide_eq_true_eq]
  exact and_iff_left hne

lemma callAbout?_eq_some_iff {c : Conduct} {m : Monitor} {p : Pod} {x : PodVolume} {call : Call} :
    callAbout? c m p x = some call ↔ x.isValid = true ∧ ∃ v, m.volume? x.volume = some v ∧
      isDeleting v = false ∧ Check.call? c v p = some call := by
  unfold callAbout?
  constructor
  · intro h
    split at h
    · rename_i hvalid
      obtain ⟨v, hv, h⟩ := Option.bind_eq_some_iff.mp h
      split at h
      · cases h
      · rename_i hchecked
        simp only [Bool.or_eq_true, not_or, Bool.not_eq_true] at hchecked
        exact ⟨hvalid, v, hv, hchecked.1, h⟩
    · cases h
  · rintro ⟨hvalid, v, hv, hdeleting, hcall⟩
    obtain ⟨handle, heligible, -⟩ := Check.call?_eq_some_iff.mp hcall
    have hbound : v.isBound = true := Volume.isBound_iff.mpr heligible.bound
    simp [hvalid, hv, hdeleting, hbound, hcall]

/-- Which claims lead to a call, and to which one. -/
lemma call?_eq_some_iff {c : Conduct} {m : Monitor} (hm : (m.cached .volume).Sound) {p : Pod}
    {claim : String} {call : Call} : p.call? c m claim = some call ↔ p.Asks c m claim call := by
  unfold call?
  rw [Option.bind_eq_some_iff]
  constructor
  · rintro ⟨volume, hvolume, hcall⟩
    obtain ⟨v, hresolves⟩ := volumeBehind_eq_some_iff.mp hvolume
    obtain ⟨hne, hv⟩ := hresolves.known
    obtain ⟨hvalid, v', hv', hdeleting, hcheck⟩ := callAbout?_eq_some_iff.mp hcall
    obtain rfl : v = v' := Option.some.inj (hv.symm.trans hv')
    obtain ⟨handle, heligible, hmount⟩ := Check.call?_eq_some_iff.mp hcheck
    obtain ⟨uid, staging, huid, hstaging, hcall⟩ := Check.mountCall_eq_ok_iff.mp hmount
    obtain ⟨hhome, hname⟩ := (isValid_mounting p hne).mp hvalid
    rw [nameOf_of_volume? hm hv] at hstaging hcall
    exact ⟨hhome, hname, uid, volume, v, handle, staging, huid, hresolves, hdeleting,
      heligible, hstaging, hcall⟩
  · rintro ⟨hhome, hname, uid, volume, v, handle, staging, huid, hresolves, hdeleting, heligible,
      hstaging, hcall⟩
    obtain ⟨hne, hv⟩ := hresolves.known
    refine ⟨volume, volumeBehind_eq_some_iff.mpr ⟨v, hresolves⟩, ?_⟩
    have hvalid : (p.mounting volume).isValid = true :=
      (isValid_mounting p hne).mpr ⟨hhome, hname⟩
    refine callAbout?_eq_some_iff.mpr ⟨hvalid, v, hv, hdeleting, ?_⟩
    refine Check.call?_eq_some_iff.mpr ⟨handle, heligible, ?_⟩
    refine Check.mountCall_eq_ok_iff.mpr ⟨uid, staging, huid, ?_⟩
    rw [nameOf_of_volume? hm hv]
    exact ⟨hstaging, hcall⟩

/-- A pod that is being deleted or has no node is left alone. -/
lemma ends_cycle_of_not_due {c : Conduct} {p : Pod}
    (hnot : isDeleting p = true ∨ p.isScheduled = false) {ds : List Deed}
    {r : Except PodError Schedule} (h : (cycle c p).Ends ds r) : ds = [] ∧ r = .ok .onChange := by
  have hskipped : (isDeleting p || !p.isScheduled) = true := by
    rcases hnot with hdeleting | hunscheduled
    · simp [hdeleting]
    · simp [hunscheduled]
  rw [cycle, if_pos hskipped] at h
  exact Attempt.ends_pure_iff.mp h

/-- A round that has the monitor to itself sees the same volumes and claims throughout. -/
lemma seesMounts_of_ends_cycle {c : Conduct} {p : Pod} {ds : List Deed}
    {r : Except PodError Schedule} (h : (cycle c p).Ends ds r) {m : Monitor}
    (halone : m.Alone ds) : ∀ d ∈ ds, d.SeesMounts m := by
  have horderly : Orderly ds := orderly_cycle c p ds r h
  exact seesMounts_of_alone (fun d hd => horderly.tame hd) halone

/-- A round over a pod that is due makes the calls that its claims lead to, and fails when one of
its visits does. -/
lemma cycle_asks_of_due {c : Conduct} {p : Pod} (hdeleting : isDeleting p = false)
    (hscheduled : p.isScheduled = true) {m : Monitor} {ds : List Deed}
    {r : Except PodError Schedule} (h : (cycle c p).Ends ds r) (hsees : ∀ d ∈ ds, d.SeesMounts m) :
    inquiries ds = (p.claimNames.filterMap (p.call? c m)).map .about ∧
      ∃ seen visits, ds = looked seen :: Visit.allDeeds visits ∧
        List.Forall₂ (Visit.IsTo c p) (p.volumes c m) visits ∧ r = outcome c p visits := by
  obtain ⟨seen, visits, rfl, hvisits, hr⟩ := exists_visits_of_cycle hdeleting hscheduled h
  have hseen : m.SameMounts seen := hsees _ List.mem_cons_self
  rw [hseen.volumes_eq] at hvisits
  have hall : inquiries (looked seen :: Visit.allDeeds visits) =
      inquiries (Visit.allDeeds visits) := rfl
  refine ⟨?_, seen, visits, rfl, hvisits, hr⟩
  rw [hall, inquiries_allDeeds hvisits fun d hd => hsees d (List.mem_cons_of_mem _ hd),
    filterMap_volumes]

/-- Whatever becomes of a round, a pod that is due is looked after again. -/
lemma answer_of_ends_cycle {c : Conduct} {now : Nat} {node : String} {p : Pod} {ds : List Deed}
    {answer : Schedule} (h : (Care.cycle c now (.pods node) p).Ends ds answer) :
    answer = if isDeleting p || !p.isScheduled then .onChange else .after c.monitorInterval := by
  obtain ⟨r, hr, rfl⟩ := Volume.ends_scheduled_iff.mp h
  split
  · rename_i hskipped
    have hnot : isDeleting p = true ∨ p.isScheduled = false := by simpa using hskipped
    rw [(ends_cycle_of_not_due hnot hr).2]
    rfl
  · rename_i hdue
    obtain ⟨hdeleting, hscheduled⟩ : isDeleting p = false ∧ p.isScheduled = true := by
      simpa using hdue
    obtain ⟨_, visits, _, _, rfl⟩ := exists_visits_of_cycle hdeleting hscheduled hr
    unfold outcome afterFailure
    split <;> rfl

/-- A pod that is due is asked about claim by claim: each claim that leads to a call gets its call,
in the order of the claims, whatever is answered and whatever can be published.  The round fails
exactly when some visit fails, and tells how many of the visits did.  Either way the pod is looked
after again, and a pod that is not due waits for a change. -/
theorem cycle_asks (c : Conduct) (p : Pod) :
    (isDeleting p = true ∨ p.isScheduled = false → ∀ ds r, (cycle c p).Ends ds r →
      Unnoticed ds ∧ r = .ok .onChange) ∧
    (isDeleting p = false → p.isScheduled = true → ∀ m : Monitor,
      ((m.cached .volume).Sound → ∀ claim call,
        p.call? c m claim = some call ↔ p.Asks c m claim call) ∧
      ∀ ds r, (cycle c p).Ends ds r → (∀ d ∈ ds, d.SeesMounts m) →
        inquiries ds = (p.claimNames.filterMap (p.call? c m)).map .about ∧
        ∃ seen visits, ds = looked seen :: Visit.allDeeds visits ∧
          List.Forall₂ (Visit.IsTo c p) (p.volumes c m) visits ∧
          ((∀ visit ∈ visits, visit.failed = false) → r = .ok (.after c.monitorInterval)) ∧
          ((∃ visit ∈ visits, visit.failed = true) →
            r = .error ⟨nameOf p, visits.countP Visit.failed, (p.volumes c m).length⟩)) ∧
    ∀ now node ds answer, (Care.cycle c now (.pods node) p).Ends ds answer →
      answer = if isDeleting p || !p.isScheduled then .onChange else .after c.monitorInterval := by
  refine ⟨?_, ?_, fun _ _ _ _ h => answer_of_ends_cycle h⟩
  · intro hnot ds r h
    obtain ⟨rfl, hr⟩ := ends_cycle_of_not_due hnot h
    exact ⟨⟨rfl, rfl⟩, hr⟩
  · intro hdeleting hscheduled m
    refine ⟨fun hm claim call => call?_eq_some_iff hm, fun ds r h hsees => ?_⟩
    obtain ⟨hasks, seen, visits, hds, hvisits, hr⟩ :=
      cycle_asks_of_due hdeleting hscheduled h hsees
    refine ⟨hasks, seen, visits, hds, hvisits, fun hwell => ?_, fun hfailed => ?_⟩
    · have hzero : visits.countP Visit.failed = 0 :=
        List.countP_eq_zero.mpr fun visit hvisit => by simp [hwell visit hvisit]
      rw [hr, outcome, if_pos hzero]
    · have hpos : visits.countP Visit.failed ≠ 0 := by
        rw [Ne, List.countP_eq_zero]
        obtain ⟨visit, hvisit, hfails⟩ := hfailed
        exact fun hnone => hnone visit hvisit hfails
      rw [hr, outcome, if_neg hpos, hvisits.length_eq]

end Pod

/-! ## A round with gaps -/

namespace SomeClaims

open Happening Deed

/-- A driver that stages its volumes. -/
def conduct : Conduct := .usual "csi"

/-- A pod that mounts four claims, the second of which is not known. -/
def pod : Pod :=
  ⟨⟨some "app", none, some "default", some "uid-1", none, false⟩, some "node-1",
    [some "pvc1", none, some "pvc2", some "pvc3", some "pvc4"]⟩

/-- A volume that is being deleted. -/
def leaving : Volume :=
  { MixedRound.volume "pv3" "h3" "pvc3" with
    identity := ⟨some "pv3", none, none, none, none, true⟩ }

/-- A raw block device. -/
def device : Volume := { MixedRound.volume "pv4" "h4" "pvc4" with mode := some "Block" }

/-- The volumes become known. -/
def volumes : List (WatchEvent Volume) :=
  [.apply (MixedRound.volume "pv1" "h1" "pvc1"), .apply leaving, .apply device]

/-- The volumes and three of the claims become known. -/
def events : List (Happening Empty) :=
  volumes.map (.observed .volume) ++
    [.observed .claim (.apply (MixedRound.claim "pvc1" "pv1")),
      .observed .claim (.apply (MixedRound.claim "pvc3" "pv3")),
      .observed .claim (.apply (MixedRound.claim "pvc4" "pv4"))]

/-- The monitor when the round begins. -/
def known : Monitor := leavesAll (.fresh conduct) events

/-- The call about the first volume. -/
def first : Call :=
  .node "h1" "/var/lib/kubelet/pods/uid-1/volumes/kubernetes.io~csi/pv1/mount"
    "/var/lib/kubelet/plugins/kubernetes.io/csi/pv/pv1/globalmount"

/-- The call about the device. -/
def last : Call :=
  .node "h4" "/var/lib/kubelet/pods/uid-1/volumeDevices/kubernetes.io~csi/pv4"
    "/var/lib/kubelet/plugins/kubernetes.io/csi/pv/pv4/globalmount"

/-- The driver is late for the first volume, the second one is passed over, and the device is
broken. -/
def deeds : List Deed :=
  [looked known, looked known, ⟨.probe first (.ofSeconds 15), .late⟩, looked known, looked known,
    ⟨.probe last (.ofSeconds 15), .answered ⟨true, "broken"⟩⟩, rearmed "uid-1" known,
    sent (Check.warning pod.subject "broken") (.ok ())]

lemma ends_round : (Pod.cycle conduct pod).Ends deeds (.error ⟨"app", 1, 3⟩) := by
  refine Process.Does.step _ ?_
  refine Process.Does.step _ ?_
  refine Process.Does.step _ ?_
  refine Process.Does.step _ ?_
  refine Process.Does.step _ ?_
  refine Process.Does.step _ ?_
  refine Process.Does.step _ ?_
  refine Process.Does.step _ ?_
  exact Process.Does.nothing _

lemma alone_round : known.Alone deeds :=
  ⟨rfl, rfl, trivial, rfl, rfl, trivial, rfl, trivial, trivial⟩

lemma sound_known : (known.cached .volume).Sound :=
  (Informer.sound_fresh.observeAll volumes).store

/-- The claim that is not known and the volume that is being deleted cost nothing, and that the
driver is late for the first volume does not keep it from being asked about the last one. -/
theorem asks_round :
    ((Pod.cycle conduct pod).Ends deeds (.error ⟨"app", 1, 3⟩) ∧ isDeleting pod = false ∧
      pod.isScheduled = true ∧ (known.cached .volume).Sound ∧ ∀ d ∈ deeds, d.SeesMounts known) ∧
    inquiries deeds = [.about first, .about last] ∧
    pod.Asks conduct known "pvc1" first ∧ pod.Asks conduct known "pvc4" last ∧
    ∀ now answer, (Care.cycle conduct now (.pods "node-1") pod).Ends deeds answer →
      answer = .after (.ofSeconds 60) := by
  obtain ⟨-, hdue, hanswer⟩ := Pod.cycle_asks conduct pod
  have hsees : ∀ d ∈ deeds, d.SeesMounts known :=
    Pod.seesMounts_of_ends_cycle ends_round alone_round
  obtain ⟨hcalls, hround⟩ := hdue rfl rfl known
  obtain ⟨hasks, -⟩ := hround deeds _ ends_round hsees
  have hclaims : pod.claimNames.filterMap (pod.call? conduct known) = [first, last] := by rfl
  rw [hclaims] at hasks
  refine ⟨⟨ends_round, rfl, rfl, sound_known, hsees⟩, hasks, ?_, ?_, ?_⟩
  · exact (hcalls sound_known "pvc1" first).mp rfl
  · exact (hcalls sound_known "pvc4" last).mp rfl
  · exact fun now answer h => hanswer now "node-1" deeds answer h

end SomeClaims

end StorageHealth
