import Mathlib.Data.List.Basic
import StorageHealth.Monitor
import StorageHealth.Proofs.Index.Mirror
import StorageHealth.Proofs.Text.Joined

/-!
# The warnings are the cached events

The index of recent events names its groups and members by plain text, and it only hears what the
informer of events reports.  `contains_iff_exists_cached` says that it answers as if it looked into
the cache itself, as long as the texts can be taken apart again: namespaces hold no slash, uids and
types no colon (`Event.Plain`).
-/

namespace StorageHealth

/-! ## Texts that can be taken apart -/

/-- The name of a group says what it is about, when the parts before the colons hold none. -/
lemma eventGroup_inj {uid uid' kind kind' reason reason' : String} (hu : ':' ∉ uid.toList)
    (hu' : ':' ∉ uid'.toList) (hk : ':' ∉ kind.toList) (hk' : ':' ∉ kind'.toList)
    (h : eventGroup uid kind reason = eventGroup uid' kind' reason') :
    uid = uid' ∧ kind = kind' ∧ reason = reason' := by
  have hcolon : ":".toList = [':'] := by decide
  unfold eventGroup at h
  simp only [String.append_assoc] at h
  obtain ⟨rfl, hrest⟩ := join_inj hcolon hu hu' h
  exact ⟨rfl, join_inj hcolon hk hk' hrest⟩

lemma colon_notMem_label (s : Severity) : ':' ∉ s.label.toList := by
  cases s <;> decide

/-! ## Plain events -/

namespace Event

/-- An event with a namespace, whose texts do not run into each other when they are joined. -/
structure Plain (e : Event) : Prop where
  ns : ∃ ns, namespaceOf e = some ns ∧ '/' ∉ ns.toList
  uid : ∀ u, e.subjectUid = some u → ':' ∉ u.toList
  kind : ∀ t, e.kind = some t → ':' ∉ t.toList

/-- The member name of a plain event determines its key. -/
lemma Plain.key_eq {e e' : Event} (h : e.Plain) (h' : e'.Plain) (hm : e.member = e'.member) :
    ObjectKey.of e = ObjectKey.of e' := by
  obtain ⟨ns, hns, hslash⟩ := h.ns
  obtain ⟨ns', hns', hslash'⟩ := h'.ns
  have hsep : "/".toList = ['/'] := by decide
  simp only [member, hns, hns', Option.getD_some, String.append_assoc] at hm
  obtain ⟨rfl, hname⟩ := join_inj hsep hslash hslash' hm
  simp only [ObjectKey.of, hns, hns', hname]

lemma group?_eq_some_iff {e : Event} {g : String} :
    e.group? = some g ↔ ∃ u t r, e.subjectUid = some u ∧ u ≠ "" ∧ e.kind = some t ∧
      e.reason = some r ∧ eventGroup u t r = g := by
  unfold group?
  constructor
  · intro h
    simp only [Option.bind_eq_bind, Option.bind_eq_some_iff, Option.filter_eq_some_iff,
      decide_eq_true_eq, Option.pure_def, Option.some.injEq] at h
    obtain ⟨u, ⟨hu, hne⟩, t, ht, r, hr, hg⟩ := h
    exact ⟨u, t, r, hu, hne, ht, hr, hg⟩
  · rintro ⟨u, t, r, hu, hne, ht, hr, rfl⟩
    simp [hu, Option.filter_some, hne, ht, hr]

/-- A plain event is in the group of a subject, a severity and a reason when it has all three. -/
lemma Plain.group?_eq_iff {e : Event} (h : e.Plain) {uid : String} (hne : uid ≠ "")
    (hcolon : ':' ∉ uid.toList) (severity : Severity) (reason : Reason) :
    e.group? = some (eventGroup uid severity.label reason.label) ↔
      e.subjectUid = some uid ∧ e.kind = some severity.label ∧ e.reason = some reason.label := by
  rw [group?_eq_some_iff]
  constructor
  · rintro ⟨u, t, r, hu, -, ht, hr, hg⟩
    obtain ⟨rfl, rfl, rfl⟩ :=
      eventGroup_inj (h.uid u hu) hcolon (h.kind t ht) (colon_notMem_label severity) hg
    exact ⟨hu, ht, hr⟩
  · rintro ⟨hu, ht, hr⟩
    exact ⟨uid, severity.label, reason.label, hu, hne, ht, hr, rfl⟩

/-- An event in the default namespace, in some version. -/
def about (name uid : String) (severity : Severity) (reason : Reason) (version : String) : Event :=
  ⟨⟨some name, none, some "default", none, some version, false⟩, none, some uid,
    some severity.label, some reason.label⟩

lemma plain_about {name uid version : String} {severity : Severity} {reason : Reason}
    (hu : ':' ∉ uid.toList) : (about name uid severity reason version).Plain where
  ns := ⟨"default", rfl, by decide⟩
  uid := fun _ h => Option.some.inj h ▸ hu
  kind := fun _ h => Option.some.inj h ▸ colon_notMem_label severity

end Event

/-! ## The index as a mirror -/

namespace WarningIndex

lemma hasGroup_iff {x : WarningIndex} {g : String} :
    x.hasGroup g = true ↔ ∃ member, (g, member) ∈ x.entries := by
  simp only [hasGroup, List.any_eq_true, beq_iff_eq]
  constructor
  · rintro ⟨⟨g', member⟩, hm, rfl⟩
    exact ⟨member, hm⟩
  · rintro ⟨member, hm⟩
    exact ⟨(g, member), hm, rfl⟩

/-- The slots of an event: its group and its name in there, unless it belongs to no group. -/
def slots (e : Event) : List (String × String) :=
  match e.group? with
  | none => []
  | some g => [(g, e.member)]

lemma mem_slots_iff {e : Event} {g member : String} :
    (g, member) ∈ slots e ↔ e.group? = some g ∧ member = e.member := by
  unfold slots
  cases e.group? with
  | none => simp
  | some g' => simp [eq_comm]

/-- An event is taken in under its slot only. -/
lemma mem_entries_insert {x : WarningIndex} {e : Event} {s : String × String} :
    s ∈ (x.insert e).entries ↔ s ∈ slots e ∨ s ∈ x.entries := by
  unfold insert slots
  cases e.group? with
  | none => simp
  | some g => simp [List.mem_insert_iff]

/-- An event leaves its slot only. -/
lemma mem_entries_remove {x : WarningIndex} {e : Event} {s : String × String} :
    s ∈ (x.remove e).entries ↔ s ∉ slots e ∧ s ∈ x.entries := by
  unfold remove slots
  cases e.group? with
  | none => simp
  | some g =>
    by_cases hg : x.hasGroup g = true
    · simp only [hg, if_true]
      split <;> simp [List.mem_filter, and_comm]
    · have hs : (g, e.member) ∉ x.entries := fun hm => hg (hasGroup_iff.mpr ⟨_, hm⟩)
      simp only [hg, List.mem_singleton]
      exact ⟨fun h => ⟨fun he => hs (he ▸ h), h⟩, fun h => h.2⟩

/-- The index of events as a mirror: a slot is filled or empty. -/
def mirror : Mirror Event (String × String) Unit WarningIndex where
  slots := slots
  content := fun _ => ()
  read := fun x s => if s ∈ x.entries then some () else none
  insert := insert
  remove := remove
  read_insert := fun x e s => by
    simp only [mem_entries_insert]
    by_cases hs : s ∈ slots e <;> simp [hs]
  read_remove := fun x e s => by
    simp only [mem_entries_remove]
    by_cases hs : s ∈ slots e <;> simp [hs]

lemma mirror_follow (x : WarningIndex) (c : Change Event) : mirror.follow x c = x.follow c := by
  cases c <;> rfl

/-- Plain events are told apart by their slots. -/
lemma separates_plain : mirror.Separates Event.Plain where
  hasNamespace := fun e _ he _ => by
    obtain ⟨ns, hns, _⟩ := he.ns
    rw [hns]
    exact Option.some_ne_none ns
  key_eq := fun e e' s he he' hs hs' => by
    obtain ⟨g, member⟩ := s
    have hm := (mem_slots_iff.mp hs).2
    have hm' := (mem_slots_iff.mp hs').2
    exact he.key_eq he' (hm.symm.trans hm')

/-- An index in step with plain events has the slots of the cached events. -/
lemma mem_entries_iff_of_inStep {i : Informer Event} {x : WarningIndex}
    (h : mirror.InStep Event.Plain i x) {s : String × String} :
    s ∈ x.entries ↔ ∃ e ∈ i.store.objects, s ∈ slots e := by
  have hs := h.read_eq_some_iff mirror separates_plain (s := s) (b := ())
  simpa [mirror] using hs

/-- An index in step with plain events contains what the cached events say. -/
lemma contains_iff_of_inStep {i : Informer Event} {x : WarningIndex}
    (h : mirror.InStep Event.Plain i x) {uid : String} (hne : uid ≠ "")
    (hcolon : ':' ∉ uid.toList) (severity : Severity) (reason : Reason) :
    x.contains uid severity reason = true ↔ ∃ e ∈ i.store.objects,
      e.subjectUid = some uid ∧ e.kind = some severity.label ∧ e.reason = some reason.label := by
  rw [contains, hasGroup_iff]
  constructor
  · rintro ⟨member, hm⟩
    obtain ⟨e, he, hs⟩ := (mem_entries_iff_of_inStep h).mp hm
    exact ⟨e, he, ((h.only.1 e he).group?_eq_iff hne hcolon severity reason).mp
      (mem_slots_iff.mp hs).1⟩
  · rintro ⟨e, he, hg⟩
    have hgroup := ((h.only.1 e he).group?_eq_iff hne hcolon severity reason).mpr hg
    exact ⟨e.member, (mem_entries_iff_of_inStep h).mpr ⟨e, he, mem_slots_iff.mpr ⟨hgroup, rfl⟩⟩⟩

end WarningIndex

/-! ## Runs of watch events -/

namespace Monitor

/-- The index of events is in step with their cache. -/
def EventsInStep (m : Monitor) : Prop :=
  WarningIndex.mirror.InStep Event.Plain m.caches.events m.warnings

lemma eventsInStep_fresh (c : Conduct) : (fresh c).EventsInStep :=
  WarningIndex.mirror.inStep_fresh fun s => by
    simp [fresh, WarningIndex.mirror, WarningIndex.empty]

lemma EventsInStep.observe {m : Monitor} (h : m.EventsInStep) {e : WatchEvent Event}
    (he : ∀ a, e.object? = some a → a.Plain) : (m.observe .event e).1.EventsInStep := by
  have hstep := Mirror.InStep.observe WarningIndex.mirror h he
  rw [funext₂ WarningIndex.mirror_follow] at hstep
  rw [observe_event]
  exact hstep

/-- Watch events about plain events keep the index in step. -/
lemma EventsInStep.observeAll {m : Monitor} (h : m.EventsInStep) {events : List (WatchEvent Event)}
    (he : ∀ e ∈ events, ∀ a, e.object? = some a → a.Plain) :
    (m.observeAll .event events).1.EventsInStep := by
  induction events generalizing m with
  | nil => exact h
  | cons e rest ih =>
    exact ih (h.observe (he e List.mem_cons_self)) fun e' he' => he e' (List.mem_cons_of_mem e he')

/-- After any watch events about plain events, the index contains a subject with a severity and a
reason exactly when some cached event has the three. -/
theorem contains_iff_exists_cached (c : Conduct) {events : List (WatchEvent Event)}
    (hplain : ∀ e ∈ events, ∀ a, e.object? = some a → a.Plain) {uid : String} (hne : uid ≠ "")
    (hcolon : ':' ∉ uid.toList) (severity : Severity) (reason : Reason) :
    ((fresh c).observeAll .event events).1.warnings.contains uid severity reason = true ↔
      ∃ e ∈ (((fresh c).observeAll .event events).1.cached .event).objects,
        e.subjectUid = some uid ∧ e.kind = some severity.label ∧ e.reason = some reason.label :=
  WarningIndex.contains_iff_of_inStep ((eventsInStep_fresh c).observeAll hplain) hne hcolon
    severity reason

/-- A warning that is listed again in two versions is still contained. -/
theorem contains_relisted_warning :
    let warning := Event.about "pvc1.warning" "uid-1" .warning .volumeAbnormal
    let events : List (WatchEvent Event) :=
      [.apply (warning "1"), .init, .initApply (warning "2"), .initApply (warning "3"), .initDone]
    (∀ e ∈ events, ∀ a, e.object? = some a → a.Plain) ∧ "uid-1" ≠ "" ∧ ':' ∉ "uid-1".toList ∧
      ((fresh (.usual "csi")).observeAll .event events).1.warnings.contains "uid-1" .warning
        .volumeAbnormal = true := by
  intro warning events
  have hcolon : ':' ∉ "uid-1".toList := by decide
  have hwarning : ∀ version, (warning version).Plain := fun _ => Event.plain_about hcolon
  have hplain : ∀ e ∈ events, ∀ a, e.object? = some a → a.Plain := by
    simp [events, WatchEvent.object?, hwarning]
  refine ⟨hplain, by decide, hcolon, ?_⟩
  refine (contains_iff_exists_cached (.usual "csi") hplain (by decide) hcolon .warning
    .volumeAbnormal).mpr ⟨warning "3", ?_, rfl, rfl, rfl⟩
  decide

end Monitor

end StorageHealth
