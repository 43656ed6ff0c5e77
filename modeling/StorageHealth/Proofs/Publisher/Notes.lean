import Mathlib.Data.List.Induction
import StorageHealth.Publisher
import StorageHealth.Proofs.Process.Path
import StorageHealth.Proofs.Process.Standing

/-!
# The notes of published events

A publisher remembers the last event of each class, which it has created or patched, and drops it
when it is old.  As long as an event is remembered, everything that is published in its class is a
patch of it.  The note is not part of the class, so a patch carries the note that the event was
created with.

`Run.note_eq_iff` says when a notice is written with its own note: exactly when the event of its
class that was created last, if it is still remembered, was created with the same note.  A driver
that describes a volume in other words the second time is not quoted again
(`ChangedMessage.note_not_replaced`).
-/

namespace StorageHealth

/-- The class of a written event. -/
def WrittenEvent.eventClass (e : WrittenEvent) : EventClass := ⟨e.severity, e.reason, e.regarding⟩

namespace Publisher

/-! ## What a publisher goes through -/

/-- A notice is published, with the write that was sent and what the cluster made of it; or the
event of a class has become old. -/
inductive Posting where
  | published (n : Notice) (accepted : Bool) (write : Option Write)
  | expired (k : EventClass)

/-- What a posting makes of a publisher. -/
def Step (p : Publisher) : Posting → Publisher → Prop
  | .published n accepted write, p' => p.publish n accepted = (p', write)
  | .expired k, p' => p' = { p with kept := p.kept.erase k }

/-- Postings one after the other. -/
abbrev Run : Publisher → List Posting → Publisher → Prop := Path Step

/-- An event of a class was created for a notice. -/
def Posting.Creates (k : EventClass) (n : Notice) (h : Posting) : Prop :=
  ∃ w : Write, h = .published n true (some w) ∧ w.kind = .create ∧ n.eventClass = k

/-- An event of a class was created for a notice, and it has not become old. -/
def Created (k : EventClass) (n : Notice) : List Posting → Prop :=
  Standing (fun _ h => h.Creates k n) (fun h => h = .expired k)

variable {p p' : Publisher} {n n₀ : Notice} {accepted : Bool} {w : Write} {k : EventClass}
  {hs : List Posting}

lemma created_concat_iff {h : Posting} :
    Created k n (hs ++ [h]) ↔ h.Creates k n ∨ h ≠ .expired k ∧ Created k n hs :=
  standing_concat_iff

/-! ## A single notice -/

lemma publish_eq_some_iff : p.publish n accepted = (p', some w) ↔
    p.nextWrite n = some w ∧
      p' = if accepted then { p with kept := p.kept.insert n.eventClass w.event } else p := by
  rw [publish]
  cases p.nextWrite n with
  | none => simp
  | some w' =>
    simp only [Prod.mk.injEq, Option.some.injEq]
    constructor
    · rintro ⟨rfl, rfl⟩
      exact ⟨rfl, rfl⟩
    · rintro ⟨rfl, rfl⟩
      exact ⟨rfl, rfl⟩

lemma publish_eq_none_iff : p.publish n accepted = (p', none) ↔
    p.nextWrite n = none ∧ p' = p := by
  rw [publish]
  cases p.nextWrite n <;> simp [eq_comm]

/-- What is written is the next event; it is created when no event of its class is remembered. -/
lemma nextWrite_eq_some (h : p.nextWrite n = some w) : w.event = p.nextEvent n ∧
    (w.kind = .create ↔ p.kept.get? n.eventClass = none) := by
  rw [nextWrite] at h
  split at h
  · obtain rfl := Option.some.inj h
    refine ⟨rfl, ?_⟩
    cases hkept : p.kept.get? n.eventClass with
    | none => simp [nextEvent, hkept, newEvent]
    | some e => simp [nextEvent, hkept, repeated]
  · cases h

/-! ## What is remembered -/

/-- What a publisher remembers of a class after some postings: nothing if no event of the class was
created that has not become old, and otherwise an event with the note of the one created. -/
inductive Remembered (p : Publisher) (hs : List Posting) (k : EventClass) : Prop where
  | nothing (hkept : p.kept.get? k = none) (hnone : ∀ n, ¬ Created k n hs)
  | event {e : WrittenEvent} (hkept : p.kept.get? k = some e) (hclass : e.eventClass = k)
      {n₀ : Notice} (hcreated : Created k n₀ hs) (hnote : ∀ n, Created k n hs → e.note = n.note)

lemma Remembered.get?_eq_none_iff (h : Remembered p hs k) :
    p.kept.get? k = none ↔ ∀ n, ¬ Created k n hs := by
  cases h with
  | nothing hkept hnone => exact iff_of_true hkept hnone
  | event hkept _ hcreated _ =>
    rw [hkept]
    exact iff_of_false (Option.some_ne_none _) fun hnone => hnone _ hcreated

/-- The next event for a notice is of its class and repeats the note of the event that was
created. -/
lemma Remembered.nextEvent (h : Remembered p hs n.eventClass) :
    (p.nextEvent n).eventClass = n.eventClass ∧
      (∀ n₀, Created n.eventClass n₀ hs → (p.nextEvent n).note = n₀.note) ∧
      ((∀ n₀, ¬ Created n.eventClass n₀ hs) → (p.nextEvent n).note = n.note) := by
  cases h with
  | nothing hkept hnone =>
    rw [Publisher.nextEvent, hkept]
    exact ⟨rfl, fun n₀ hn₀ => absurd hn₀ (hnone n₀), fun _ => rfl⟩
  | event hkept hclass hcreated hnote =>
    rw [Publisher.nextEvent, hkept]
    exact ⟨hclass, hnote, fun hnone => absurd hcreated (hnone _)⟩

/-- A posting that creates no event of a class and is not its end leaves what was created. -/
lemma created_concat_iff_of_idle {h : Posting} (hcreates : ∀ n, ¬ h.Creates k n)
    (hexpired : h ≠ .expired k) (n : Notice) : Created k n (hs ++ [h]) ↔ Created k n hs := by
  rw [created_concat_iff]
  simp only [hcreates n, hexpired, ne_eq, not_false_eq_true, true_and, false_or]

lemma Remembered.of_idle {h : Posting} (hp : Remembered p hs k)
    (hkept : p'.kept.get? k = p.kept.get? k) (hcreates : ∀ n, ¬ h.Creates k n)
    (hexpired : h ≠ .expired k) : Remembered p' (hs ++ [h]) k := by
  have hsame : ∀ n, Created k n (hs ++ [h]) ↔ Created k n hs :=
    created_concat_iff_of_idle hcreates hexpired
  cases hp with
  | nothing hnone hnothing =>
    exact Remembered.nothing (hkept.trans hnone) fun n hn => hnothing n ((hsame n).mp hn)
  | event hsome hclass hcreated hnote =>
    exact Remembered.event (hkept.trans hsome) hclass ((hsame _).mpr hcreated)
      fun n hn => hnote n ((hsame n).mp hn)

/-- A write that was accepted is remembered in its class. -/
lemma Remembered.of_accepted (hp : Remembered p hs n.eventClass) (hw : p.nextWrite n = some w)
    (hkept : p'.kept.get? n.eventClass = some w.event) :
    Remembered p' (hs ++ [.published n true (some w)]) n.eventClass := by
  obtain ⟨hevent, hkind⟩ := nextWrite_eq_some hw
  obtain ⟨hclass, hnote, hnew⟩ := hp.nextEvent
  rw [← hevent] at hclass hnote hnew
  have hcreates : ∀ {n₁}, (Posting.published n true (some w)).Creates n.eventClass n₁ →
      w.kind = .create ∧ n₁ = n := by
    rintro n₁ ⟨w', hsame, hcreate, -⟩
    cases hsame
    exact ⟨hcreate, rfl⟩
  have hgoes : Posting.published n true (some w) ≠ .expired n.eventClass := nofun
  rw [hp.get?_eq_none_iff] at hkind
  by_cases hcreate : w.kind = .create
  · -- Nothing was remembered, so this is the event that was created.
    have hnone := hkind.mp hcreate
    refine Remembered.event hkept hclass (created_concat_iff.mpr (Or.inl ⟨w, rfl, hcreate, rfl⟩)) ?_
    intro n₁ hn₁
    rcases created_concat_iff.mp hn₁ with hlast | ⟨-, hbefore⟩
    · rw [(hcreates hlast).2]
      exact hnew hnone
    · exact absurd hbefore (hnone n₁)
  · have hidle : ∀ n₁, ¬ (Posting.published n true (some w)).Creates n.eventClass n₁ :=
      fun n₁ hlast => hcreate (hcreates hlast).1
    have hsame : ∀ n₁, Created n.eventClass n₁ (hs ++ [.published n true (some w)]) ↔
        Created n.eventClass n₁ hs := created_concat_iff_of_idle hidle hgoes
    have hsome : ∃ n₁, Created n.eventClass n₁ hs := by
      by_contra hnone
      exact hcreate (hkind.mpr fun n₁ hn₁ => hnone ⟨n₁, hn₁⟩)
    obtain ⟨n₀, hcreated⟩ := hsome
    exact Remembered.event hkept hclass ((hsame n₀).mpr hcreated)
      fun n₁ hn₁ => hnote n₁ ((hsame n₁).mp hn₁)

/-- What is remembered stays what was created, whatever is posted. -/
lemma Remembered.step {h : Posting} (hp : ∀ k, Remembered p hs k) (hstep : Step p h p')
    (k : EventClass) : Remembered p' (hs ++ [h]) k := by
  cases h with
  | expired k' =>
    have hp' : p' = { p with kept := p.kept.erase k' } := hstep
    subst hp'
    by_cases hk : k' = k
    · subst hk
      refine Remembered.nothing (Table.get?_erase_self _ _) fun n hn => ?_
      rcases created_concat_iff.mp hn with ⟨w, hsame, -⟩ | ⟨hgoes, -⟩
      · cases hsame
      · exact hgoes rfl
    · refine (hp k).of_idle ((Table.get?_erase _ _ _).trans (if_neg hk)) ?_ ?_
      · rintro n ⟨w, hsame, -⟩
        cases hsame
      · rintro hsame
        exact hk (Posting.expired.inj hsame)
  | published n accepted write =>
    have hgoes : Posting.published n accepted write ≠ .expired k := nofun
    cases write with
    | none =>
      obtain ⟨-, rfl⟩ := publish_eq_none_iff.mp hstep
      refine (hp k).of_idle rfl ?_ hgoes
      rintro n' ⟨w, hsame, -⟩
      cases hsame
    | some w =>
      obtain ⟨hw, rfl⟩ := publish_eq_some_iff.mp hstep
      cases accepted with
      | false =>
        refine (hp k).of_idle rfl ?_ hgoes
        rintro n' ⟨w', hsame, -⟩
        cases hsame
      | true =>
        by_cases hk : n.eventClass = k
        · subst hk
          exact (hp _).of_accepted hw (Table.get?_insert_self _ _ _)
        · refine (hp k).of_idle ((Table.get?_insert _ _ _ _).trans (if_neg hk)) ?_ hgoes
          rintro n' ⟨w', hsame, -, hclass⟩
          cases hsame
          exact hk hclass

/-- A publisher remembers what has happened to it. -/
lemma Run.remembered {title driver : String} {host : Option String}
    (h : Run (start title driver host) hs p) (k : EventClass) : Remembered p hs k := by
  induction hs using List.reverseRecOn generalizing p k with
  | nil =>
    cases h
    exact Remembered.nothing (Table.get?_empty k) fun n => not_standing_nil
  | append_singleton hs x ih =>
    obtain ⟨q, hbefore, hstep⟩ := Path.concat_iff.mp h
    exact Remembered.step (ih hbefore) hstep k

/-- What is written for a notice has its severity, its reason and its subject.  It is created when
no event of its class stands; otherwise it repeats the note of the event that was created.  So a
notice is written with its own note exactly when no event stands that was created with another. -/
theorem Run.note_eq_iff {title driver : String} {host : Option String}
    (h : Run (start title driver host) (hs ++ [.published n accepted (some w)]) p) :
    (w.event.severity = n.severity ∧ w.event.reason = n.reason ∧
      w.event.regarding = n.subject) ∧
    (w.kind = .create ↔ ∀ n₀, ¬ Created n.eventClass n₀ hs) ∧
    (∀ n₀, Created n.eventClass n₀ hs → w.event.note = n₀.note) ∧
    (w.event.note = n.note ↔ ∀ n₀, Created n.eventClass n₀ hs → n₀.note = n.note) := by
  obtain ⟨q, hbefore, hstep⟩ := Path.concat_iff.mp h
  obtain ⟨hw, -⟩ := publish_eq_some_iff.mp hstep
  have hq := Run.remembered hbefore n.eventClass
  obtain ⟨hevent, hkind⟩ := nextWrite_eq_some hw
  obtain ⟨hclass, hnote, hnew⟩ := hq.nextEvent
  rw [← hevent] at hclass hnote hnew
  refine ⟨?_, hkind.trans hq.get?_eq_none_iff, hnote, ?_⟩
  · exact ⟨congrArg EventClass.severity hclass, congrArg EventClass.reason hclass,
      congrArg EventClass.subject hclass⟩
  · constructor
    · intro hown n₀ hn₀
      rw [← hnote n₀ hn₀, hown]
    · intro hsame
      by_cases hnone : ∃ n₀, Created n.eventClass n₀ hs
      · obtain ⟨n₀, hn₀⟩ := hnone
        rw [hnote n₀ hn₀, hsame n₀ hn₀]
      · exact hnew fun n₀ hn₀ => hnone ⟨n₀, hn₀⟩

end Publisher

/-! ## A message that changes -/

namespace ChangedMessage

open Publisher

/-- The claim behind a volume. -/
def subject : Subject :=
  ⟨some "v1", some "PersistentVolumeClaim", some "default", some "pvc1", some "pvc1-uid", none,
    none⟩

/-- A driver has found the volume abnormal and says why. -/
def warning (message : String) : Notice := ⟨subject, .warning, .volumeAbnormal, message⟩

/-- A publisher that has not written anything. -/
def fresh : Publisher := start controllerTitle "csi" none

/-- The write for the first warning. -/
def created : Write :=
  ⟨.create, "/apis/events.k8s.io/v1/namespaces/default/events",
    fresh.newEvent (warning "Volume not found")⟩

/-- A publisher after a write that was accepted. -/
def remembering (w : Write) (p : Publisher) : Publisher :=
  { p with kept := p.kept.insert w.event.eventClass w.event }

/-- The write for the second warning, which says something else. -/
def patched : Write :=
  ⟨.patch, "/apis/events.k8s.io/v1/namespaces/default/events/pvc1", repeated created.event⟩

/-- Two warnings are published. -/
def postings : List Posting :=
  [.published (warning "Volume not found") true (some created),
    .published (warning "I/O errors") true (some patched)]

lemma run_postings : Run fresh postings (remembering patched (remembering created fresh)) := by
  have hfirst : fresh.nextWrite (warning "Volume not found") = some created := by decide +kernel
  have hsecond : (remembering created fresh).nextWrite (warning "I/O errors") = some patched := by
    decide +kernel
  refine Path.step (publish_eq_some_iff.mpr ⟨hfirst, rfl⟩) ?_
  exact Path.single (publish_eq_some_iff.mpr ⟨hsecond, rfl⟩)

/-- The second warning is written with the message of the first one. -/
theorem note_repeated : Run fresh postings (remembering patched (remembering created fresh)) ∧
    Created (warning "I/O errors").eventClass (warning "Volume not found")
      [.published (warning "Volume not found") true (some created)] ∧
    patched.event.note = "Volume not found" := by
  have hcreated : Created (warning "I/O errors").eventClass (warning "Volume not found")
      [.published (warning "Volume not found") true (some created)] :=
    ⟨[], _, [], rfl, ⟨created, rfl, rfl, rfl⟩, fun x hx => absurd hx List.not_mem_nil⟩
  have hrun : Run fresh ([.published (warning "Volume not found") true (some created)] ++
      [.published (warning "I/O errors") true (some patched)]) _ := run_postings
  exact ⟨run_postings, hcreated, (Run.note_eq_iff hrun).2.2.1 _ hcreated⟩

/-- A message that was published need not reach the cluster, although the write was accepted. -/
theorem note_not_replaced : ¬ ∀ (title driver : String) (host : Option String)
    (hs : List Posting) (n : Notice) (w : Write) (p : Publisher),
    Run (start title driver host) (hs ++ [.published n true (some w)]) p →
    w.event.note = n.note := by
  intro hclaim
  have hnote : patched.event.note = (warning "I/O errors").note :=
    hclaim controllerTitle "csi" none
      [.published (warning "Volume not found") true (some created)] _ _ _ run_postings
  exact absurd hnote (by decide)

end ChangedMessage

end StorageHealth
