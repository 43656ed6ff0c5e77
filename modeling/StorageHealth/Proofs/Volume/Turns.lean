import Mathlib.Data.List.Induction
import StorageHealth.Proofs.Volume.Visits

/-!
# Turns of volumes

Volumes are visited and found gone one after the other, and every such `Turn` changes the slots
(`Turn.Step`).  A slot is either what it was before a turn or was taken in it (`Turn.Step.slot_eq`),
and conversely it is kept, or taken again later, as long as its volume is not given up
(`Turn.Step.slot_kept`).

Visits that go on side by side are still turns one after the other, in the order in which they begin
(`Workplace.exists_turns`): the check of a volume may take long, but it leaves the slots alone.
-/

namespace StorageHealth

/-! ## Slots -/

namespace Slots

variable {s : Slots} {v : Volume} {now : Nat}

lemma claim_snd (interval : Span) : (s.claim v now interval).2 = s.closedFor v now := by
  rw [claim]
  split <;> simp_all

lemma claim_fst_of_closed {left : Span} (h : s.closedFor v now = some left) (interval : Span) :
    (s.claim v now interval).1 = s := by
  rw [claim, h]

lemma claim_fst_of_open (h : s.closedFor v now = none) (interval : Span) :
    (s.claim v now interval).1 = s.take v now interval := by
  rw [claim, h]

/-- A slot is closed to its own volume until it opens. -/
lemma closedFor_eq_some_iff {left : Span} : s.closedFor v now = some left ↔
    ∃ slot, Table.get? s (nameOf v) = some slot ∧ slot.uid = uidOf v ∧ now < slot.opens ∧
      left = ⟨slot.opens - now⟩ := by
  rw [closedFor]
  cases Table.get? s (nameOf v) with
  | none => simp
  | some slot =>
    simp only [Option.some.injEq, exists_eq_left']
    by_cases hclosed : slot.uid = uidOf v ∧ now < slot.opens
    · simp [hclosed, eq_comm]
    · simp only [if_neg hclosed, reduceCtorEq, false_iff]
      rintro ⟨huid, hopens, -⟩
      exact hclosed ⟨huid, hopens⟩

lemma closedFor_eq_none_iff : s.closedFor v now = none ↔
    ∀ slot, Table.get? s (nameOf v) = some slot → slot.uid = uidOf v → slot.opens ≤ now := by
  rw [Option.eq_none_iff_forall_ne_some]
  constructor
  · intro h slot hslot huid
    by_contra hopens
    exact h _ (closedFor_eq_some_iff.mpr ⟨slot, hslot, huid, Nat.lt_of_not_le hopens, rfl⟩)
  · intro h left hclosed
    obtain ⟨slot, hslot, huid, hopens, -⟩ := closedFor_eq_some_iff.mp hclosed
    exact Nat.not_lt_of_le (h slot hslot huid) hopens

lemma get?_take (interval : Span) (name : String) : Table.get? (s.take v now interval) name =
    if nameOf v = name then some ⟨uidOf v, now + interval.nanos⟩ else Table.get? s name :=
  Table.get?_insert ..

lemma get?_forget (s : Slots) (name name' : String) : Table.get? (s.forget name) name' =
    if name = name' then none else Table.get? s name' :=
  Table.get?_erase ..

end Slots

/-! ## Turns -/

namespace Volume

/-- Something that matters to the slots: a volume is visited at some time, with the slots as they
are then and an answer in the end, or a name is found gone. -/
inductive Turn where
  | visited (now : Nat) (v : Volume) (seen : Slots) (answer : Schedule)
  | vanished (name : String)

namespace Turn

/-- The time of a visit. -/
def time? : Turn → Option Nat
  | visited now _ _ _ => some now
  | vanished _ => none

/-- A volume of this name is looked after that is to be monitored. -/
def Monitors (c : Conduct) (name : String) : Turn → Prop
  | visited _ v _ _ => nameOf v = name ∧ v.isMonitored c = true
  | vanished _ => False

/-- A volume of this name is dropped or found gone. -/
def Drops (c : Conduct) (name : String) : Turn → Prop
  | visited _ v _ _ => nameOf v = name ∧ v.isMonitored c = false
  | vanished n => n = name

/-- Another volume of this name is looked after. -/
def Replaces (name : String) (uid : Option String) : Turn → Prop
  | visited _ v _ _ => nameOf v = name ∧ uidOf v ≠ uid
  | vanished _ => False

/-- The slot of a volume is taken for a check. -/
def Claims (c : Conduct) (now : Nat) (v : Volume) (t : Turn) : Prop :=
  ∃ seen answer, t = visited now v seen answer ∧ v.isMonitored c = true ∧
    (seen.claim v now c.monitorInterval).2 = none

/-- What a turn does to the slots: a visit gets at them when it begins. -/
inductive Step (c : Conduct) : Slots → Turn → Slots → Prop where
  | visit {now : Nat} {v : Volume} {m : Monitor} {d : Deed} {ds : List Deed} {answer : Schedule}
      (ends : (Care.cycle c now .volumes v).Ends (d :: ds) answer) (fits : d.Fits m) :
      Step c m.slots (.visited now v m.slots answer) (d.effect.leaves m).slots
  | vanish {name : String} {m : Monitor} {d : Deed} (ends : (Volume.vanished name).Ends [d] ())
      (fits : d.Fits m) : Step c m.slots (.vanished name) (d.effect.leaves m).slots

variable {c : Conduct} {s s' seen : Slots} {now : Nat} {v : Volume} {answer : Schedule}
  {name : String} {t : Turn}

/-- What a visit makes of the slots, and its answer. -/
lemma Step.of_visited (h : Step c s (.visited now v seen answer) s') : seen = s ∧
    ((v.isMonitored c = false ∧ answer = .onChange ∧ s' = s.forget (nameOf v)) ∨
      (v.isMonitored c = true ∧
        ((∃ left, s.closedFor v now = some left ∧ answer = .after left ∧ s' = s) ∨
          s.closedFor v now = none ∧ answer = .after c.monitorInterval ∧
            s' = s.take v now c.monitorInterval))) := by
  cases h with
  | visit ends fits =>
    refine ⟨rfl, ?_⟩
    cases ends_cycle_iff.mp ends with
    | dropped hdrop x => exact Or.inl ⟨hdrop, rfl, rfl⟩
    | @early hmonitored x left hclosed =>
      obtain rfl : x = _ := fits
      exact Or.inr ⟨hmonitored, Or.inl ⟨left, hclosed, rfl, Slots.claim_fst_of_closed hclosed _⟩⟩
    | @checked hmonitored x hopen _ _ check =>
      obtain rfl : x = _ := fits
      exact Or.inr ⟨hmonitored, Or.inr ⟨hopen, rfl, Slots.claim_fst_of_open hopen _⟩⟩

lemma Step.of_vanished (h : Step c s (.vanished name) s') : s' = s.forget name := by
  cases h with
  | vanish ends fits =>
    obtain ⟨x, hx⟩ := Process.ends_change_iff.mp ends
    obtain rfl := (List.cons.inj hx).1
    rfl

/-- After a turn, a slot is what it was before, or it was just taken. -/
lemma Step.slot_eq (h : Step c s t s') {slot : Slot} (hslot : Table.get? s' name = some slot) :
    Table.get? s name = some slot ∨ ∃ now v, t.Claims c now v ∧ nameOf v = name ∧
      slot = ⟨uidOf v, now + c.monitorInterval.nanos⟩ := by
  cases t with
  | vanished n =>
    rw [h.of_vanished, Slots.get?_forget] at hslot
    split at hslot
    · cases hslot
    · exact Or.inl hslot
  | visited now v seen answer =>
    obtain ⟨rfl, ⟨-, -, rfl⟩ | ⟨hmonitored, ⟨left, -, -, rfl⟩ | ⟨hopen, -, rfl⟩⟩⟩ := h.of_visited
    · rw [Slots.get?_forget] at hslot
      split at hslot
      · cases hslot
      · exact Or.inl hslot
    · exact Or.inl hslot
    · rw [Slots.get?_take] at hslot
      split at hslot
      · rename_i hname
        have hclaims : (visited now v seen answer).Claims c now v :=
          ⟨seen, answer, rfl, hmonitored, (Slots.claim_snd _).trans hopen⟩
        exact Or.inr ⟨now, v, hclaims, hname, (Option.some.inj hslot).symm⟩
      · exact Or.inl hslot

/-- As long as its volume is neither dropped nor replaced, a slot is kept or taken again later. -/
lemma Step.slot_kept (h : Step c s t s') {slot : Slot} (hslot : Table.get? s name = some slot)
    (hdrops : ¬ t.Drops c name) (hreplaces : ¬ t.Replaces name slot.uid) :
    ∃ slot', Table.get? s' name = some slot' ∧ slot'.uid = slot.uid ∧ slot.opens ≤ slot'.opens := by
  cases t with
  | vanished n =>
    have hname : n ≠ name := hdrops
    exact ⟨slot, by rwa [h.of_vanished, Slots.get?_forget, if_neg hname], rfl, Nat.le_refl _⟩
  | visited now v seen answer =>
    obtain ⟨rfl, ⟨hdrop, -, rfl⟩ | ⟨-, ⟨left, -, -, rfl⟩ | ⟨hopen, -, rfl⟩⟩⟩ := h.of_visited
    · have hname : nameOf v ≠ name := fun hname => hdrops ⟨hname, hdrop⟩
      exact ⟨slot, by rwa [Slots.get?_forget, if_neg hname], rfl, Nat.le_refl _⟩
    · exact ⟨slot, hslot, rfl, Nat.le_refl _⟩
    · by_cases hname : nameOf v = name
      · have huid : uidOf v = slot.uid := by
          by_contra hne
          exact hreplaces ⟨hname, hne⟩
        have hopens := Slots.closedFor_eq_none_iff.mp hopen slot (hname ▸ hslot) huid.symm
        refine ⟨_, by rw [Slots.get?_take, if_pos hname], huid, ?_⟩
        exact Nat.le_trans hopens (Nat.le_add_right _ _)
      · exact ⟨slot, by rwa [Slots.get?_take, if_neg hname], rfl, Nat.le_refl _⟩

/-- A volume's slot is taken when it is not closed to the volume, and opens an interval later. -/
lemma Step.of_claims (h : Step c s t s') (hclaims : t.Claims c now v) :
    s.closedFor v now = none ∧
      Table.get? s' (nameOf v) = some ⟨uidOf v, now + c.monitorInterval.nanos⟩ := by
  obtain ⟨seen, answer, rfl, hmonitored, hopen⟩ := hclaims
  rw [Slots.claim_snd] at hopen
  obtain ⟨rfl, ⟨hdrop, -⟩ | ⟨-, ⟨left, hclosed, -⟩ | ⟨-, -, rfl⟩⟩⟩ := h.of_visited
  · cases hdrop.symm.trans hmonitored
  · cases hclosed.symm.trans hopen
  · exact ⟨hopen, by rw [Slots.get?_take, if_pos rfl]⟩

/-- A visit to a volume that is to be monitored leaves a slot that opens when the volume is to be
looked after again. -/
lemma Step.answered (h : Step c s (.visited now v seen answer) s')
    (hmonitored : v.isMonitored c = true) :
    ∃ delay : Span, answer = .after delay ∧
      Table.get? s' (nameOf v) = some ⟨uidOf v, now + delay.nanos⟩ ∧
      ((visited now v seen answer).Claims c now v ∧ delay = c.monitorInterval ∨
        ¬ (visited now v seen answer).Claims c now v ∧ 0 < delay.nanos ∧
          Table.get? s (nameOf v) = some ⟨uidOf v, now + delay.nanos⟩) := by
  obtain ⟨rfl, ⟨hdrop, -⟩ | ⟨-, ⟨left, hclosed, rfl, rfl⟩ | ⟨hopen, rfl, rfl⟩⟩⟩ := h.of_visited
  · cases hdrop.symm.trans hmonitored
  · have hnot : ¬ (visited now v s' (.after left)).Claims c now v := by
      rintro ⟨_, _, hvisited, -, hopen⟩
      obtain ⟨-, -, rfl, -⟩ := visited.inj hvisited
      rw [Slots.claim_snd, hclosed] at hopen
      cases hopen
    obtain ⟨slot, hslot, huid, hlt, rfl⟩ := Slots.closedFor_eq_some_iff.mp hclosed
    have hsame : slot = ⟨uidOf v, now + (slot.opens - now)⟩ := by
      rw [← huid, Nat.add_sub_cancel' (Nat.le_of_lt hlt)]
    rw [hsame] at hslot
    exact ⟨_, rfl, hslot, Or.inr ⟨hnot, Nat.sub_pos_of_lt hlt, hslot⟩⟩
  · refine ⟨_, rfl, by rw [Slots.get?_take, if_pos rfl], Or.inl ⟨?_, rfl⟩⟩
    exact ⟨_, _, rfl, hmonitored, (Slots.claim_snd _).trans hopen⟩

/-- After a volume was dropped, gone or replaced, there is no slot of it. -/
lemma Step.uid_ne (h : Step c s t s') {uid : Option String}
    (ht : t.Drops c name ∨ t.Replaces name uid) {slot : Slot}
    (hslot : Table.get? s' name = some slot) : slot.uid ≠ uid := by
  cases t with
  | vanished n =>
    obtain rfl : n = name := ht.resolve_right id
    rw [h.of_vanished, Slots.get?_forget, if_pos rfl] at hslot
    cases hslot
  | visited now v seen answer =>
    have hname : nameOf v = name := ht.elim And.left And.left
    subst hname
    obtain ⟨rfl, ⟨-, -, rfl⟩ | ⟨hmonitored, hvisit⟩⟩ := h.of_visited
    · rw [Slots.get?_forget, if_pos rfl] at hslot
      cases hslot
    · have huid : uidOf v ≠ uid :=
        ht.elim (fun hdrops => by cases hdrops.2.symm.trans hmonitored) And.right
      rcases hvisit with ⟨left, hclosed, -, rfl⟩ | ⟨-, -, rfl⟩
      · obtain ⟨slot', hslot', hsame, -⟩ := Slots.closedFor_eq_some_iff.mp hclosed
        obtain rfl := Option.some.inj (hslot.symm.trans hslot')
        rwa [hsame]
      · rw [Slots.get?_take, if_pos rfl] at hslot
        obtain rfl := Option.some.inj hslot
        exact huid

/-- A visit to a volume that is to be monitored checks it when its slot has opened or is that of
another volume. -/
lemma Step.claims (h : Step c s (.visited now v seen answer) s')
    (hmonitored : v.isMonitored c = true)
    (hopens : ∀ slot, Table.get? s (nameOf v) = some slot → slot.uid = uidOf v → slot.opens ≤ now) :
    (visited now v seen answer).Claims c now v := by
  obtain ⟨rfl, -⟩ := h.of_visited
  have hopen := Slots.closedFor_eq_none_iff.mpr hopens
  exact ⟨_, answer, rfl, hmonitored, (Slots.claim_snd _).trans hopen⟩

end Turn

/-- Turns one after the other. -/
abbrev Turns (c : Conduct) : Slots → List Turn → Slots → Prop := Path (Turn.Step c)

/-! ## Visits side by side -/

/-- Something to be done about volumes: one is to be visited, or a name was found gone. -/
inductive Upkeep where
  | visit (now : Nat) (v : Volume)
  | vanish (name : String)

namespace Upkeep

/-- Does it, whatever the answer is. -/
def process (c : Conduct) : Upkeep → Process Unit
  | visit now v => (Care.cycle c now .volumes v).bind fun _ => .done ()
  | vanish name => vanished name

/-- The turn that is taken by beginning with a deed; there is no other answer that the visit may end
with. -/
def Takes (c : Conduct) (d : Deed) : Upkeep → Turn → Prop
  | visit now v, t => ∃ seen answer, t = .visited now v seen answer ∧
      ∀ ds r, (Care.cycle c now .volumes v).Ends (d :: ds) r → r = answer
  | vanish name, t => t = .vanished name

variable {c : Conduct} {u : Upkeep} {d : Deed} {ds : List Deed}

lemma exists_answer {now : Nat} {v : Volume} (ends : ((visit now v).process c).Ends ds ()) :
    ∃ answer, Attended c now v ds answer := by
  obtain ⟨first, answer, rest, rfl, hfirst, hrest⟩ := Process.ends_bind_iff.mp ends
  obtain ⟨rfl, -⟩ := Process.ends_done_iff.mp hrest
  rw [List.append_nil]
  exact ⟨answer, ends_cycle_iff.mp hfirst⟩

/-- Whoever begins takes a turn. -/
lemma exists_turn (ends : (u.process c).Ends (d :: ds) ()) {m : Monitor} (fits : d.Fits m) :
    ∃ t, u.Takes c d t ∧ Turn.Step c m.slots t (d.effect.leaves m).slots := by
  cases u with
  | visit now v =>
    obtain ⟨answer, hattended⟩ := exists_answer ends
    have hturn := Turn.Step.visit (ends_cycle_iff.mpr hattended) fits
    refine ⟨_, ⟨m.slots, answer, rfl, fun ds' r hr => ?_⟩, hturn⟩
    rw [(ends_cycle_iff.mp hr).answer_eq fits, hattended.answer_eq fits]
  | vanish name =>
    obtain ⟨x, hx⟩ := Process.ends_change_iff.mp ends
    obtain ⟨-, rfl⟩ := List.cons.inj hx
    exact ⟨_, rfl, Turn.Step.vanish ends fits⟩

/-- Whatever is done after that leaves the slots alone. -/
lemma spares (ends : (u.process c).Ends (d :: ds) ()) : ∀ d' ∈ ds, d'.SparesSlots := by
  cases u with
  | visit now v =>
    obtain ⟨answer, hattended⟩ := exists_answer ends
    exact hattended.spares
  | vanish name =>
    obtain ⟨x, hx⟩ := Process.ends_change_iff.mp ends
    obtain ⟨-, rfl⟩ := List.cons.inj hx
    simp

/-- The turns that are taken in a history: everybody takes one by beginning. -/
inductive Taken {ι : Type} [DecidableEq ι] (c : Conduct) (upkeep : ι → Upkeep) :
    List (Happening ι) → List Turn → Prop where
  | nothing : Taken c upkeep [] []
  | observed {hs : List (Happening ι)} {ts : List Turn} (past : Taken c upkeep hs ts) (k : Kind)
      (e : WatchEvent k.Object) : Taken c upkeep (hs ++ [.observed k e]) ts
  | begins {hs : List (Happening ι)} {ts : List Turn} (past : Taken c upkeep hs ts) {i : ι}
      (idle : Happening.Idle i hs) {d : Deed} {t : Turn} (takes : (upkeep i).Takes c d t) :
      Taken c upkeep (hs ++ [.did i d]) (ts ++ [t])
  | goesOn {hs : List (Happening ι)} {ts : List Turn} (past : Taken c upkeep hs ts) {i : ι}
      (busy : ¬ Happening.Idle i hs) (d : Deed) : Taken c upkeep (hs ++ [.did i d]) ts

end Upkeep

end Volume

lemma Monitor.slots_observe (m : Monitor) (k : Kind) (e : WatchEvent k.Object) :
    (m.observe k e).1.slots = m.slots := by
  have hfollow : ∀ (changes : List (Change k.Object)) (m : Monitor),
      (changes.foldl (fun m change => m.follow k change) m).slots = m.slots := by
    intro changes
    induction changes with
    | nil => exact fun m => rfl
    | cons change rest ih =>
      intro m
      rw [List.foldl_cons, ih]
      cases k <;> rfl
  exact hfollow _ _

namespace Workplace

open Volume

variable {ι : Type} [DecidableEq ι] {c : Conduct} {upkeep : ι → Upkeep}

/-- Whatever is going on at the same time, the slots go through the turns of everybody, one after
the other. -/
theorem exists_turns {s s' : Workplace ι} {hs : List (Happening ι)} (hrun : Run s hs s')
    (hstart : ∀ i, s.activity i = (upkeep i).process c) :
    ∃ ts, Upkeep.Taken c upkeep hs ts ∧ Turns c s.monitor.slots ts s'.monitor.slots := by
  induction hs using List.reverseRecOn generalizing s' with
  | nil =>
    cases hrun
    exact ⟨[], Upkeep.Taken.nothing, Path.nothing _⟩
  | append_singleton hs h ih =>
    obtain ⟨x, hpast, hlast⟩ := run_append_iff.mp hrun
    obtain ⟨ts, htaken, hturns⟩ := ih hpast
    obtain _ | ⟨hstep, hnothing⟩ := hlast
    cases hnothing
    cases hstep with
    | observe k e =>
      refine ⟨ts, htaken.observed k e, ?_⟩
      rw [Monitor.slots_observe]
      exact hturns
    | @perform i e next hasks answer hfits =>
      obtain ⟨rest, a, hends⟩ := (hrun.does i).exists_ends
      rw [hstart, Happening.own_append, Happening.own_cons_did_self] at hends
      cases hown : Happening.own i hs with
      | nil =>
        rw [hown] at hends
        obtain ⟨t, htakes, hturn⟩ := Upkeep.exists_turn hends hfits
        exact ⟨ts ++ [t], htaken.begins hown htakes, Path.concat_iff.mpr ⟨_, hturns, hturn⟩⟩
      | cons first others =>
        have hbusy : ¬ Happening.Idle i hs := by
          rw [Happening.Idle, hown]
          exact List.cons_ne_nil first others
        rw [hown] at hends
        have hspares := Upkeep.spares hends ⟨e, answer⟩ (by simp)
        refine ⟨ts, htaken.goesOn hbusy _, ?_⟩
        rw [← hspares x.monitor] at hturns
        exact hturns

end Workplace

end StorageHealth
