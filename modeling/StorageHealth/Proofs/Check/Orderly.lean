import StorageHealth.Proofs.Check.Activities

/-!
# Orderly histories

`Deed.Orderly` keeps of a history what matters to recoveries: each recovery that was published
stands between the look that asked for it and the mark it leaves.  Reports are orderly, and so is
everything that puts checks one after the other, since nothing else touches the warnings.
-/

namespace StorageHealth

/-! ## Histories -/

/-- An effect leaves the caches and the warnings alone. -/
def Effect.IsQuiet (e : Effect) : Prop :=
  ∀ m, (e.leaves m).caches = m.caches ∧ (e.leaves m).warnings = m.warnings

namespace Deed

/-- A deed leaves the warnings alone and publishes no recovery. -/
structure Plain (d : Deed) : Prop where
  isQuiet : d.effect.IsQuiet
  not_recovers : ∀ uid, ¬ d.Recovers uid

lemma not_recovers_update (f : Monitor → Monitor) (m : Monitor) {uid : String} :
    ¬ Recovers uid ⟨.update f, m⟩ := by
  rintro ⟨n, -, -, -, h⟩
  cases congrArg effect h

/-- Updates that leave the warnings alone are plain. -/
lemma plain_update {f : Monitor → Monitor} (hf : (Effect.update f).IsQuiet) (m : Monitor) :
    Plain ⟨.update f, m⟩ where
  isQuiet := hf
  not_recovers := fun _ => not_recovers_update f m

lemma plain_slotted (f : Slots → Slots) (m : Monitor) : (slotted f m).Plain where
  isQuiet := fun _ => ⟨rfl, rfl⟩
  not_recovers := fun _ => not_recovers_update _ m

lemma plain_listing (deadline : Span) (outcome : Outcome Conditions) :
    Plain ⟨.listing deadline, outcome⟩ where
  isQuiet := fun _ => ⟨rfl, rfl⟩
  not_recovers := by
    rintro uid ⟨n, -, -, -, h⟩
    cases congrArg effect h

lemma plain_probe (call : Call) (deadline : Span) (outcome : Outcome Condition) :
    Plain ⟨.probe call deadline, outcome⟩ where
  isQuiet := fun _ => ⟨rfl, rfl⟩
  not_recovers := by
    rintro uid ⟨n, -, -, -, h⟩
    cases congrArg effect h

/-- A warning is no recovery, whatever becomes of it. -/
lemma plain_sent_warning (s : Subject) (message : String) (outcome : Except PublishError Unit) :
    (sent (Check.warning s message) outcome).Plain where
  isQuiet := fun _ => ⟨rfl, rfl⟩
  not_recovers := by
    rintro uid ⟨n, -, hn, -, h⟩
    have hnotice : Check.warning s message = n := Effect.publish.inj (congrArg effect h)
    rw [← hnotice] at hn
    cases hn

/-- A recovery that was refused counts for nothing. -/
lemma plain_sent_error (n : Notice) (e : PublishError) : (sent n (.error e)).Plain where
  isQuiet := fun _ => ⟨rfl, rfl⟩
  not_recovers := by
    rintro uid ⟨n', -, -, -, h⟩
    cases h

/-- Histories in which each published recovery comes right after the look that asked for it, and
right before the mark that it leaves. -/
inductive Orderly : List Deed → Prop where
  | nothing : Orderly []
  | cons_plain {d : Deed} (hd : d.Plain) {ds : List Deed} (rest : Orderly ds) : Orderly (d :: ds)
  | cons_rearmed (uid : String) (m : Monitor) {ds : List Deed} (rest : Orderly ds) :
      Orderly (rearmed uid m :: ds)
  | cons_recovered {n : Notice} {uid : String} (hn : n.subject.uid = some uid) {m : Monitor}
      (hm : m.awaits uid = true) (m' : Monitor) {ds : List Deed} (rest : Orderly ds) :
      Orderly (looked m :: sent n (.ok ()) :: settled uid m' :: ds)

lemma Orderly.append {ds es : List Deed} (h : Orderly ds) (h' : Orderly es) :
    Orderly (ds ++ es) := by
  induction h with
  | nothing => exact h'
  | cons_plain hd _ ih => exact Orderly.cons_plain hd ih
  | cons_rearmed uid m _ ih => exact Orderly.cons_rearmed uid m ih
  | cons_recovered hn hm m' _ ih => exact Orderly.cons_recovered hn hm m' ih

/-- What comes right before a published recovery and right after it. -/
lemma Orderly.around_recovery {before after : List Deed} {d : Deed} {uid : String}
    (h : Orderly (before ++ d :: after)) (hd : d.Recovers uid) :
    ∃ earlier m m' later, before = earlier ++ [looked m] ∧ m.awaits uid = true ∧
      after = settled uid m' :: later ∧ Orderly later := by
  generalize hds : before ++ d :: after = ds at h
  induction h generalizing before with
  | nothing => exact absurd hds (by simp)
  | cons_plain hp _ ih =>
    rcases before with _ | ⟨b, before⟩
    · obtain ⟨rfl, -⟩ := List.cons.inj hds
      exact absurd hd (hp.not_recovers uid)
    · obtain ⟨rfl, hrest⟩ := List.cons.inj hds
      obtain ⟨earlier, m, m', later, rfl, hm, rfl, hlater⟩ := ih hrest
      exact ⟨b :: earlier, m, m', later, rfl, hm, rfl, hlater⟩
  | cons_rearmed uid' m _ ih =>
    rcases before with _ | ⟨b, before⟩
    · obtain ⟨rfl, -⟩ := List.cons.inj hds
      exact absurd hd (not_recovers_update _ _)
    · obtain ⟨rfl, hrest⟩ := List.cons.inj hds
      obtain ⟨earlier, m, m', later, rfl, hm, rfl, hlater⟩ := ih hrest
      exact ⟨_ :: earlier, m, m', later, rfl, hm, rfl, hlater⟩
  | cons_recovered hn hm m' rest ih =>
    rcases before with _ | ⟨b, _ | ⟨b', _ | ⟨b'', before⟩⟩⟩
    · obtain ⟨rfl, -⟩ := List.cons.inj hds
      exact absurd hd (not_recovers_update _ _)
    · simp only [List.cons_append, List.nil_append, List.cons.injEq] at hds
      obtain ⟨rfl, rfl, rfl⟩ := hds
      obtain ⟨n, hu, -, -, hsent⟩ := hd
      obtain rfl : _ = n := Effect.publish.inj (congrArg effect hsent)
      obtain rfl := Option.some.inj (hn.symm.trans hu)
      exact ⟨[], _, m', _, rfl, hm, rfl, rest⟩
    · simp only [List.cons_append, List.nil_append, List.cons.injEq] at hds
      obtain ⟨-, -, rfl, -⟩ := hds
      exact absurd hd (not_recovers_update _ _)
    · simp only [List.cons_append, List.cons.injEq] at hds
      obtain ⟨rfl, rfl, rfl, hrest⟩ := hds
      obtain ⟨earlier, m, m', later, rfl, hm, rfl, hlater⟩ := ih hrest
      exact ⟨_ :: _ :: _ :: earlier, m, m', later, rfl, hm, rfl, hlater⟩

/-- An orderly deed leaves the caches alone, and makes or takes away a mark at most. -/
def Tame (d : Deed) : Prop :=
  d.effect.IsQuiet ∨ (∃ uid m, d = rearmed uid m) ∨
    ∃ uid m, d = settled uid m

lemma Orderly.tame {ds : List Deed} (h : Orderly ds) {d : Deed} (hd : d ∈ ds) : d.Tame := by
  induction h with
  | nothing => cases hd
  | cons_plain hp _ ih =>
    rcases List.mem_cons.mp hd with rfl | hd
    · exact Or.inl hp.isQuiet
    · exact ih hd
  | cons_rearmed uid m _ ih =>
    rcases List.mem_cons.mp hd with rfl | hd
    · exact Or.inr (Or.inl ⟨uid, m, rfl⟩)
    · exact ih hd
  | cons_recovered hn hm m' _ ih =>
    simp only [List.mem_cons] at hd
    rcases hd with rfl | rfl | rfl | hd
    · exact Or.inl fun _ => ⟨rfl, rfl⟩
    · exact Or.inl fun _ => ⟨rfl, rfl⟩
    · exact Or.inr (Or.inr ⟨_, m', rfl⟩)
    · exact ih hd

end Deed

/-! ## What is orderly -/

lemma Deed.closed_orderly : Deed.Closed Deed.Orderly := ⟨Deed.Orderly.nothing, Deed.Orderly.append⟩

lemma Deed.orderly_looked (m : Monitor) : Deed.Orderly [.looked m] :=
  Deed.Orderly.cons_plain (Deed.plain_update (fun _ => ⟨rfl, rfl⟩) m) Deed.Orderly.nothing

namespace Check

open Deed

lemma orderly_report (s : Subject) (condition : Condition) :
    (report s condition).Always Deed.Orderly := by
  intro ds r h
  cases reported_of_ends h with
  | nameless _ => exact Orderly.nothing
  | warned _ _ m outcome =>
    exact Orderly.cons_rearmed _ m
      (Orderly.cons_plain (plain_sent_warning s _ outcome) Orderly.nothing)
  | @quiet uid _ _ m _ => exact orderly_looked m
  | @refused uid _ _ m _ e =>
    exact (orderly_looked m).append (Orderly.cons_plain (plain_sent_error _ e) Orderly.nothing)
  | recovered hs _ hm m' => exact Orderly.cons_recovered hs hm m' Orderly.nothing

lemma orderly_ask (c : Conduct) (v : Volume) (call : Call) : (ask c v call).Always Deed.Orderly :=
  always_ask closed_orderly fun outcome =>
    Orderly.cons_plain (plain_probe _ _ outcome) Orderly.nothing

lemma orderly_controller (c : Conduct) (v : Volume) : (controller c v).Always Deed.Orderly :=
  always_controller closed_orderly orderly_looked orderly_report fun _ => orderly_ask c v _

lemma orderly_mount (c : Conduct) (v : Volume) (p : Pod) : (mount c v p).Always Deed.Orderly :=
  always_mount closed_orderly (orderly_ask c v) orderly_report

lemma orderly_sweep (c : Conduct) (volumes : List Volume) :
    (sweep c volumes).Always Deed.Orderly :=
  always_sweep closed_orderly orderly_looked orderly_report fun outcome =>
    Orderly.cons_plain (plain_listing _ outcome) Orderly.nothing

end Check

lemma Volume.orderly_cycle (c : Conduct) (now : Nat) (v : Volume) :
    (cycle c now v).Always Deed.Orderly :=
  always_cycle Deed.closed_orderly
    (fun f m => Deed.Orderly.cons_plain (Deed.plain_slotted f m) Deed.Orderly.nothing)
    (Check.orderly_controller c v)

lemma Pod.orderly_cycle (c : Conduct) (p : Pod) : (cycle c p).Always Deed.Orderly :=
  always_cycle Deed.closed_orderly Deed.orderly_looked fun v => Check.orderly_mount c v p

end StorageHealth
