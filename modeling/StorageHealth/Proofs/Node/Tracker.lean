import Mathlib.Data.List.Induction
import StorageHealth.Node.Tracker
import StorageHealth.Proofs.Process.Standing

/-!
# What a tracker knows of the past

A tracker keeps two things about each node, a time and a flag, and forgets how it came by them.
This file says what they mean: it compares a tracker with the list of everything it was told
(`Entry`), in any order, about any nodes and with any clock.

`Unrevoked` is the shape of both meanings: something was told that nothing later has revoked.  A
node is marked down when a marking stands unrevoked (`isMarkedDown_afterAll_iff`), and it is waited
for when an observation of it as not ready does (`isPending_afterAll_iff`); the time that is kept is
that of the first such observation (`notReadySince_afterAll_iff`).  `Due` lists what is to be done
about a node in terms of the list alone, and `observe_computes_history` puts all of this together.
-/

namespace StorageHealth

namespace NodeTracker

/-! ## What a tracker is told -/

/-- Something that a tracker is told. -/
inductive Entry where
  | observed (node : Node) (now : Nat)
  | marked (name : String)
  | recovered (name : String)
  | forgotten (name : String)

namespace Entry

/-- The node that an entry is about. -/
def name : Entry → String
  | observed node _ => nameOf node
  | marked name => name
  | recovered name => name
  | forgotten name => name

/-- A node is observed that is neither ready nor terminated. -/
def Waits (name : String) (since : Nat) (e : Entry) : Prop :=
  ∃ node, e = observed node since ∧ nameOf node = name ∧ node.isReady = false ∧
    node.isTerminated = false

/-- What ends the waiting for a node: it is observed ready, or marked, or forgotten. -/
def EndsWait (name : String) (e : Entry) : Prop :=
  (∃ node now, e = observed node now ∧ nameOf node = name ∧ node.isReady = true) ∨
    e = marked name ∨ e = forgotten name

/-- What takes the mark of a node away. -/
def Unmarks (name : String) (e : Entry) : Prop := e = recovered name ∨ e = forgotten name

lemma waits_observed_iff {node : Node} {now since : Nat} {name : String} :
    (observed node now).Waits name since ↔ nameOf node = name ∧ now = since ∧
      node.isReady = false ∧ node.isTerminated = false := by
  constructor
  · rintro ⟨node', h, hname, hready, hterminated⟩
    obtain ⟨rfl, rfl⟩ := observed.inj h
    exact ⟨hname, rfl, hready, hterminated⟩
  · rintro ⟨hname, rfl, hready, hterminated⟩
    exact ⟨node, rfl, hname, hready, hterminated⟩

lemma endsWait_observed_iff {node : Node} {now : Nat} {name : String} :
    (observed node now).EndsWait name ↔ nameOf node = name ∧ node.isReady = true := by
  constructor
  · rintro (⟨node', now', h, hname, hready⟩ | h | h)
    · obtain ⟨rfl, -⟩ := observed.inj h
      exact ⟨hname, hready⟩
    · cases h
    · cases h
  · rintro ⟨hname, hready⟩
    exact Or.inl ⟨node, now, rfl, hname, hready⟩

lemma Waits.name_eq {name : String} {since : Nat} {e : Entry} (h : e.Waits name since) :
    e.name = name := by
  obtain ⟨node, rfl, hname, -, -⟩ := h
  exact hname

lemma EndsWait.name_eq {name : String} {e : Entry} (h : e.EndsWait name) : e.name = name := by
  rcases h with ⟨node, now, rfl, hname, -⟩ | rfl | rfl
  · exact hname
  · rfl
  · rfl

lemma Unmarks.name_eq {name : String} {e : Entry} (h : e.Unmarks name) : e.name = name := by
  rcases h with rfl | rfl
  · rfl
  · rfl

/-- A node that is observed not ready is not observed ready. -/
lemma Waits.not_endsWait {name : String} {since : Nat} {e : Entry} (h : e.Waits name since) :
    ¬ e.EndsWait name := by
  obtain ⟨node, rfl, -, hready, -⟩ := h
  rintro (⟨node', now, hsame, -, hready'⟩ | hmarked | hforgotten)
  · obtain ⟨rfl, -⟩ := observed.inj hsame
    rw [hready] at hready'
    cases hready'
  · cases hmarked
  · cases hforgotten

end Entry

/-- What a tracker becomes when it is told something. -/
def after (t : NodeTracker) : Entry → NodeTracker
  | .observed node now => (t.observe node now).1
  | .marked name => t.marked name
  | .recovered name => t.recovered name
  | .forgotten name => t.forget name

/-- What a tracker becomes when it is told one thing after the other. -/
def afterAll (t : NodeTracker) (es : List Entry) : NodeTracker := es.foldl after t

lemma afterAll_concat (t : NodeTracker) (es : List Entry) (e : Entry) :
    t.afterAll (es ++ [e]) = (t.afterAll es).after e := by
  rw [afterAll, List.foldl_append]
  rfl

/-! ## What a history says -/

/-- Something was told that nothing later has revoked.  Whether it counts may depend on what was
told before. -/
def Unrevoked (tells : List Entry → Entry → Prop) (revokes : Entry → Prop) (es : List Entry) :
    Prop :=
  ∃ before e later, es = before ++ e :: later ∧ tells before e ∧ ∀ x ∈ later, ¬ revokes x

/-- A node stands marked. -/
def Marked (name : String) : List Entry → Prop :=
  Unrevoked (fun _ e => e = .marked name) (·.Unmarks name)

/-- A node is being waited for. -/
def Waiting (name : String) : List Entry → Prop :=
  Unrevoked (fun _ e => ∃ since, e.Waits name since) (·.EndsWait name)

/-- A node has been waited for since this time, which is that of the first observation that counts:
the node was not waited for before. -/
def WaitingSince (name : String) (since : Nat) : List Entry → Prop :=
  Unrevoked (fun before e => e.Waits name since ∧ ¬ Waiting name before) (·.EndsWait name)

section Unrevoked

variable {tells : List Entry → Entry → Prop} {revokes : Entry → Prop}

lemma unrevoked_iff_standing {es : List Entry} :
    Unrevoked tells revokes es ↔ Standing tells revokes es := Iff.rfl

/-- The last entry either tells it, or leaves what was told before. -/
lemma unrevoked_concat_iff {es : List Entry} {e : Entry} :
    Unrevoked tells revokes (es ++ [e]) ↔
      tells es e ∨ ¬ revokes e ∧ Unrevoked tells revokes es := by
  rw [unrevoked_iff_standing, standing_concat_iff, unrevoked_iff_standing]

/-- When telling and revoking are about one node only, so is what stands. -/
lemma unrevoked_filter_iff {name : String} (htells : ∀ es e, tells es e → e.name = name)
    (hbefore : ∀ es e, tells (es.filter (fun x => x.name = name)) e ↔ tells es e)
    (hrevokes : ∀ e, revokes e → e.name = name) {es : List Entry} :
    Unrevoked tells revokes (es.filter (fun x => x.name = name)) ↔ Unrevoked tells revokes es := by
  induction es using List.reverseRecOn with
  | nil => rfl
  | append_singleton es e ih =>
    rw [List.filter_append, unrevoked_concat_iff]
    by_cases hname : e.name = name
    · rw [List.filter_cons_of_pos (by simpa using hname), List.filter_nil, unrevoked_concat_iff, ih,
        hbefore]
    · have htell : ¬ tells es e := fun h => hname (htells es e h)
      have hrevoke : ¬ revokes e := fun h => hname (hrevokes e h)
      rw [List.filter_cons_of_neg (by simpa using hname), List.filter_nil, List.append_nil, ih]
      simp [htell, hrevoke]

end Unrevoked

variable {name : String} {since : Nat} {es : List Entry}

/-! What is told about other nodes does not matter. -/

lemma marked_filter_iff : Marked name (es.filter (fun x => x.name = name)) ↔ Marked name es := by
  refine unrevoked_filter_iff ?_ (fun _ _ => Iff.rfl) fun _ h => h.name_eq
  rintro _ _ rfl
  rfl

lemma waiting_filter_iff : Waiting name (es.filter (fun x => x.name = name)) ↔ Waiting name es := by
  refine unrevoked_filter_iff ?_ (fun _ _ => Iff.rfl) fun _ h => h.name_eq
  rintro _ _ ⟨since, h⟩
  exact h.name_eq

lemma waitingSince_filter_iff :
    WaitingSince name since (es.filter (fun x => x.name = name)) ↔ WaitingSince name since es :=
  unrevoked_filter_iff (fun _ _ h => h.1.name_eq) (fun _ _ => by rw [waiting_filter_iff])
    fun _ h => h.name_eq

/-! ## What an entry does to a tracker -/

lemma threshold_after (t : NodeTracker) (e : Entry) : (t.after e).threshold = t.threshold := by
  cases e with
  | observed node now =>
    simp only [after, observe]
    split
    · rfl
    · split
      · rfl
      · split <;> rfl
  | marked name => rfl
  | recovered name => rfl
  | forgotten name => rfl

lemma down_observe (t : NodeTracker) (node : Node) (now : Nat) :
    (t.observe node now).1.down = t.down := by
  simp only [observe]
  split
  · rfl
  · split
    · rfl
    · split <;> rfl

lemma isMarkedDown_observe (t : NodeTracker) (node : Node) (now : Nat) (name : String) :
    (t.observe node now).1.isMarkedDown name = t.isMarkedDown name := by
  rw [isMarkedDown, isMarkedDown, down_observe]

lemma isMarkedDown_marked_iff {t : NodeTracker} {n name : String} :
    (t.marked n).isMarkedDown name = true ↔ n = name ∨ t.isMarkedDown name = true := by
  simp [marked, isMarkedDown, eq_comm (a := name)]

lemma isMarkedDown_recovered_iff {t : NodeTracker} {n name : String} :
    (t.recovered n).isMarkedDown name = true ↔ n ≠ name ∧ t.isMarkedDown name = true := by
  simp [recovered, isMarkedDown, eq_comm (a := name), and_comm]

lemma isMarkedDown_forget_iff {t : NodeTracker} {n name : String} :
    (t.forget n).isMarkedDown name = true ↔ n ≠ name ∧ t.isMarkedDown name = true :=
  isMarkedDown_recovered_iff

/-- A node is marked down when it is marked, or when it was before and its mark is not taken
away. -/
lemma isMarkedDown_after_iff {t : NodeTracker} {e : Entry} {name : String} :
    (t.after e).isMarkedDown name = true ↔
      e = .marked name ∨ ¬ e.Unmarks name ∧ t.isMarkedDown name = true := by
  cases e with
  | observed node now => simp [after, isMarkedDown_observe, Entry.Unmarks]
  | marked n => simp [after, isMarkedDown_marked_iff, Entry.Unmarks]
  | recovered n => simp [after, isMarkedDown_recovered_iff, Entry.Unmarks]
  | forgotten n => simp [after, isMarkedDown_forget_iff, Entry.Unmarks]

/-- The time that is kept for a node stays until the waiting ends, and a new one is only kept when
there is none. -/
lemma get?_after_eq_some_iff {t : NodeTracker} {e : Entry} {name : String} {since : Nat} :
    (t.after e).notReadySince.get? name = some since ↔ ¬ e.EndsWait name ∧
      (t.notReadySince.get? name = some since ∨
        t.notReadySince.get? name = none ∧ e.Waits name since) := by
  cases e with
  | observed node now =>
    rw [Entry.endsWait_observed_iff, Entry.waits_observed_iff]
    simp only [after, observe]
    split
    · rename_i hready
      by_cases hname : nameOf node = name <;> simp [Table.get?_erase, hname, hready]
    · rename_i hready
      split
      · rename_i hterminated
        simp [hready, hterminated]
      · rename_i hterminated
        split
        · rename_i kept hkept
          by_cases hname : nameOf node = name
          · rw [hname] at hkept
            simp [hready, hkept]
          · simp [hready, hname]
        · rename_i hnone
          by_cases hname : nameOf node = name
          · rw [hname] at hnone
            simp [hready, hterminated, hname, hnone]
          · simp [Table.get?_insert, hready, hname]
  | marked n =>
    by_cases hname : n = name <;>
      simp [after, marked, Table.get?_erase, Entry.EndsWait, Entry.Waits, hname]
  | recovered n => simp [after, recovered, Entry.EndsWait, Entry.Waits]
  | forgotten n =>
    by_cases hname : n = name <;>
      simp [after, forget, Table.get?_erase, Entry.EndsWait, Entry.Waits, hname]

lemma isPending_iff {t : NodeTracker} {name : String} :
    t.isPending name = true ↔ ∃ since, t.notReadySince.get? name = some since :=
  Option.isSome_iff_exists

/-- A node is waited for when it is observed not ready, or when it was before and nothing ends
that. -/
lemma isPending_after_iff {t : NodeTracker} {e : Entry} {name : String} :
    (t.after e).isPending name = true ↔
      (∃ since, e.Waits name since) ∨ ¬ e.EndsWait name ∧ t.isPending name = true := by
  rw [isPending_iff, isPending_iff]
  constructor
  · rintro ⟨since, hsince⟩
    rcases get?_after_eq_some_iff.mp hsince with ⟨hgoes, hkept | ⟨-, hwaits⟩⟩
    · exact Or.inr ⟨hgoes, since, hkept⟩
    · exact Or.inl ⟨since, hwaits⟩
  · rintro (⟨since, hwaits⟩ | ⟨hgoes, since, hkept⟩)
    · cases hnone : t.notReadySince.get? name with
      | none =>
        exact ⟨since, get?_after_eq_some_iff.mpr ⟨hwaits.not_endsWait, Or.inr ⟨hnone, hwaits⟩⟩⟩
      | some kept =>
        exact ⟨kept, get?_after_eq_some_iff.mpr ⟨hwaits.not_endsWait, Or.inl hnone⟩⟩
    · exact ⟨since, get?_after_eq_some_iff.mpr ⟨hgoes, Or.inl hkept⟩⟩

/-! ## What a tracker knows -/

/-- A node is marked down exactly when a marking of it stands. -/
lemma isMarkedDown_afterAll_iff {threshold : Nat} {es : List Entry} {name : String} :
    ((fresh threshold).afterAll es).isMarkedDown name = true ↔ Marked name es :=
  foldl_iff_standing (P := fun t : NodeTracker => t.isMarkedDown name = true)
    (by simp [fresh, isMarkedDown]) (fun _ _ => isMarkedDown_after_iff) es

/-- A node is waited for exactly when an observation of it as not ready stands. -/
lemma isPending_afterAll_iff {threshold : Nat} {es : List Entry} {name : String} :
    ((fresh threshold).afterAll es).isPending name = true ↔ Waiting name es := by
  have hstart : (fresh threshold).isPending name ≠ true := Bool.false_ne_true
  exact foldl_iff_standing (P := fun t : NodeTracker => t.isPending name = true) hstart
    (fun _ _ => isPending_after_iff) es

/-- The time that is kept for a node is that of the first observation in the present waiting. -/
lemma notReadySince_afterAll_iff {threshold : Nat} {es : List Entry} {name : String} {since : Nat} :
    ((fresh threshold).afterAll es).notReadySince.get? name = some since ↔
      WaitingSince name since es := by
  have hstart : (fresh threshold).notReadySince.get? name ≠ some since :=
    (Option.some_ne_none since).symm
  refine foldl_iff_standing (P := fun t : NodeTracker => t.notReadySince.get? name = some since)
    hstart (fun es e => ?_) es
  have hnone : ((fresh threshold).afterAll es).notReadySince.get? name = none ↔
      ¬ Waiting name es := by
    have hpending : ((fresh threshold).afterAll es).isPending name = true ↔ Waiting name es :=
      isPending_afterAll_iff
    rw [← hpending, isPending_iff, not_exists, Option.eq_none_iff_forall_ne_some]
  rw [get?_after_eq_some_iff, ← afterAll, hnone]
  constructor
  · rintro ⟨hgoes, hkept | ⟨hfirst, hwaits⟩⟩
    · exact Or.inr ⟨hgoes, hkept⟩
    · exact Or.inl ⟨hwaits, hfirst⟩
  · rintro (⟨hwaits, hfirst⟩ | ⟨hgoes, hkept⟩)
    · exact ⟨hwaits.not_endsWait, Or.inr ⟨hfirst, hwaits⟩⟩
    · exact ⟨hgoes, Or.inl hkept⟩

lemma threshold_afterAll (threshold : Nat) (es : List Entry) :
    ((fresh threshold).afterAll es).threshold = threshold := by
  induction es using List.reverseRecOn with
  | nil => rfl
  | append_singleton es e ih => rw [afterAll_concat, threshold_after, ih]

/-! ## What is to be done -/

/-- What is to be done about a node that is observed now, after all that was told before. -/
inductive Due (threshold : Nat) (es : List Entry) (node : Node) (now : Nat) :
    NodeAction → Prop where
  | back (hready : node.isReady = true) (hmarked : Marked (nameOf node) es) :
      Due threshold es node now .notifyRecovered
  | well (hready : node.isReady = true) (hmarked : ¬ Marked (nameOf node) es) :
      Due threshold es node now .nothing
  | terminated (hready : node.isReady = false) (hterminated : node.isTerminated = true) :
      Due threshold es node now .markFailed
  | overdue (hready : node.isReady = false) (hterminated : node.isTerminated = false) {since : Nat}
      (hsince : WaitingSince (nameOf node) since es) (hlong : threshold < now - since) :
      Due threshold es node now .markFailed
  | patient (hready : node.isReady = false) (hterminated : node.isTerminated = false)
      (hshort : ∀ since, WaitingSince (nameOf node) since es → now - since ≤ threshold) :
      Due threshold es node now .nothing

lemma observe_of_ready {t : NodeTracker} {node : Node} {now : Nat} (hready : node.isReady = true) :
    (t.observe node now).2 =
      if t.isMarkedDown (nameOf node) then .notifyRecovered else .nothing := by
  simp [observe, hready]

lemma observe_of_terminated {t : NodeTracker} {node : Node} {now : Nat}
    (hready : node.isReady = false) (hterminated : node.isTerminated = true) :
    (t.observe node now).2 = .markFailed := by
  simp [observe, hready, hterminated]

lemma observe_of_waiting {t : NodeTracker} {node : Node} {now since : Nat}
    (hready : node.isReady = false) (hterminated : node.isTerminated = false)
    (hsince : t.notReadySince.get? (nameOf node) = some since) :
    (t.observe node now).2 = if t.threshold < now - since then .markFailed else .nothing := by
  simp [observe, hready, hterminated, hsince]

lemma observe_of_new {t : NodeTracker} {node : Node} {now : Nat} (hready : node.isReady = false)
    (hterminated : node.isTerminated = false)
    (hnone : t.notReadySince.get? (nameOf node) = none) : (t.observe node now).2 = .nothing := by
  simp [observe, hready, hterminated, hnone]

/-- What a tracker says is what is due, and nothing else. -/
lemma observe_eq_iff_due {threshold : Nat} {es : List Entry} {node : Node} {now : Nat}
    {action : NodeAction} : (((fresh threshold).afterAll es).observe node now).2 = action ↔
      Due threshold es node now action := by
  constructor
  · rintro rfl
    cases hready : node.isReady with
    | true =>
      rw [observe_of_ready hready]
      split
      · rename_i hmarked
        exact Due.back hready (isMarkedDown_afterAll_iff.mp hmarked)
      · rename_i hmarked
        exact Due.well hready fun h => hmarked (isMarkedDown_afterAll_iff.mpr h)
    | false =>
      cases hterminated : node.isTerminated with
      | true =>
        rw [observe_of_terminated hready hterminated]
        exact Due.terminated hready hterminated
      | false =>
        cases hsince : ((fresh threshold).afterAll es).notReadySince.get? (nameOf node) with
        | none =>
          rw [observe_of_new hready hterminated hsince]
          refine Due.patient hready hterminated fun since h => ?_
          rw [notReadySince_afterAll_iff.mpr h] at hsince
          cases hsince
        | some since =>
          rw [observe_of_waiting hready hterminated hsince, threshold_afterAll]
          split
          · rename_i hlong
            exact Due.overdue hready hterminated (notReadySince_afterAll_iff.mp hsince) hlong
          · rename_i hshort
            refine Due.patient hready hterminated fun since' h => ?_
            rw [notReadySince_afterAll_iff.mpr h] at hsince
            cases hsince
            exact Nat.le_of_not_lt hshort
  · intro h
    cases h with
    | back hready hmarked =>
      rw [observe_of_ready hready, if_pos (isMarkedDown_afterAll_iff.mpr hmarked)]
    | well hready hmarked =>
      rw [observe_of_ready hready, if_neg fun h => hmarked (isMarkedDown_afterAll_iff.mp h)]
    | terminated hready hterminated => exact observe_of_terminated hready hterminated
    | overdue hready hterminated hsince hlong =>
      rw [observe_of_waiting hready hterminated (notReadySince_afterAll_iff.mpr hsince),
        threshold_afterAll, if_pos hlong]
    | patient hready hterminated hshort =>
      cases hsince : ((fresh threshold).afterAll es).notReadySince.get? (nameOf node) with
      | none => exact observe_of_new hready hterminated hsince
      | some since =>
        have hle := hshort since (notReadySince_afterAll_iff.mp hsince)
        rw [observe_of_waiting hready hterminated hsince, threshold_afterAll,
          if_neg (Nat.not_lt_of_le hle)]

/-- What a tracker says about a node only depends on what it knows about that node. -/
lemma observe_congr {t t' : NodeTracker} {node : Node} (hthreshold : t.threshold = t'.threshold)
    (hmarked : t.isMarkedDown (nameOf node) = t'.isMarkedDown (nameOf node))
    (hsince : t.notReadySince.get? (nameOf node) = t'.notReadySince.get? (nameOf node))
    (now : Nat) : (t.observe node now).2 = (t'.observe node now).2 := by
  simp only [observe, hthreshold, hmarked, hsince]
  split
  · rfl
  · split
    · rfl
    · split <;> rfl

/-- A tracker is a function of what it was told: a node is marked down when a marking of it stands,
it is pending when an observation of it as not ready stands, since the first such observation, and
what it says about a node is what is due.  Had it only been told about one node, it would know and
say the same about that one. -/
theorem observe_computes_history (threshold : Nat) (es : List Entry) :
    (∀ name, ((fresh threshold).afterAll es).isMarkedDown name = true ↔ Marked name es) ∧
    (∀ name, ((fresh threshold).afterAll es).isPending name = true ↔ Waiting name es) ∧
    (∀ name since, ((fresh threshold).afterAll es).notReadySince.get? name = some since ↔
      WaitingSince name since es) ∧
    (∀ node now action, (((fresh threshold).afterAll es).observe node now).2 = action ↔
      Due threshold es node now action) ∧
    ∀ node now, (((fresh threshold).afterAll
        (es.filter (fun e => e.name = nameOf node))).isMarkedDown (nameOf node) =
      ((fresh threshold).afterAll es).isMarkedDown (nameOf node)) ∧
      (((fresh threshold).afterAll
        (es.filter (fun e => e.name = nameOf node))).notReadySince.get? (nameOf node) =
      ((fresh threshold).afterAll es).notReadySince.get? (nameOf node)) ∧
      (((fresh threshold).afterAll
        (es.filter (fun e => e.name = nameOf node))).observe node now).2 =
      (((fresh threshold).afterAll es).observe node now).2 := by
  refine ⟨fun _ => isMarkedDown_afterAll_iff, fun _ => isPending_afterAll_iff,
    fun _ _ => notReadySince_afterAll_iff, fun _ _ _ => observe_eq_iff_due, fun node now => ?_⟩
  have hmarked : ((fresh threshold).afterAll
      (es.filter (fun e => e.name = nameOf node))).isMarkedDown (nameOf node) =
        ((fresh threshold).afterAll es).isMarkedDown (nameOf node) := by
    rw [Bool.eq_iff_iff, isMarkedDown_afterAll_iff, isMarkedDown_afterAll_iff, marked_filter_iff]
  have hsince : ((fresh threshold).afterAll
      (es.filter (fun e => e.name = nameOf node))).notReadySince.get? (nameOf node) =
        ((fresh threshold).afterAll es).notReadySince.get? (nameOf node) := by
    refine Option.ext fun since => ?_
    rw [notReadySince_afterAll_iff, notReadySince_afterAll_iff, waitingSince_filter_iff]
  refine ⟨hmarked, hsince, observe_congr ?_ hmarked hsince now⟩
  rw [threshold_afterAll, threshold_afterAll]

end NodeTracker

end StorageHealth
