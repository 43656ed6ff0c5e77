import StorageHealth.Proofs.Node.Retries
import StorageHealth.Proofs.Node.Tending
import StorageHealth.Proofs.Node.Watch

/-!
# Rounds for a deleted node

Whoever handles a deleted node marks it in rounds.  After a round that worked out the node is
forgotten and the handling ends; after one that failed there is a rest, and then the next round,
unless the handler was told to stop.  `Handled` lists what a handler may have done when it ends.

`Progress` is the invariant of a handler that has not ended yet.  A step of anybody else leaves it
alone, and each of its own steps is one of the round, of the rest, or the way back into the next
round (`Step.progress_of_own`).  So everything that a handler does from its call to its end is
`Handled`, and everything that is `Handled` can happen.  The virtual clock serves a handling on one
stage after another (`Simulation.Deletion.Served`), and what comes of that are moves of a handler as
well.

`Persistent` sums up what this means for a deleted node, and `handled_in_rounds` says that it holds
of all nodes.
-/

namespace StorageHealth

open Deed Node

/-! ## Rounds -/

namespace Node

variable {c : Conduct} {node : String} {ds : List Deed}

/-- The node could not be marked. -/
def Fails (c : Conduct) (node : String) (ds : List Deed) : Prop :=
  ∃ e, (mark c node).Ends ds (.error e)

/-- A round fails when the node could not be marked. -/
lemma ends_deletionRound_false_iff : (deletionRound c node).Ends ds false ↔ Fails c node ds := by
  rw [ends_deletionRound_iff]
  constructor
  · rintro ⟨first, last, r, rfl, hr, hmarking, hnoted⟩
    cases hnoted with
    | success m => cases hr
    | failure e => exact ⟨e, ends_mark_iff_marking.mpr (by rwa [List.append_nil])⟩
  · rintro ⟨e, h⟩
    exact ⟨ds, [], .error e, (List.append_nil ds).symm, rfl, ends_mark_iff_marking.mp h,
      Noted.failure e⟩

/-- A round that works out ends with the node being forgotten. -/
lemma ends_deletionRound_true_iff :
    (deletionRound c node).Ends ds true ↔ ∃ first m,
      ds = first ++ [tracked (fun t => t.forget node) m] ∧ (mark c node).Ends first (.ok ()) := by
  rw [ends_deletionRound_iff]
  constructor
  · rintro ⟨first, last, r, rfl, hr, hmarking, hnoted⟩
    cases hnoted with
    | success m => exact ⟨first, m, rfl, ends_mark_iff_marking.mpr hmarking⟩
    | failure e => cases hr
  · rintro ⟨first, m, rfl, h⟩
    exact ⟨first, _, .ok (), rfl, rfl, ends_mark_iff_marking.mp h, Noted.success m⟩

end Node

namespace Watch

variable {ι : Type} [DecidableEq ι] {c : Conduct} {node : String} {i : ι} {s t : Watch ι}
  {mv : Move ι} {mvs own : List (Move ι)}

/-! ## Being told to stop -/

/-- Who was told to stop stays told, and nobody else is by another move. -/
lemma Step.cancelled_iff (h : Step c s mv t) :
    t.cancelled i = true ↔ s.cancelled i = true ∨ .cancelled i = mv := by
  cases h with
  | cancel j =>
    by_cases hj : i = j
    · subst hj
      simp
    · simp [hj]
  | _ => simp

lemma Run.cancelled_iff (h : Run c s mvs t) :
    t.cancelled i = true ↔ s.cancelled i = true ∨ .cancelled i ∈ mvs := by
  induction h with
  | nothing s => simp
  | step first rest ih => rw [ih, first.cancelled_iff, List.mem_cons, or_assoc]

/-- Whoever was told to stop begins no further round. -/
lemma Run.not_resumed (h : Run c s mvs t) (hs : s.cancelled i = true) : .resumed i ∉ mvs := by
  induction h with
  | nothing s => exact List.not_mem_nil
  | step first rest ih =>
    rintro (_ | ⟨_, hmem⟩)
    · cases first with
      | resume resting goesOn => exact Bool.false_ne_true (goesOn.symm.trans hs)
    · exact ih (first.cancelled_iff.mpr (Or.inl hs)) hmem

/-! ## The moves of a handler -/

/-- The handler works. -/
def works (i : ι) (node : String) (ds : List Deed) : List (Move ι) := ds.map (.did (some i) node)

/-- Rounds that failed, each of them with a rest after it. -/
def failing (i : ι) (node : String) (rounds : List (List Deed)) : List (Move ι) :=
  rounds.flatMap fun ds => works i node ds ++ [.rested i, .resumed i]

omit [DecidableEq ι] in
lemma failing_concat (failed : List (List Deed)) (ds : List Deed) :
    failing i node (failed ++ [ds]) =
      failing i node failed ++ works i node ds ++ [.rested i, .resumed i] := by
  simp [failing]

/-- All that a handler does between its call and its end.  After rounds that failed there is one
that works out, and then the node is forgotten, or there is one more that fails, and then the
handler ends while it rests. -/
inductive Handled (c : Conduct) (i : ι) (node : String) : List (Move ι) → Bool → Prop where
  | forgotten {failed : List (List Deed)} {last : List Deed} (m : Monitor)
      (hfailed : ∀ ds ∈ failed, Fails c node ds)
      (hlast : (mark c node).Ends last (.ok ())) :
      Handled c i node (failing i node failed ++ works i node last ++
        [.did (some i) node (tracked (fun t => t.forget node) m)]) true
  | stopped {failed : List (List Deed)} {last : List Deed}
      (hfailed : ∀ ds ∈ failed, Fails c node ds) (hlast : Fails c node last) :
      Handled c i node (failing i node failed ++ works i node last ++ [.rested i]) false

/-- How far a handler has come, and what it has done since it was called. -/
inductive Progress (c : Conduct) (i : ι) (node : String) : Handling → List (Move ι) → Prop where
  | working {failed : List (List Deed)} {ds : List Deed} {left : Process Bool}
      (hfailed : ∀ ds ∈ failed, Fails c node ds)
      (does : (deletionRound c node).Does ds left) :
      Progress c i node (.inRound node left) (failing i node failed ++ works i node ds)
  | resting {failed : List (List Deed)} {ds : List Deed}
      (hfailed : ∀ ds ∈ failed, Fails c node ds) (fails : Fails c node ds) :
      Progress c i node (.resting node) (failing i node failed ++ works i node ds ++ [.rested i])

omit [DecidableEq ι] in
lemma progress_nil (c : Conduct) (i : ι) (node : String) :
    Progress c i node (.inRound node (deletionRound c node)) [] := by
  have hnone : ∀ ds ∈ ([] : List (List Deed)), Fails c node ds :=
    fun ds hds => absurd hds List.not_mem_nil
  exact Progress.working hnone (Process.Does.nothing _)

/-- Every move of a handler that has not ended yet takes it one step on. -/
lemma Step.progress_of_own (h : Step c s mv t) (hof : mv.isOf i = true) (hmv : mv ≠ .ended i)
    (hp : Progress c i node (s.handling i) own) :
    Progress c i node (t.handling i) (own ++ [mv]) := by
  have hgets := h.getsOn hof
  generalize s.handling i = now at hp hgets
  generalize t.handling i = later at hgets ⊢
  cases hgets with
  | lost name => cases hp
  | did name answer =>
    cases hp with
    | @working failed ds _ hfailed does =>
      have hdoes := does.append (Process.Does.step answer (Process.Does.nothing _))
      simpa [works] using Progress.working hfailed hdoes
  | rested name =>
    cases hp with
    | working hfailed does =>
      exact Progress.resting hfailed (ends_deletionRound_false_iff.mp does)
  | resumed name goesOn =>
    cases hp with
    | @resting failed ds hfailed fails =>
      have hall : ∀ es ∈ failed ++ [ds], Fails c node es := by
        intro es hes
        rcases List.mem_append.mp hes with hes | hes
        · exact hfailed es hes
        · exact List.mem_singleton.mp hes ▸ fails
      have hworking := Progress.working (i := i) hall (Process.Does.nothing _)
      rw [failing_concat] at hworking
      simpa [works] using hworking
  | succeeded name => exact absurd rfl hmv
  | stopped name stops => exact absurd rfl hmv

/-- Until it ends, a handler makes progress by its own moves. -/
lemma Run.progress (h : Run c s mvs t) (hmvs : .ended i ∉ mvs)
    (hp : Progress c i node (s.handling i) own) :
    Progress c i node (t.handling i) (own ++ mvs.filter (Move.isOf i)) := by
  induction h generalizing own with
  | nothing s => simpa using hp
  | @step s u t mv rest first more ih =>
    obtain ⟨hmv, hrest⟩ := not_or.mp (List.mem_cons.not.mp hmvs)
    cases hof : mv.isOf i with
    | false =>
      -- what anybody else does leaves the handler where it is
      rw [List.filter_cons_of_neg (by simp [hof])]
      exact ih hrest (by rwa [first.handling_eq hof])
    | true =>
      rw [List.filter_cons_of_pos hof, ← List.singleton_append, ← List.append_assoc]
      exact ih hrest (first.progress_of_own hof (Ne.symm hmv) hp)

/-- When a handler ends, everything that it did was as it should be.  Without a round that worked
out it ends only because it was told to stop. -/
lemma Run.handled (h : Run c s (mvs ++ [.ended i]) t) (hmvs : .ended i ∉ mvs)
    (hp : Progress c i node (s.handling i) own) :
    ∃ forgotten, Handled c i node (own ++ mvs.filter (Move.isOf i)) forgotten ∧
      (forgotten = false → s.cancelled i = true ∨ .cancelled i ∈ mvs) := by
  obtain ⟨u, hmoves, hended⟩ := Path.concat_iff.mp h
  have hp := Run.progress hmoves hmvs hp
  have hgets := hended.getsOn (decide_eq_true rfl)
  rw [← Run.cancelled_iff hmoves]
  generalize own ++ mvs.filter (Move.isOf i) = all at hp ⊢
  generalize u.handling i = now at hp hgets
  generalize t.handling i = later at hgets
  cases hgets with
  | succeeded name =>
    cases hp with
    | working hfailed does =>
      obtain ⟨last, m, rfl, hlast⟩ := ends_deletionRound_true_iff.mp does
      have hhandled := Handled.forgotten (i := i) m hfailed hlast
      exact ⟨true, by simpa [works] using hhandled, nofun⟩
  | stopped name stops =>
    cases hp with
    | resting hfailed fails => exact ⟨false, Handled.stopped hfailed fails, fun _ => stops⟩

/-- A call is the beginning of a first round. -/
lemma Step.progress_of_lost (h : Step c s (.lost i node) t) :
    Progress c i node (t.handling i) [] := by
  cases h with
  | lose free node =>
    rw [handling_advance_self]
    exact progress_nil c i node

/-! ## Handlers that have come to an end -/

/-- Whoever has nothing to handle does nothing until called. -/
lemma Run.idle (h : Run c s mvs t) (hs : s.handling i = .idle)
    (hlost : ∀ name, .lost i name ∉ mvs) : mvs.filter (Move.isOf i) = [] := by
  induction h with
  | nothing s => rfl
  | @step s u t mv rest first more ih =>
    have hof : mv.isOf i = false := by
      by_contra hof
      have hgets := first.getsOn (Bool.eq_true_of_not_eq_false hof)
      rw [hs] at hgets
      generalize u.handling i = later at hgets
      cases hgets with
      | lost name => exact hlost name List.mem_cons_self
    rw [List.filter_cons_of_neg (by simp [hof])]
    exact ih ((first.handling_eq hof).trans hs)
      fun name hmem => hlost name (List.mem_cons_of_mem _ hmem)

/-- Whoever is told to stop while it rests does nothing more than end. -/
lemma Run.stopped (h : Run c s mvs t) (hs : s.handling i = .resting node)
    (htold : s.cancelled i = true) (hlost : ∀ name, .lost i name ∉ mvs) :
    mvs.filter (Move.isOf i) = [] ∨ mvs.filter (Move.isOf i) = [.ended i] := by
  induction h with
  | nothing s => exact Or.inl rfl
  | @step s u t mv rest first more ih =>
    have hrest : ∀ name, .lost i name ∉ rest := fun name hmem =>
      hlost name (List.mem_cons_of_mem _ hmem)
    cases hof : mv.isOf i with
    | false =>
      rw [List.filter_cons_of_neg (by simp [hof])]
      exact ih ((first.handling_eq hof).trans hs) (first.cancelled_iff.mpr (Or.inl htold)) hrest
    | true =>
      rw [List.filter_cons_of_pos hof]
      have hgets := first.getsOn hof
      rw [hs, htold] at hgets
      generalize hu : u.handling i = later at hgets
      cases hgets with
      | resumed name goesOn => cases goesOn
      | stopped name stops =>
        rw [Run.idle more hu hrest]
        exact Or.inr rfl

/-- While a handler rests it has one way on: the next round, or to the end if it was told to
stop. -/
lemma resumes_iff (hs : s.handling i = .resting node) :
    (∃ t, Step c s (.resumed i) t) ↔ s.cancelled i = false := by
  constructor
  · rintro ⟨t, h⟩
    cases h with
    | resume resting goesOn => exact goesOn
  · exact fun hgoesOn => ⟨_, Step.resume hs hgoesOn⟩

lemma ends_iff (hs : s.handling i = .resting node) :
    (∃ t, Step c s (.ended i) t) ↔ s.cancelled i = true := by
  constructor
  · rintro ⟨t, h⟩
    cases h with
    | succeed worked =>
      rw [hs] at worked
      cases worked
    | stop resting told => exact told
  · exact fun htold => ⟨_, Step.stop hs htold⟩

/-! ## The monitor of a handler -/

/-- A move that leaves the monitor as it was. -/
def Move.IsStill (mv : Move ι) : Prop := ∀ m, mv.leaves m = m

lemma Step.monitor_eq (h : Step c s mv t) : t.monitor = mv.leaves s.monitor := by
  cases h <;> rfl

lemma Run.monitor_eq (h : Run c s mvs t) : t.monitor = mvs.foldl Move.leaves s.monitor := by
  induction h with
  | nothing s => rfl
  | step first rest ih => rw [ih, first.monitor_eq, List.foldl_cons]

omit [DecidableEq ι] in
lemma foldl_leaves_of_isStill (h : ∀ mv ∈ mvs, mv.IsStill) (m : Monitor) :
    mvs.foldl Move.leaves m = m := by
  induction mvs with
  | nil => rfl
  | cons mv rest ih =>
    rw [List.foldl_cons, h mv List.mem_cons_self]
    exact ih fun mv' hmv => h mv' (List.mem_cons_of_mem mv hmv)

/-- When nobody else changes the monitor, it is a matter of what the handler does. -/
lemma foldl_leaves_filter (h : ∀ mv ∈ mvs, mv.isOf i = true ∨ mv.IsStill) (m : Monitor) :
    mvs.foldl Move.leaves m = (mvs.filter (Move.isOf i)).foldl Move.leaves m := by
  induction mvs generalizing m with
  | nil => rfl
  | cons mv rest ih =>
    have hrest := fun m => ih (fun mv' hmv => h mv' (List.mem_cons_of_mem mv hmv)) m
    cases hof : mv.isOf i with
    | true => rw [List.filter_cons_of_pos hof, List.foldl_cons, List.foldl_cons, hrest]
    | false =>
      have hstill := (h mv List.mem_cons_self).resolve_left (by simp [hof])
      rw [List.filter_cons_of_neg (by simp [hof]), List.foldl_cons, hstill m, hrest]

omit [DecidableEq ι] in
lemma isStill_of_mem_works {ds : List Deed} {r : Except NodeError Unit}
    (h : (mark c node).Ends ds r) (mv : Move ι) (hmv : mv ∈ works i node ds) : mv.IsStill := by
  obtain ⟨d, hd, rfl⟩ := List.mem_map.mp hmv
  exact (ends_mark_iff_marking.mp h).calm d hd

omit [DecidableEq ι] in
lemma isStill_of_mem_failing {failed : List (List Deed)}
    (h : ∀ ds ∈ failed, Fails c node ds) (mv : Move ι) (hmv : mv ∈ failing i node failed) :
    mv.IsStill := by
  obtain ⟨ds, hds, hmv⟩ := List.mem_flatMap.mp hmv
  obtain ⟨e, hends⟩ := h ds hds
  rcases List.mem_append.mp hmv with hmv | hmv
  · exact isStill_of_mem_works hends mv hmv
  · rcases List.mem_cons.mp hmv with rfl | hmv
    · exact fun m => rfl
    · rw [List.mem_singleton.mp hmv]
      exact fun m => rfl

/-- What becomes of a monitor over the handling of a deleted node that nobody disturbs. -/
def afterwards (m : Monitor) (node : String) (forgotten : Bool) : Monitor :=
  if forgotten then { m with tracker := m.tracker.forget node } else m

omit [DecidableEq ι] in
lemma isStill_of_mem_rounds {failed : List (List Deed)} {last : List Deed}
    {r : Except NodeError Unit} (hfailed : ∀ ds ∈ failed, Fails c node ds)
    (hlast : (mark c node).Ends last r) :
    ∀ mv ∈ failing i node failed ++ works i node last, mv.IsStill := fun mv hmv =>
  (List.mem_append.mp hmv).elim (isStill_of_mem_failing hfailed mv) (isStill_of_mem_works hlast mv)

omit [DecidableEq ι] in
/-- A handler that is stopped has left the monitor alone. -/
lemma Handled.isStill (h : Handled c i node mvs false) : ∀ mv ∈ mvs, mv.IsStill := by
  cases h with
  | stopped hfailed hlast =>
    intro mv hmv
    obtain ⟨e, hends⟩ := hlast
    rcases List.mem_append.mp hmv with hmv | hmv
    · exact isStill_of_mem_rounds hfailed hends mv hmv
    · rw [List.mem_singleton.mp hmv]
      exact fun m => rfl

omit [DecidableEq ι] in
/-- What a handler makes of a monitor. -/
lemma Handled.foldl_leaves {forgotten : Bool} (h : Handled c i node mvs forgotten) (m : Monitor) :
    mvs.foldl Move.leaves m = afterwards m node forgotten := by
  cases forgotten with
  | false => exact foldl_leaves_of_isStill h.isStill m
  | true =>
    cases h with
    | forgotten _ hfailed hlast =>
      rw [List.foldl_append, foldl_leaves_of_isStill (isStill_of_mem_rounds hfailed hlast)]
      rfl

/-! ## Handlers that nobody disturbs -/

lemma leads_of_calm {m : Monitor} {ds : List Deed} (hcalm : ∀ d ∈ ds, d.Calm)
    (hfits : ∀ d ∈ ds, d.Fits m) : m.Leads ds m := by
  induction ds with
  | nil => exact Path.nothing m
  | cons d rest ih =>
    refine Path.step ⟨hfits d List.mem_cons_self, (hcalm d List.mem_cons_self m).symm⟩ (ih ?_ ?_)
    · exact fun e he => hcalm e (List.mem_cons_of_mem d he)
    · exact fun e he => hfits e (List.mem_cons_of_mem d he)

/-- A round that fails goes as it should, when its deeds fit the monitor. -/
lemma run_works {m : Monitor} {ds : List Deed} (h : Fails c node ds)
    (hfits : ∀ d ∈ ds, d.Fits m) (s : Watch ι) (i : ι) :
    Run c (s.advance i m (.inRound node (deletionRound c node)))
      (works i node ds ++ [.rested i]) (s.advance i m (.resting node)) := by
  have hends := ends_deletionRound_false_iff.mpr h
  have hleads := leads_of_calm (ends_mark_iff_marking.mp h.choose_spec).calm hfits
  have hrest : Step c (s.advance i m (.inRound node (.done false))) (.rested i)
      (s.advance i m (.resting node)) := (GetsOn.rested node).step trivial
  exact (run_of_leads c s i node hends hleads).append (Path.single hrest)

lemma run_failing {m : Monitor} {failed : List (List Deed)}
    (h : ∀ ds ∈ failed, Fails c node ds)
    (hfits : ∀ ds ∈ failed, ∀ d ∈ ds, d.Fits m) (hgoesOn : s.cancelled i = false) :
    Run c (s.advance i m (.inRound node (deletionRound c node))) (failing i node failed)
      (s.advance i m (.inRound node (deletionRound c node))) := by
  induction failed with
  | nil => exact Path.nothing _
  | cons ds rest ih =>
    have hround := run_works (h ds List.mem_cons_self) (hfits ds List.mem_cons_self) s i
    have hresume : Step c (s.advance i m (.resting node)) (.resumed i)
        (s.advance i m (.inRound node (deletionRound c node))) :=
      (GetsOn.resumed node hgoesOn).step trivial
    have hmore := ih (fun es hes => h es (List.mem_cons_of_mem ds hes))
      (fun es hes => hfits es (List.mem_cons_of_mem ds hes))
    have hrun := hround.append (Path.step hresume hmore)
    simpa [failing] using hrun

lemma advance_idle (hfree : s.handling i = .idle) (m : Monitor) :
    s.advance i m .idle = { s with monitor := m } := by
  rw [advance, ← hfree, Function.update_eq_self]

omit [DecidableEq ι] in
lemma fits_of_rounds {m : Monitor} {failed : List (List Deed)} {last : List Deed}
    {more : List (Move ι)} (h : ∀ who name d,
      .did who name d ∈ failing i node failed ++ works i node last ++ more → d.Fits m) :
    (∀ ds ∈ failed, ∀ d ∈ ds, d.Fits m) ∧ ∀ d ∈ last, d.Fits m := by
  constructor
  · intro ds hds d hd
    refine h (some i) node d (List.mem_append_left _ (List.mem_append_left _ ?_))
    exact List.mem_flatMap.mpr ⟨ds, hds, List.mem_append_left _ (List.mem_map_of_mem hd)⟩
  · intro d hd
    refine h (some i) node d (List.mem_append_left _ (List.mem_append_right _ ?_))
    exact List.mem_map_of_mem hd

/-- After rounds that failed, one may work out. -/
lemma Handled.run_forgotten (h : Handled c i node mvs true) (hfree : s.handling i = .idle)
    (hgoesOn : s.cancelled i = false)
    (hfits : ∀ who name d, .did who name d ∈ mvs → d.Fits s.monitor) :
    Run c s (.lost i node :: (mvs ++ [.ended i]))
      { s with monitor := { s.monitor with tracker := s.monitor.tracker.forget node } } := by
  rw [← advance_idle hfree]
  refine Path.step (Step.lose hfree node) ?_
  cases h with
  | @forgotten failed last m hfailed hlast =>
    obtain ⟨hfitsFailed, hfitsLast⟩ := fits_of_rounds hfits
    have hm : Deed.Fits s.monitor (tracked (fun t => t.forget node) m) :=
      hfits (some i) node _ (List.mem_append_right _ List.mem_cons_self)
    have hleads := (leads_of_calm (ends_mark_iff_marking.mp hlast).calm hfitsLast).append
      (Path.single ⟨hm, rfl⟩)
    have hround := run_of_leads c s i node (ends_deletionRound_true_iff.mpr ⟨last, m, rfl, hlast⟩)
      hleads
    have hend : Step c
        (s.advance i { s.monitor with tracker := s.monitor.tracker.forget node }
          (.inRound node (.done true))) (.ended i)
        (s.advance i { s.monitor with tracker := s.monitor.tracker.forget node } .idle) :=
      (GetsOn.succeeded node).step trivial
    have hrun := (run_failing hfailed hfitsFailed hgoesOn).append
      (hround.append (Path.single hend))
    simpa [works] using hrun

/-- A handler that rests may be told to stop, and then it ends. -/
lemma run_told (s : Watch ι) (i : ι) (m : Monitor) (node : String) :
    Run c (s.advance i m (.resting node)) [.cancelled i, .ended i]
      (advance { s with cancelled := Function.update s.cancelled i true } i m .idle) := by
  have htold : Function.update s.cancelled i true i = true := Function.update_self ..
  have hend : Step c
      (advance { s with cancelled := Function.update s.cancelled i true } i m (.resting node))
      (.ended i) (advance { s with cancelled := Function.update s.cancelled i true } i m .idle) :=
    (GetsOn.stopped node htold).step trivial
  exact Path.step (Step.cancel _ i) (Path.single hend)

/-- After rounds that failed, the handler may be told to stop. -/
lemma Handled.run_stopped (h : Handled c i node mvs false) (hfree : s.handling i = .idle)
    (hgoesOn : s.cancelled i = false)
    (hfits : ∀ who name d, .did who name d ∈ mvs → d.Fits s.monitor) :
    Run c s (.lost i node :: (mvs ++ [.cancelled i, .ended i]))
      { s with cancelled := Function.update s.cancelled i true } := by
  refine Path.step (Step.lose hfree node) ?_
  cases h with
  | @stopped failed last hfailed hlast =>
    obtain ⟨hfitsFailed, hfitsLast⟩ := fits_of_rounds hfits
    have hround := run_works hlast hfitsLast s i
    have htold := run_told (c := c) s i s.monitor node
    rw [advance_idle (by exact hfree)] at htold
    have hrun := (run_failing hfailed hfitsFailed hgoesOn).append (hround.append htold)
    simpa [works] using hrun

end Watch

/-! ## Handlings on the virtual clock -/

namespace Simulation.Deletion

open Watch

variable {ι : Type} [DecidableEq ι] {c : Conduct} {node : String} {i : ι} {d : Deletion}
  {h h' : Handling} {own mvs : List (Move ι)}

/-- The handling of a deleted node is served on one stage after another, each time with word whether
it was told to stop.  What happens in between is up to the stages.  The moves are what the handling
comes to. -/
inductive Served (c : Conduct) (i : ι) : Deletion → Handling → List (Bool × Stage) →
    List (Move ι) → Deletion → Handling → Prop where
  | nothing (d : Deletion) (h : Handling) : Served c i d h [] [] d h
  | serve {d d' : Deletion} {h h' h'' : Handling} {cancelled : Bool} {s : Stage}
      {servings : List (Bool × Stage)} {first rest : List (Move ι)}
      (serves : Serves c i cancelled s (d.wake c cancelled s).1 h h' first)
      (mirrors : Mirrors c (d.wake c cancelled s).2 h')
      (more : Served c i (d.wake c cancelled s).2 h' servings rest d' h'') :
      Served c i d h ((cancelled, s) :: servings) (first ++ rest) d' h''

/-- Nothing more comes of a handling that has ended. -/
lemma served_ended (c : Conduct) (i : ι) (node : String) (servings : List (Bool × Stage)) :
    Served c i ⟨node, .ended⟩ .idle servings [] ⟨node, .ended⟩ .idle := by
  induction servings with
  | nil => exact Served.nothing _ _
  | cons serving rest ih =>
    obtain ⟨cancelled, s⟩ := serving
    have hnothing : Serves c i cancelled s (wake c cancelled ⟨node, .ended⟩ s).1 .idle .idle [] :=
      Serves.nothing ..
    exact Served.serve hnothing (Mirrors.ended node) ih

/-- The last move of a serving is the only one that can be the end. -/
lemma Serves.split {cancelled : Bool} {s s' : Stage} (hserves : Serves c i cancelled s s' h h' mvs)
    (hmem : .ended i ∈ mvs) : ∃ first, mvs = first ++ [.ended i] ∧ .ended i ∉ first ∧
      h' = .idle := by
  obtain ⟨first, rest, rfl, hfirst⟩ := List.eq_append_cons_of_mem hmem
  have hrun := hserves.run ⟨s.monitor, none, fun _ => .idle, fun _ => cancelled⟩ rfl
  obtain ⟨u, hbefore, hrun⟩ := Path.append_iff.mp hrun
  obtain ⟨v, hended, hrest⟩ := Path.cons_iff.mp hrun
  have hidle : v.handling i = .idle := by
    have hgets := hended.getsOn (decide_eq_true rfl)
    generalize u.handling i = now at hgets
    generalize v.handling i = later at hgets ⊢
    cases hgets <;> rfl
  have hown : ∀ mv ∈ rest, mv.isOf i = true ∧ ∀ node, mv ≠ .lost i node := fun mv hmv =>
    hserves.own mv (List.mem_append_right _ (List.mem_cons_of_mem _ hmv))
  obtain rfl : rest = [] := by
    rw [← List.filter_eq_self.mpr fun mv hmv => (hown mv hmv).1]
    exact Run.idle hrest hidle fun name hmv => (hown _ hmv).2 name rfl
  cases hrest
  rw [handling_advance_self] at hidle
  exact ⟨first, rfl, hfirst, hidle⟩

/-- A serving is progress, or all is done. -/
lemma Serves.progress_or_handled {cancelled : Bool} {s s' : Stage}
    (hserves : Serves c i cancelled s s' h h' mvs) (hp : Progress c i node h own) :
    Progress c i node h' (own ++ mvs) ∨
      h' = .idle ∧ ∃ first forgotten, own ++ mvs = first ++ [.ended i] ∧
        Handled c i node first forgotten ∧ (forgotten = false → cancelled = true) := by
  have hown : ∀ mv ∈ mvs, mv.isOf i = true := fun mv hmv => (hserves.own mv hmv).1
  have hrun := hserves.run ⟨s.monitor, none, fun _ => .idle, fun _ => cancelled⟩ rfl
  rw [← handling_advance_self ⟨s.monitor, none, fun _ => .idle, fun _ => cancelled⟩ i s.monitor h]
    at hp
  by_cases hmem : .ended i ∈ mvs
  · right
    obtain ⟨first, rfl, hfirst, hidle⟩ := hserves.split hmem
    obtain ⟨forgotten, hhandled, htold⟩ := Run.handled hrun hfirst hp
    rw [List.filter_eq_self.mpr fun mv hmv => hown mv (List.mem_append_left _ hmv)] at hhandled
    refine ⟨hidle, own ++ first, forgotten, by rw [List.append_assoc], hhandled, fun hnot => ?_⟩
    rcases htold hnot with htold | hcancelled
    · exact htold
    · cases hown _ (List.mem_append_left _ hcancelled)
  · left
    have hp := Run.progress hrun hmem hp
    rwa [handling_advance_self, List.filter_eq_self.mpr hown] at hp

/-- Whatever the stages are, a handling makes progress until all is done; without a round that
worked out, that is only because it was told to stop. -/
lemma exists_served (hmirrors : Mirrors c d h) (hp : Progress c i node h own)
    (servings : List (Bool × Stage)) :
    ∃ mvs d' h', Served c i d h servings mvs d' h' ∧ Mirrors c d' h' ∧
      (Progress c i node h' (own ++ mvs) ∨
        h' = .idle ∧ ∃ first forgotten, own ++ mvs = first ++ [.ended i] ∧
          Handled c i node first forgotten ∧
          (forgotten = false → ∃ x ∈ servings, x.1 = true)) := by
  induction servings generalizing d h own with
  | nil =>
    rw [← List.append_nil own] at hp
    exact ⟨[], d, h, Served.nothing d h, hmirrors, Or.inl hp⟩
  | cons serving rest ih =>
    obtain ⟨cancelled, s⟩ := serving
    obtain ⟨first, h', hserves, hmirrors'⟩ := exists_serves_wake i cancelled s hmirrors
    rcases hserves.progress_or_handled hp with hp | ⟨rfl, own', forgotten, hsplit, hhandled, htold⟩
    · obtain ⟨mvs, d', h'', hserved, hlast, hdone⟩ := ih hmirrors' hp
      refine ⟨first ++ mvs, d', h'', Served.serve hserves hmirrors' hserved, hlast, ?_⟩
      rw [← List.append_assoc]
      refine hdone.imp_right ?_
      rintro ⟨hidle, own', forgotten, hsplit, hhandled, htold⟩
      refine ⟨hidle, own', forgotten, hsplit, hhandled, fun hnot => ?_⟩
      obtain ⟨x, hx, hcancelled⟩ := htold hnot
      exact ⟨x, List.mem_cons_of_mem _ hx, hcancelled⟩
    · have hserved : ∃ name, (d.wake c cancelled s).2 = ⟨name, .ended⟩ := by
        generalize (d.wake c cancelled s).2 = d' at hmirrors' ⊢
        cases hmirrors' with
        | ended name => exact ⟨name, rfl⟩
      obtain ⟨name, hname⟩ := hserved
      have hmore := served_ended c i name rest
      rw [← hname] at hmore
      refine ⟨first ++ [], _, .idle, Served.serve hserves hmirrors' hmore, hmirrors',
        Or.inr ⟨rfl, own', forgotten, by rwa [List.append_nil], hhandled, fun hnot => ?_⟩⟩
      exact ⟨_, List.mem_cons_self, htold hnot⟩

end Simulation.Deletion

/-! ## Deleted nodes -/

namespace Watch

open Simulation

/-- How persistently the claims on a deleted node are warned. -/
structure Persistent (ι : Type) [DecidableEq ι] (c : Conduct) (node : String) : Prop where
  /-- Marking a node makes as many passes as it takes until one succeeds, but not more than agreed,
  and at least one; it pauses in between only, and ends as the last pass does. -/
  marks : ∀ ds r, (mark c node).Ends ds r ↔ ∃ ps : ℕ → Pass c node,
    ds = deedsOf ps (passesMade ps (max 1 c.markAttempts)) ∧
    r = resultOf ps (passesMade ps (max 1 c.markAttempts))
  /-- The last pass succeeds if the first success comes in time. -/
  succeeds : ∀ ps : ℕ → Pass c node,
    (resultOf ps (passesMade ps (max 1 c.markAttempts))).isOk = true ↔
      firstSuccess ps ≤ (max 1 c.markAttempts : ℕ)
  /-- A pass itself does not pause. -/
  unpaused : ∀ (p : Pass c node) (length : Span), paused length ∉ p.deeds
  /-- Until it ends, a handler is in a round or rests after one, and all rounds before have
  failed. -/
  repeats : ∀ (i : ι) (s t : Watch ι) (mvs : List (Move ι)),
    Run c s (.lost i node :: mvs) t → .ended i ∉ mvs →
    Progress c i node (t.handling i) (mvs.filter (Move.isOf i))
  /-- It ends after a round that has worked out, and the last thing that it does is to forget the
  node, or it was told to stop and ends after a round that failed.  Nothing but that forgetting
  changes the monitor. -/
  ends : ∀ (i : ι) (s t : Watch ι) (mvs : List (Move ι)),
    Run c s (.lost i node :: (mvs ++ [.ended i])) t → .ended i ∉ mvs →
    ∃ forgotten, Handled c i node (mvs.filter (Move.isOf i)) forgotten ∧
      (forgotten = false → (s.cancelled i = true ∨ .cancelled i ∈ mvs) ∧
        ∀ mv ∈ mvs, mv.isOf i = true → mv.IsStill) ∧
      ((∀ mv ∈ mvs, mv.isOf i = true ∨ mv.IsStill) →
        t.monitor = afterwards s.monitor node forgotten)
  /-- While it rests it goes on with the next round unless it was told to stop, and ends if it
  was. -/
  rests : ∀ (i : ι) (s : Watch ι), s.handling i = .resting node →
    ((∃ t, Step c s (.resumed i) t) ↔ s.cancelled i = false) ∧
    ((∃ t, Step c s (.ended i) t) ↔ s.cancelled i = true)
  /-- After being told to stop it begins no further round, -/
  resumes : ∀ (i : ι) (s t : Watch ι) (mvs : List (Move ι)), Run c s mvs t →
    s.cancelled i = true → .resumed i ∉ mvs
  /-- and if that is while it rests, it does nothing more than end. -/
  stops : ∀ (i : ι) (s t : Watch ι) (mvs : List (Move ι)), Run c s mvs t →
    s.handling i = .resting node → s.cancelled i = true → (∀ name, .lost i name ∉ mvs) →
    mvs.filter (Move.isOf i) = [] ∨ mvs.filter (Move.isOf i) = [.ended i]
  /-- Rounds that fail, and one that works out, can happen like that, -/
  possible : ∀ (i : ι) (s : Watch ι) (mvs : List (Move ι)), Handled c i node mvs true →
    s.handling i = .idle → s.cancelled i = false →
    (∀ who name d, .did who name d ∈ mvs → d.Fits s.monitor) →
    Run c s (.lost i node :: (mvs ++ [.ended i]))
      { s with monitor := { s.monitor with tracker := s.monitor.tracker.forget node } }
  /-- and rounds that fail until the handler is told to stop while it rests can, too. -/
  stoppable : ∀ (i : ι) (s : Watch ι) (mvs : List (Move ι)), Handled c i node mvs false →
    s.handling i = .idle → s.cancelled i = false →
    (∀ who name d, .did who name d ∈ mvs → d.Fits s.monitor) →
    Run c s (.lost i node :: (mvs ++ [.cancelled i, .ended i]))
      { s with cancelled := Function.update s.cancelled i true }
  /-- On the virtual clock, whatever the stages are on which the handling is served, it makes
  progress like a handler until it ends like one. -/
  served : ∀ (i : ι) (servings : List (Bool × Stage)), ∃ mvs d h,
    Deletion.Served c i ⟨node, .starting⟩ (.inRound node (deletionRound c node)) servings mvs d h ∧
    Deletion.Mirrors c d h ∧
    (Progress c i node h mvs ∨
      h = .idle ∧ ∃ first forgotten, mvs = first ++ [.ended i] ∧
        Handled c i node first forgotten ∧ (forgotten = false → ∃ x ∈ servings, x.1 = true))
  /-- When it is told to stop while it rests, nothing happens on the stage and it ends. -/
  servedStop : ∀ (wakes : ℕ) (s : Stage),
    Deletion.wake c true ⟨node, .resting wakes⟩ s = (s, ⟨node, .ended⟩)
  /-- Otherwise it begins the next round when the rest is over. -/
  servedRest : ∀ (wakes : ℕ) (s : Stage), Deletion.wake c false ⟨node, .resting wakes⟩ s =
    if wakes ≤ s.now then Deletion.wake c false ⟨node, .starting⟩ s else (s, ⟨node, .resting wakes⟩)
  /-- After its end nothing happens. -/
  servedEnd : ∀ (cancelled : Bool) (s : Stage),
    Deletion.wake c cancelled ⟨node, .ended⟩ s = (s, ⟨node, .ended⟩)
  /-- Forgetting a node makes no difference to the others. -/
  forgets : ∀ (t : NodeTracker) (name : String),
    ((t.forget node).notReadySince.get? name =
      if name = node then none else t.notReadySince.get? name) ∧
    (name ∈ (t.forget node).down ↔ name ≠ node ∧ name ∈ t.down) ∧
    (t.forget node).threshold = t.threshold

variable {ι : Type} [DecidableEq ι]

/-- The claims on every deleted node are warned in rounds until one works out or the handler is told
to stop, on the virtual clock as well. -/
theorem handled_in_rounds (c : Conduct) (node : String) : Persistent ι c node where
  marks _ _ := ends_mark_iff
  succeeds ps := by
    have hattempts : max 1 c.markAttempts = c.markAttempts - 1 + 1 := by omega
    rw [hattempts]
    exact isOk_resultOf_iff ps _
  unpaused := Pass.not_paused
  repeats i s t mvs hrun hmvs := by
    obtain ⟨u, hlost, hrest⟩ := Path.cons_iff.mp hrun
    exact Run.progress hrest hmvs hlost.progress_of_lost
  ends i s t mvs hrun hmvs := by
    obtain ⟨u, hlost, hrest⟩ := Path.cons_iff.mp hrun
    obtain ⟨forgotten, hhandled, htold⟩ := Run.handled hrest hmvs hlost.progress_of_lost
    rw [List.nil_append] at hhandled
    refine ⟨forgotten, hhandled, ?_, fun hothers => ?_⟩
    · rintro rfl
      refine ⟨(htold rfl).imp_left fun hu => ?_, fun mv hmv hof => ?_⟩
      · exact (hlost.cancelled_iff.mp hu).resolve_right nofun
      · exact hhandled.isStill mv (List.mem_filter.mpr ⟨hmv, hof⟩)
    · have hmoves : t.monitor = mvs.foldl Move.leaves s.monitor := by
        rw [hrun.monitor_eq, List.foldl_cons, List.foldl_append]
        rfl
      rw [hmoves, foldl_leaves_filter hothers, hhandled.foldl_leaves]
  rests _ _ hs := ⟨resumes_iff hs, ends_iff hs⟩
  resumes _ _ _ _ := Run.not_resumed
  stops _ _ _ _ := Run.stopped
  possible _ _ _ := Handled.run_forgotten
  stoppable _ _ _ := Handled.run_stopped
  served i servings :=
    Deletion.exists_served (Deletion.Mirrors.starting node) (progress_nil c i node) servings
  servedStop _ _ := rfl
  servedRest wakes s := by
    by_cases hover : wakes ≤ s.now
    · simp [Deletion.wake, hover]
    · simp [Deletion.wake, hover]
  servedEnd _ _ := rfl
  forgets t name := by
    refine ⟨?_, ?_, rfl⟩
    · rw [NodeTracker.forget, Table.get?_erase]
      exact if_congr eq_comm rfl rfl
    · simp [NodeTracker.forget, and_comm]

end Watch

/-! ## A node that is forgotten or given up -/

namespace GivenUp

open TwoClaims Watch Simulation

/-- The monitor knows that two nodes are down. -/
def broken : Monitor := { known with tracker := (known.tracker.marked "node-1").marked "node-2" }

/-- The first round is refused, the second one works out. -/
def twoRounds : List (Move Unit) :=
  failing () "node-1" [refused broken] ++ works () "node-1" (warnings broken) ++
    [.did (some ()) "node-1" (tracked (fun t => t.forget "node-1") broken)]

/-- The only round is refused. -/
def oneRound : List (Move Unit) :=
  failing () "node-1" [] ++ works () "node-1" (refused broken) ++ [.rested ()]

/-- A stage at the beginning. -/
def stage : Stage := ⟨0, broken, [], Table.empty, .silent, .willing, .blank⟩

lemma affectedClaims_broken : affectedClaims conduct broken "node-1" = .ok [first, second] := by
  decide +kernel

lemma fails_refused : Fails conduct "node-1" (refused broken) :=
  ⟨_, ends_mark_iff_marking.mpr (marking_refused affectedClaims_broken)⟩

lemma handled_twoRounds : Handled conduct () "node-1" twoRounds true := by
  refine Handled.forgotten broken ?_ (ends_mark_iff_marking.mpr
    (marking_warnings affectedClaims_broken))
  exact fun _ hds => List.mem_singleton.mp hds ▸ fails_refused

lemma handled_oneRound : Handled conduct () "node-1" oneRound false :=
  Handled.stopped (fun _ hds => absurd hds List.not_mem_nil) fails_refused

/-- The handler rests after its first round, and was told to stop. -/
def told : Watch Unit :=
  { (quiet broken).advance () broken (.resting "node-1") with cancelled := fun _ => true }

lemma fits_twoRounds (who : Option Unit) (name : String) (d : Deed)
    (h : .did who name d ∈ twoRounds) : d.Fits broken := by
  simp only [twoRounds, failing, works, refused, warnings, List.flatMap_cons, List.flatMap_nil,
    List.map_cons, List.map_nil, List.append_nil, List.cons_append, List.nil_append, List.mem_cons,
    List.not_mem_nil, Move.did.injEq, reduceCtorEq, or_false, false_or] at h
  rcases h with ⟨-, -, rfl⟩ | ⟨-, -, rfl⟩ | ⟨-, -, rfl⟩ | ⟨-, -, rfl⟩ | ⟨-, -, rfl⟩ |
    ⟨-, -, rfl⟩ <;> trivial

lemma fits_oneRound (who : Option Unit) (name : String) (d : Deed)
    (h : .did who name d ∈ oneRound) : d.Fits broken := by
  refine fits_twoRounds who name d ?_
  simp only [oneRound, twoRounds, failing, works, refused, List.flatMap_nil, List.flatMap_cons,
    List.map_cons, List.map_nil, List.append_nil, List.nil_append, List.cons_append, List.mem_cons,
    List.not_mem_nil, reduceCtorEq, or_false] at h ⊢
  exact h.imp_right Or.inl

/-- Either the second round works out, and of the nodes that were down the other one is left, or the
handler is told to stop after the first round, and then it goes no further and has changed
nothing. -/
theorem forgotten_or_given_up : broken.tracker.down = ["node-2", "node-1"] ∧
    Run conduct (quiet broken) (.lost () "node-1" :: (twoRounds ++ [.ended ()]))
      { quiet broken with monitor :=
        { broken with tracker := broken.tracker.forget "node-1" } } ∧
    (broken.tracker.forget "node-1").down = ["node-2"] ∧
    Run conduct (quiet broken) (.lost () "node-1" :: (oneRound ++ [.cancelled (), .ended ()]))
      { quiet broken with cancelled := Function.update (fun _ => false) () true } ∧
    (¬ ∃ t, Step conduct told (.resumed ()) t) ∧ (∃ t, Step conduct told (.ended ()) t) ∧
    Deletion.wake conduct true ⟨"node-1", .resting 5⟩ stage = (stage, ⟨"node-1", .ended⟩) := by
  have hpersistent : Persistent Unit conduct "node-1" := handled_in_rounds conduct "node-1"
  have hrests := hpersistent.rests () told (handling_advance_self (quiet broken) () broken _)
  refine ⟨by decide +kernel, ?_, by decide +kernel, ?_, ?_, hrests.2.mpr rfl,
    hpersistent.servedStop 5 stage⟩
  · exact hpersistent.possible () (quiet broken) twoRounds handled_twoRounds rfl rfl fits_twoRounds
  · exact hpersistent.stoppable () (quiet broken) oneRound handled_oneRound rfl rfl fits_oneRound
  · exact fun h => Bool.false_ne_true (hrests.1.mp h).symm

end GivenUp

end StorageHealth
