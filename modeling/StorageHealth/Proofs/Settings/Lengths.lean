import Mathlib.Tactic.Common
import StorageHealth.Settings.Flags

/-!
# How long the spans of a command line are

A command line changes the settings one flag at a time, so whatever every flag keeps is true of all
settings that can be read (`CommandLine.keeps_read`).  This is used for the spans of time: a written
span is read in 64-bit words, and what comes out has fewer than `2^64` seconds.  `Span.Fits` says so
for a single span, and `ControllerSettings.fits_of_read` for all spans that a controller is told.
-/

namespace StorageHealth

/-! ## Written spans -/

namespace Span

/-- The first number of nanoseconds that does not fit into 64-bit seconds. -/
def lengthLimit : Nat := wordLimit * nanosPerSecond

/-- The whole seconds of a span fit into 64 bits. -/
def Fits (s : Span) : Prop := s.nanos < lengthLimit

lemma eq_of_fits {n k : Nat} (h : fits n = some k) : k = n ∧ n < wordLimit := by
  unfold fits at h
  split at h
  · exact ⟨(Option.some.inj h).symm, by assumption⟩
  · cases h

/-- Sums that are not refused fit. -/
lemma fits_of_plus? {out s : Span} {secs nanos : Nat} (h : out.plus? secs nanos = some s) :
    s.Fits := by
  unfold plus? at h
  simp only [Option.bind_eq_bind, Option.pure_def, Option.bind_eq_some_iff] at h
  obtain ⟨sub, -, extra, -, total, htotal, hs⟩ := h
  have hseconds : total < wordLimit := by
    obtain ⟨rfl, hlt⟩ := eq_of_fits htotal
    exact hlt
  have hsub : sub % nanosPerSecond < nanosPerSecond := Nat.mod_lt _ (by decide)
  rw [← Option.some.inj hs]
  unfold Fits lengthLimit
  dsimp only
  have hnext : (total + 1) * nanosPerSecond ≤ wordLimit * nanosPerSecond :=
    Nat.mul_le_mul_right _ hseconds
  rw [Nat.add_mul, Nat.one_mul] at hnext
  omega

lemma fits_of_plusWhole? {out s : Span} {u : TimeUnit} {n : Nat}
    (h : out.plusWhole? u n = some s) : s.Fits := by
  unfold plusWhole? at h
  split at h
  · obtain ⟨_, -, hs⟩ := Option.bind_eq_some_iff.mp h
    exact fits_of_plus? hs
  · obtain ⟨_, -, hs⟩ := Option.bind_eq_some_iff.mp h
    exact fits_of_plus? hs

lemma fits_of_plusFraction? {out s : Span} {u : TimeUnit} {num den : Nat}
    (h : out.plusFraction? u num den = some s) : s.Fits := by
  cases u with
  | nanosecond => cases h
  | _ =>
    obtain ⟨_, -, hs⟩ := Option.bind_eq_some_iff.mp h
    exact fits_of_plus? hs

/-- After every number with its unit the sum fits, so it fits after the last one. -/
lemma fits_of_readParts {fuel n : Nat} {rest : List Char} {out s : Span}
    (h : readParts fuel n rest out = some s) : s.Fits := by
  induction fuel generalizing n rest out with
  | zero => cases h
  | succ fuel ih =>
    simp only [readParts, Option.bind_eq_bind, Option.pure_def, Option.bind_eq_some_iff] at h
    obtain ⟨whole, -, decimals, -, u, -, out', hwhole, h⟩ := h
    split at h
    · obtain ⟨out'', hsame, h⟩ := Option.bind_eq_some_iff.mp h
      obtain ⟨next, -, h⟩ := Option.bind_eq_some_iff.mp h
      cases next with
      | none =>
        rw [← Option.some.inj h, ← Option.some.inj hsame]
        exact fits_of_plusWhole? hwhole
      | some next => exact ih h
    · obtain ⟨out'', hfraction, h⟩ := Option.bind_eq_some_iff.mp h
      obtain ⟨next, -, h⟩ := Option.bind_eq_some_iff.mp h
      cases next with
      | none =>
        rw [← Option.some.inj h]
        exact fits_of_plusFraction? hfraction
      | some next => exact ih h

/-- Every span that is read fits. -/
theorem fits_of_read? {text : String} {s : Span} (h : read? text = some s) : s.Fits := by
  unfold read? at h
  split at h
  · rw [← Option.some.inj h]
    exact Nat.mul_pos (by decide) (by decide)
  · split at h
    · exact fits_of_readParts h
    · cases h

end Span

/-! ## What flags keep -/

namespace Flag

variable {σ τ : Type}

/-- A flag keeps a property of settings, whatever value it is given. -/
def Keeps (P : σ → Prop) (f : Flag σ) : Prop :=
  match f.effect with
  | .switch set => ∀ s, P s → P (set s)
  | .value read => ∀ v set, read v = .ok set → ∀ s, P s → P (set s)

lemma keeps_text {P : σ → Prop} {name : String} {set : String → σ → σ}
    (h : ∀ v s, P s → P (set v s)) : (text name set).Keeps P := by
  intro v set' hv s hs
  cases hv
  exact h v s hs

lemma keeps_path {P : σ → Prop} {name : String} {set : String → σ → σ}
    (h : ∀ v s, P s → P (set v s)) : (path name set).Keeps P := by
  intro v set' hv s hs
  dsimp only at hv
  split at hv
  · cases hv
  · cases hv
    exact h v s hs

lemma keeps_reading {α : Type} {P : σ → Prop} {read? : String → Option α} {name : String}
    {set : α → σ → σ} (h : ∀ v a, read? v = some a → ∀ s, P s → P (set a s)) :
    (reading read? name set).Keeps P := by
  intro v set' hv s hs
  dsimp only at hv
  split at hv
  · rename_i a ha
    cases hv
    exact h v a ha s hs
  · cases hv

/-- A flag for a part of the settings keeps what its own flag keeps of that part. -/
lemma Keeps.within {P : σ → Prop} {Q : τ → Prop} {f : Flag σ} {update : (σ → σ) → τ → τ}
    (hf : f.Keeps P) (h : ∀ set, (∀ s, P s → P (set s)) → ∀ t, Q t → Q (update set t)) :
    (within update f).Keeps Q := by
  obtain ⟨name, effect⟩ := f
  cases effect with
  | switch set => exact h set hf
  | value read =>
    intro v set' hv t ht
    have hmap : (read v).map update = .ok set' := hv
    cases hread : read v with
    | error e =>
      rw [hread] at hmap
      cases hmap
    | ok set =>
      rw [hread] at hmap
      cases hmap
      exact h set (hf v set hread) t ht

end Flag

/-- An attempt that works out has worked out at first. -/
lemma exists_of_bind_ok {ε α β : Type} {x : Except ε α} {f : α → Except ε β} {b : β}
    (h : (x >>= f) = .ok b) : ∃ a, x = .ok a ∧ f a = .ok b := by
  cases x with
  | error e => cases h
  | ok a => exact ⟨a, rfl, h⟩

namespace CommandLine

variable {σ : Type} {P : σ → Prop} {flags : List (Flag σ)}

/-- The settings have the property, and the flag that waits will keep it. -/
structure Progress.Keeps (P : σ → Prop) (p : Progress σ) : Prop where
  settings : P p.settings
  waiting : ∀ w, p.waiting = some w → ∀ v set, w.read v = .ok set → ∀ s, P s → P (set s)

lemma Progress.Keeps.enter {p p' : Progress σ} {name : String} {set : Except UsageError (σ → σ)}
    (h : p.Keeps P) (hset : ∀ f, set = .ok f → ∀ s, P s → P (f s))
    (he : p.enter name set = .ok p') : p'.Keeps P := by
  unfold Progress.enter at he
  split at he
  · cases he
  · cases set with
    | error e => cases he
    | ok f =>
      cases he
      exact ⟨hset f rfl _ h.settings, h.waiting⟩

lemma Progress.Keeps.settle {p p' : Progress σ} (h : p.Keeps P) (hs : p.settle = .ok p') :
    p'.Keeps P := by
  unfold Progress.settle at hs
  split at hs
  · cases hs
    exact h
  · rename_i w hw
    split at hs
    · cases hs
    · rename_i v hv
      have hcleared : Progress.Keeps P { p with waiting := none } := ⟨h.settings, nofun⟩
      exact hcleared.enter (fun f hf => h.waiting w hw v f hf) hs

/-- A long flag is entered, or it waits for its value; all others end reading. -/
lemma Progress.Keeps.long {p p' : Progress σ} (hflags : ∀ f ∈ flags, f.Keeps P) (h : p.Keeps P)
    {name : String} {value : Option String} (hl : p.long flags name value = .ok p') :
    p'.Keeps P := by
  unfold Progress.long at hl
  split at hl
  · rename_i f hf
    have hkeeps := hflags f (List.mem_of_find?_eq_some hf)
    unfold Flag.Keeps at hkeeps
    split at hl
    · cases hl
    · rename_i set heffect
      rw [heffect] at hkeeps
      obtain ⟨q, hq, he⟩ := exists_of_bind_ok hl
      refine (h.settle hq).enter (fun f hf => ?_) he
      cases hf
      exact hkeeps
    · rename_i read v heffect
      rw [heffect] at hkeeps
      obtain ⟨q, hq, he⟩ := exists_of_bind_ok hl
      exact (h.settle hq).enter (fun f hf => hkeeps v f hf) he
    · rename_i read heffect
      rw [heffect] at hkeeps
      obtain ⟨q, hq, he⟩ := exists_of_bind_ok hl
      cases he
      refine ⟨(h.settle hq).settings, fun w hw => ?_⟩
      rw [← Option.some.inj hw]
      exact hkeeps
  · split at hl
    · split at hl
      · cases hl
      · obtain ⟨q, -, he⟩ := exists_of_bind_ok hl
        cases he
    · cases hl

lemma Progress.Keeps.plain {p p' : Progress σ} (h : p.Keeps P) {s : String}
    (hp : p.plain s = .ok p') : p'.Keeps P := by
  unfold Progress.plain at hp
  split at hp
  · rename_i name read hw
    cases hp
    refine ⟨h.settings, fun w hw' => ?_⟩
    rw [← Option.some.inj hw']
    exact h.waiting ⟨name, read, none⟩ hw
  · cases hp

/-- Every word keeps what all flags keep, and so does the end of the line. -/
lemma keeps_readWords (hflags : ∀ f ∈ flags, f.Keeps P) {words : List Word} {p : Progress σ}
    {s : σ} (h : p.Keeps P) (hr : readWords flags p words = .ok s) : P s := by
  have hend : ∀ p : Progress σ, p.Keeps P → p.settle.map Progress.settings = .ok s → P s := by
    intro p h hmap
    cases hq : p.settle with
    | error e =>
      rw [hq] at hmap
      cases hmap
    | ok q =>
      rw [hq] at hmap
      cases hmap
      exact (h.settle hq).settings
  induction words generalizing p with
  | nil => exact hend p h hr
  | cons word rest ih =>
    cases word with
    | separator =>
      unfold readWords at hr
      split at hr
      · exact hend p h hr
      · cases hr
    | long name value =>
      obtain ⟨q, hq, hrest⟩ := exists_of_bind_ok hr
      exact ih (h.long hflags hq) hrest
    | short names =>
      unfold readWords at hr
      split at hr
      · obtain ⟨q, -, he⟩ := exists_of_bind_ok hr
        cases he
      · cases hr
    | plain text =>
      obtain ⟨q, hq, hrest⟩ := exists_of_bind_ok hr
      exact ih (h.plain hq) hrest

/-- Settings that are read have every property that the given ones have and all flags keep. -/
theorem keeps_read (hflags : ∀ f ∈ flags, f.Keeps P) {start s : σ} (hstart : P start)
    {line : List String} (h : read flags start line = .ok s) : P s := by
  refine keeps_readWords hflags ⟨hstart, ?_⟩ h
  intro w hw
  cases hw

end CommandLine

/-! ## What a controller is told -/

/-- All spans that both roles are told fit. -/
structure CommonSettings.SpansFit (s : CommonSettings) : Prop where
  timeout : s.timeout.Fits
  monitorInterval : s.monitorInterval.Fits

/-- All spans that a controller is told fit. -/
structure ControllerSettings.SpansFit (s : ControllerSettings) : Prop where
  common : s.common.SpansFit
  sweepInterval : s.sweepInterval.Fits
  volumeResync : s.volumeResync.Fits
  nodeResync : s.nodeResync.Fits
  notReadyThreshold : s.notReadyThreshold.Fits

/-- Spans of some seconds fit. -/
lemma Span.fits_ofSeconds {n : Nat} (h : n < Span.wordLimit) : (Span.ofSeconds n).Fits :=
  Nat.mul_lt_mul_of_pos_right h (by decide)

lemma CommonSettings.keeps_flags : ∀ f ∈ flags, f.Keeps SpansFit := by
  simp only [flags, List.forall_mem_cons, List.not_mem_nil, false_imp_iff, implies_true, and_true]
  refine ⟨?_, ?_, ?_, ?_, ?_⟩
  · exact Flag.keeps_text fun v s hs => ⟨hs.timeout, hs.monitorInterval⟩
  · exact Flag.keeps_reading fun v a ha s hs => ⟨Span.fits_of_read? ha, hs.monitorInterval⟩
  · exact Flag.keeps_reading fun v a ha s hs => ⟨hs.timeout, Span.fits_of_read? ha⟩
  · exact Flag.keeps_reading fun v a ha s hs => ⟨hs.timeout, hs.monitorInterval⟩
  · exact Flag.keeps_path fun v s hs => ⟨hs.timeout, hs.monitorInterval⟩

lemma ControllerSettings.keeps_flags : ∀ f ∈ flags, f.Keeps SpansFit := by
  intro f hf
  rcases List.mem_append.mp hf with hf | hf
  · obtain ⟨g, hg, rfl⟩ := List.mem_map.mp hf
    refine (CommonSettings.keeps_flags g hg).within fun set hset s hs => ?_
    exact ⟨hset s.common hs.common, hs.sweepInterval, hs.volumeResync, hs.nodeResync,
      hs.notReadyThreshold⟩
  · simp only [List.mem_cons, List.not_mem_nil, or_false] at hf
    rcases hf with rfl | rfl | rfl | rfl | rfl
    · exact Flag.keeps_reading fun v a ha s hs => ⟨hs.common, Span.fits_of_read? ha,
        hs.volumeResync, hs.nodeResync, hs.notReadyThreshold⟩
    · exact Flag.keeps_reading fun v a ha s hs => ⟨hs.common, hs.sweepInterval,
        Span.fits_of_read? ha, hs.nodeResync, hs.notReadyThreshold⟩
    · exact Flag.keeps_reading fun v a ha s hs => ⟨hs.common, hs.sweepInterval, hs.volumeResync,
        Span.fits_of_read? ha, hs.notReadyThreshold⟩
    · exact Flag.keeps_reading fun v a ha s hs => ⟨hs.common, hs.sweepInterval, hs.volumeResync,
        hs.nodeResync, Span.fits_of_read? ha⟩
    · exact fun s hs => ⟨hs.common, hs.sweepInterval, hs.volumeResync, hs.nodeResync,
        hs.notReadyThreshold⟩

/-- Every span that a controller reads from its command line fits into 64-bit seconds. -/
theorem ControllerSettings.fits_of_read {line : List String} {s : ControllerSettings}
    (h : ControllerSettings.read line = .ok s) : s.SpansFit := by
  have hdefault : ∀ n, n < Span.wordLimit → (Span.ofSeconds n).Fits := fun n => Span.fits_ofSeconds
  refine CommandLine.keeps_read keeps_flags ?_ h
  exact ⟨⟨hdefault 15 (by decide), hdefault 60 (by decide)⟩, hdefault 300 (by decide),
    hdefault 300 (by decide), hdefault 300 (by decide), hdefault 300 (by decide)⟩

end StorageHealth
