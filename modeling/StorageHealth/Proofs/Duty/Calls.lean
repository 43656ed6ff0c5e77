import StorageHealth.Plan
import StorageHealth.Proofs.Check.Eligibility
import StorageHealth.Proofs.Node.Passes

/-!
# The calls of a duty

What is done on a duty is asked of the driver through a few methods.  `Plan.calls` lists them for
each duty, and `Duty.Works.uses` says that no others are used, whatever the driver answers, whoever
else is at work and however far the work has come.  `Inquiry.method_of_requested` takes this down to
the requests that go over the wire.

`Deed.Uses` holds for one history after another, so it goes through the activities by way of
`Deed.Closed`.
-/

namespace StorageHealth

/-! ## Requests -/

namespace Inquiry

/-- The method that an inquiry uses. -/
def method : Inquiry → Method
  | everything => .listVolumes
  | about call => call.method

/-- The requests that an inquiry sends to a driver with these replies. -/
def requests (replies : List Reply) : Inquiry → List Request
  | everything => (Talk.listConditions replies).sent
  | about (.controller handle) => (Talk.controllerCondition handle replies).sent
  | about (.node handle path staging) => (Talk.nodeCondition handle path staging replies).sent

end Inquiry

namespace Talk

variable {α β : Type}

/-- What is sent by two parts of a session is sent by one of them. -/
lemma sent_bind_subset {t : Talk α} {next : α → Talk β} {replies : List Reply} {r : Request}
    (h : r ∈ ((t >>= next) replies).sent) :
    r ∈ (t replies).sent ∨ ∃ a rest, r ∈ (next a rest).sent := by
  change r ∈ (bind t next replies).sent at h
  rw [bind] at h
  cases hresult : (t replies).result with
  | error e =>
    rw [hresult] at h
    exact Or.inl h
  | ok a =>
    rw [hresult] at h
    rcases List.mem_append.mp h with h | h
    · exact Or.inl h
    · exact Or.inr ⟨a, _, h⟩

lemma sent_requireCondition (method : Method) (condition : Option Condition)
    (replies : List Reply) : (requireCondition method condition replies).sent = [] := by
  cases condition <;> rfl

/-- Every page of a listing is asked for in the same way. -/
lemma method_of_mem_pagesFrom {token : String} {known : Conditions} {replies : List Reply}
    {r : Request} (h : r ∈ (pagesFrom token known replies).sent) : r.method = .listVolumes := by
  induction replies generalizing token known with
  | nil =>
    rw [List.mem_singleton.mp h]
    rfl
  | cons reply rest ih =>
    rw [pagesFrom] at h
    split at h
    · rw [List.mem_singleton.mp h]
      rfl
    · dsimp only at h
      split at h
      · rw [List.mem_singleton.mp h]
        rfl
      · rcases List.mem_cons.mp h with rfl | h
        · rfl
        · exact ih h

end Talk

/-- An inquiry sends requests of its own method only. -/
lemma Inquiry.method_of_requested {q : Inquiry} {replies : List Reply} {r : Request}
    (h : r ∈ q.requests replies) : r.method = q.method := by
  have hasked : ∀ {method : Method} {α β : Type} [Wire.Message α] [Wire.Message β] {request : α}
      {condition : β → Option Condition}, r ∈ ((Talk.call method request >>= fun reply : β =>
        Talk.requireCondition method (condition reply)) replies).sent → r.method = method := by
    intro method α β _ _ request condition hsent
    rcases Talk.sent_bind_subset hsent with hcall | ⟨reply, rest, hrequire⟩
    · rw [List.mem_singleton.mp hcall]
    · rw [Talk.sent_requireCondition] at hrequire
      cases hrequire
  cases q with
  | everything => exact Talk.method_of_mem_pagesFrom h
  | about call =>
    cases call with
    | controller handle => exact hasked h
    | node handle path staging => exact hasked h

/-! ## Histories -/

namespace Deed

/-- The driver is only asked by these methods. -/
def Uses (methods : List Method) (ds : List Deed) : Prop := ∀ q ∈ inquiries ds, q.method ∈ methods

variable {methods : List Method} {ds es : List Deed}

lemma closed_uses (methods : List Method) : Closed (Uses methods) where
  nothing := by
    intro q hq
    cases hq
  append := by
    intro ds es h h' q hq
    rw [inquiries_append] at hq
    exact (List.mem_append.mp hq).elim (h q) (h' q)

lemma uses_of_inquiries_eq_nil (h : inquiries ds = []) : Uses methods ds := by
  intro q hq
  rw [h] at hq
  cases hq

lemma Uses.of_append (h : Uses methods (ds ++ es)) : Uses methods ds := by
  intro q hq
  refine h q ?_
  rw [inquiries_append]
  exact List.mem_append_left _ hq

end Deed

open Deed

/-! ## Activities -/

namespace Check

/-- A sparing check asks by its own method, if at all. -/
lemma Sparing.uses {method : Method} {due : String → Subject → Prop} {ds : List Deed}
    {r : Except CheckError Condition} (h : Sparing method due ds r) : Uses [method] ds := by
  by_cases hdue : ∃ handle s, due handle s
  · obtain ⟨handle, s, hdue⟩ := hdue
    obtain ⟨call, hmethod, -, hasked⟩ := h.asks handle s hdue
    intro q hq
    rw [hasked] at hq
    rw [List.mem_singleton.mp hq]
    exact List.mem_singleton.mpr hmethod
  · exact uses_of_inquiries_eq_nil (h.declines fun handle s hs => hdue ⟨handle, s, hs⟩).1

lemma uses_mount (c : Conduct) (v : Volume) (p : Pod) :
    (mount c v p).Always (Uses [.volumeStats]) := fun _ _ h => (sparing_mount h).uses

lemma uses_report (methods : List Method) (s : Subject) (condition : Condition) :
    (report s condition).Always (Uses methods) := by
  intro ds r h
  exact uses_of_inquiries_eq_nil (reported_of_ends h).traffic.1

lemma uses_controller (c : Conduct) (v : Volume) :
    (controller c v).Always (Uses [.getVolume]) := by
  have hclosed := closed_uses [.getVolume]
  refine always_controller hclosed (fun m => uses_of_inquiries_eq_nil rfl) (uses_report _) ?_
  intro handle
  refine always_ask hclosed fun outcome q hq => ?_
  rw [List.mem_singleton.mp hq]
  exact List.mem_cons_self

/-- What is listed is reported without asking again. -/
lemma uses_sweepCached (c : Conduct) : (sweepCached c).Always (Uses [.listVolumes]) := by
  have hclosed := closed_uses [.listVolumes]
  have hlook : ∀ m, Uses [.listVolumes] [looked m] := fun m => uses_of_inquiries_eq_nil rfl
  refine hclosed.andThen (Process.always_perform hlook).lift fun m => ?_
  refine always_sweep hclosed hlook (uses_report _) fun outcome q hq => ?_
  rw [List.mem_singleton.mp hq]
  exact List.mem_cons_self

end Check

lemma Volume.uses_cycle (c : Conduct) (now : Nat) (v : Volume) :
    (cycle c now v).Always (Uses [.getVolume]) :=
  always_cycle (closed_uses _) (fun _ _ => uses_of_inquiries_eq_nil rfl) (Check.uses_controller c v)

lemma Pod.uses_cycle (c : Conduct) (p : Pod) : (cycle c p).Always (Uses [.volumeStats]) :=
  always_cycle (closed_uses _) (fun _ => uses_of_inquiries_eq_nil rfl)
    fun v => Check.uses_mount c v p

namespace Node

variable {c : Conduct}

/-- Nobody asks the driver about a node. -/
lemma uses_cycle (methods : List Method) (now : Nat) (n : Node) :
    (cycle c now n).Always (Uses methods) :=
  always_cycle (closed_uses methods) (fun _ => uses_of_inquiries_eq_nil rfl)
    (fun _ _ => uses_of_inquiries_eq_nil rfl) (uses_of_inquiries_eq_nil rfl)
    (fun _ _ => uses_of_inquiries_eq_nil rfl) now n

@[inherit_doc uses_cycle]
lemma uses_deletionRound (methods : List Method) (node : String) :
    (deletionRound c node).Always (Uses methods) :=
  always_deletionRound (closed_uses methods) (fun _ => uses_of_inquiries_eq_nil rfl)
    (fun _ _ => uses_of_inquiries_eq_nil rfl) (uses_of_inquiries_eq_nil rfl)
    (fun _ _ => uses_of_inquiries_eq_nil rfl)

end Node

/-! ## Duties -/

namespace Duty

/-- Some activity on a duty has come this far. -/
inductive Works (c : Conduct) : Duty → List Deed → Prop where
  | swept {ds : List Deed} {left : Process (Except CheckError Nat)}
      (h : (Check.sweepCached c).run.Does ds left) : Works c .sweep ds
  | tended (care : Care) (now : Nat) (a : care.kind.Object) {ds : List Deed}
      {left : Process Schedule} (h : (care.cycle c now a).Does ds left) : Works c (.care care) ds
  | vanished (name : String) {ds : List Deed} {left : Process Unit}
      (h : (Volume.vanished name).Does ds left) : Works c (.care .volumes) ds
  | deleted (node : String) {ds : List Deed} {left : Process Bool}
      (h : (Node.deletionRound c node).Does ds left) : Works c (.care .nodes) ds

/-- What is done on a duty only uses the calls of the duty. -/
lemma Works.uses {c : Conduct} {duty : Duty} {ds : List Deed} (h : duty.Works c ds) :
    Uses (Plan.calls duty) ds := by
  have hsofar : ∀ {α : Type} {methods : List Method} {p left : Process α},
      p.Always (Uses methods) → p.Does ds left → Uses methods ds := by
    intro α methods p left hp hdoes
    obtain ⟨rest, a, hends⟩ := hdoes.exists_ends
    exact (hp _ a hends).of_append
  have hscheduled : ∀ {ε : Type} {methods : List Method} {failure : Schedule}
      {x : Attempt ε Schedule}, x.Always (Uses methods) →
      (Care.scheduled failure x).Always (Uses methods) := by
    intro ε methods failure x hx
    refine (closed_uses methods).bind hx fun r => ?_
    cases r <;> exact (closed_uses methods).done _
  cases h with
  | swept h => exact hsofar (Check.uses_sweepCached c) h
  | tended care now a h =>
    cases care with
    | volumes => exact hsofar (hscheduled (Volume.uses_cycle c now a)) h
    | pods node => exact hsofar (hscheduled (Pod.uses_cycle c a)) h
    | nodes => exact hsofar (hscheduled (Node.uses_cycle _ now a)) h
  | vanished name h =>
    exact hsofar (Process.always_change fun _ => uses_of_inquiries_eq_nil rfl) h
  | deleted node h => exact hsofar (Node.uses_deletionRound _ node) h

end Duty

end StorageHealth
