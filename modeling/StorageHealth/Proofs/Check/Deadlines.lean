import StorageHealth.Driver.Deadline
import StorageHealth.Proofs.Driver.Listing
import StorageHealth.Proofs.Pod.Round
import StorageHealth.Proofs.Process.Traffic

/-!
# Calls that share a deadline

A check of a single volume makes one call, which has the whole deadline for itself.  A sweep asks
for a listing, and the deadline is that of the listing: all calls for pages share it, so what counts
is the time that they take together (`Talk.timed_within_eq_late_iff`).

`Check.sweep_timeout_iff` says what becomes of a sweep whose listing is made of the replies that a
driver gives, each after some time.  With a single page the deadline is that of the call; with more
of them, a sweep can be late although no call is.
-/

namespace StorageHealth

open Wire

/-! ## How long a part of a session takes -/

namespace TimedReply

/-- How long several replies take, one after the other, in nanoseconds. -/
def total : List TimedReply → Nat
  | [] => 0
  | x :: rest => x.wait.nanos + total rest

/-- When no reply takes more than its share, all of them together are in time. -/
lemma mul_total_le {n limit : Nat} {replies : List TimedReply}
    (h : ∀ x ∈ replies, n * x.wait.nanos ≤ limit) : n * total replies ≤ replies.length * limit := by
  induction replies with
  | nil => exact Nat.zero_le _
  | cons x rest ih =>
    have hfirst : n * x.wait.nanos ≤ limit := h x List.mem_cons_self
    have hrest := ih fun y hy => h y (List.mem_cons_of_mem x hy)
    rw [total, List.length_cons, Nat.mul_add, Nat.succ_mul]
    omega

/-- Of several replies that take too long together, one takes more than its share. -/
lemma exists_of_lt_total {n limit : Nat} {replies : List TimedReply} (hlength : replies.length ≤ n)
    (h : limit < total replies) : ∃ x ∈ replies, limit < n * x.wait.nanos := by
  by_contra hnone
  have hshare : ∀ x ∈ replies, n * x.wait.nanos ≤ limit := by
    intro x hx
    by_contra hmore
    exact hnone ⟨x, hx, Nat.lt_of_not_le hmore⟩
  have htotal : n * total replies ≤ n * limit :=
    Nat.le_trans (mul_total_le hshare) (Nat.mul_le_mul_right limit hlength)
  have hpos : 0 < n := by
    refine Nat.pos_of_ne_zero fun hzero => ?_
    have hnil : replies = [] := List.eq_nil_of_length_eq_zero (Nat.le_zero.mp (hzero ▸ hlength))
    rw [hnil] at h
    exact Nat.not_lt_zero _ h
  exact Nat.not_le_of_lt h (Nat.le_of_mul_le_mul_left htotal hpos)

end TimedReply

namespace Talk

variable {α : Type} (t : Talk α) (replies : List TimedReply)

/-- The replies that a part of a session waits for, one for each request. -/
def awaited : List TimedReply := replies.take (t (replies.map TimedReply.reply)).sent.length

lemma wait_timed : (t.timed replies).wait.nanos = TimedReply.total (t.awaited replies) := by
  have hfold : ∀ (xs : List TimedReply) (n : Nat),
      xs.foldl (fun n x => n + x.wait.nanos) n = n + TimedReply.total xs := by
    intro xs
    induction xs with
    | nil => exact fun n => rfl
    | cons x rest ih =>
      intro n
      rw [List.foldl_cons, ih, TimedReply.total, Nat.add_assoc]
  exact (hfold (t.awaited replies) 0).trans (Nat.zero_add _)

/-- A part of a session that is in time comes to its result. -/
lemma timed_within_of_le (deadline : Span)
    (h : TimedReply.total (t.awaited replies) ≤ deadline.nanos) :
    ((t.timed replies).within deadline).outcome =
      .ofResult (t (replies.map TimedReply.reply)).result := by
  unfold Timed.within
  rw [wait_timed, if_pos h]
  rfl

/-- A part of a session is late when its replies together take longer than the deadline. -/
lemma timed_within_eq_late_iff (deadline : Span) :
    ((t.timed replies).within deadline).outcome = .late ↔
      deadline.nanos < TimedReply.total (t.awaited replies) := by
  constructor
  · intro hlate
    by_contra hnot
    rw [timed_within_of_le t replies deadline (Nat.le_of_not_lt hnot)] at hlate
    cases hresult : (t (replies.map TimedReply.reply)).result with
    | error e =>
      rw [hresult] at hlate
      cases hlate
    | ok a =>
      rw [hresult] at hlate
      cases hlate
  · intro hlong
    unfold Timed.within
    rw [wait_timed, if_neg (Nat.not_le_of_lt hlong)]

end Talk

/-! ## Sweeps -/

namespace Deed

/-- A listing is made of the replies that a driver gives, under the deadline of the listing. -/
def ListedBy (replies : List TimedReply) : Deed → Prop
  | ⟨.listing deadline, outcome⟩ =>
    outcome = ((Talk.listConditions.timed replies).within deadline).outcome
  | _ => True

end Deed

namespace Check

open Deed

/-- How a sweep goes on with what becomes of its listing.  Without a listing nothing is done. -/
inductive Swept (c : Conduct) :
    Outcome Conditions → List Deed → Except CheckError Nat → Prop where
  | late : Swept c .late [] (.error (.timeout everyVolume c.timeout))
  | failed (e : DriverError) : Swept c (.failed e) [] (.error (.driver e))
  | answered (known : Conditions) (rest : List Deed) (n : Nat) :
      Swept c (.answered known) rest (.ok n)

/-- A sweep is late when its listing is. -/
lemma Swept.timeout_iff {c : Conduct} {outcome : Outcome Conditions} {rest : List Deed}
    {r : Except CheckError Nat} (h : Swept c outcome rest r) :
    r = .error (.timeout everyVolume c.timeout) ↔ outcome = .late := by
  cases h with
  | late => exact ⟨fun _ => rfl, fun _ => rfl⟩
  | failed e => exact ⟨nofun, nofun⟩
  | answered known rest n => exact ⟨nofun, nofun⟩

/-- A sweep asks for a listing, and goes on with what becomes of it. -/
lemma swept_of_ends {c : Conduct} {volumes : List Volume} {ds : List Deed}
    {r : Except CheckError Nat} (h : (sweep c volumes).Ends ds r) :
    ∃ outcome rest, ds = ⟨.listing c.timeout, outcome⟩ :: rest ∧ Swept c outcome rest r := by
  obtain ⟨first, outcome, rest, rfl, hlisting, hrest⟩ := Attempt.ends_lift_bind_iff.mp h
  rw [Process.ends_perform_iff.mp hlisting]
  refine ⟨outcome, rest, rfl, ?_⟩
  cases outcome with
  | late =>
    obtain ⟨rfl, rfl⟩ := Attempt.ends_throw_iff.mp hrest
    exact Swept.late
  | failed e =>
    obtain ⟨rfl, rfl⟩ := Attempt.ends_throw_iff.mp hrest
    exact Swept.failed e
  | answered known =>
    obtain ⟨n, rfl, -⟩ := Attempt.ends_lift_iff.mp hrest
    exact Swept.answered known rest n

/-- A sweep makes one call for each page, and it is late exactly when all of these together take
longer than the deadline.  Then nothing is reported, and some call took more than its share of the
deadline, which is all of it when there is one page only.  A sweep that is in time ends well if the
last page is there, and else with the error that came in its place. -/
theorem sweep_timeout_iff (c : Conduct) (volumes : List Volume) (replies : List TimedReply)
    {ds : List Deed} {r : Except CheckError Nat} (h : (sweep c volumes).Ends ds r)
    (hlisted : ∀ d ∈ ds, d.ListedBy replies) :
    ∃ pages, Talk.Followed (replies.map TimedReply.reply) pages ∧
      (Talk.listConditions (replies.map TimedReply.reply)).sent =
        ("" :: pages.map ListPage.nextToken).map Talk.pageRequest ∧
      let calls := replies.take (pages.length + 1)
      let last := ((replies.map TimedReply.reply).getD pages.length .exhausted).page
      (r = .error (.timeout everyVolume c.timeout) ↔
        c.timeout.nanos < TimedReply.total calls) ∧
      (c.timeout.nanos < TimedReply.total calls → notices ds = [] ∧
        ∃ x ∈ calls, c.timeout.nanos < (pages.length + 1) * x.wait.nanos) ∧
      (TimedReply.total calls ≤ c.timeout.nanos →
        (∃ page n, last = .ok page ∧ page.nextToken = "" ∧ r = .ok n) ∨
          ∃ e, last = .error e ∧ r = .error (.driver e)) := by
  obtain ⟨pages, hfollowed, hsent, hend⟩ :=
    Talk.pagesFrom_pages "" Table.empty (replies.map TimedReply.reply)
  obtain ⟨outcome, rest, rfl, hswept⟩ := swept_of_ends h
  have houtcome : outcome = ((Talk.listConditions.timed replies).within c.timeout).outcome :=
    hlisted _ List.mem_cons_self
  have hcalls : Talk.listConditions.awaited replies = replies.take (pages.length + 1) := by
    unfold Talk.awaited Talk.listConditions
    rw [hsent, List.length_map, List.length_cons, List.length_map]
  have hlate := Talk.timed_within_eq_late_iff Talk.listConditions replies c.timeout
  have hintime := Talk.timed_within_of_le Talk.listConditions replies c.timeout
  rw [← houtcome, hcalls] at hlate hintime
  refine ⟨pages, hfollowed, hsent, ?_, fun hlong => ⟨?_, ?_⟩, fun hshort => ?_⟩
  · rw [hswept.timeout_iff, hlate]
  · obtain rfl : outcome = .late := hlate.mpr hlong
    cases hswept
    rfl
  · have hlength : (replies.take (pages.length + 1)).length ≤ pages.length + 1 :=
      List.length_take_le _ _
    exact TimedReply.exists_of_lt_total hlength hlong
  · have hresult := hintime hshort
    unfold Talk.listConditions at hresult
    rcases hend with ⟨page, hpage, htoken, hok⟩ | ⟨e, herror, hfail⟩
    · rw [hok] at hresult
      subst hresult
      cases hswept with
      | answered known rest n => exact Or.inl ⟨page, n, hpage, htoken, rfl⟩
    · rw [hfail] at hresult
      subst hresult
      cases hswept with
      | failed e => exact Or.inr ⟨e, herror, rfl⟩

end Check

/-! ## Two pages -/

namespace SlowPages

open Deed

/-- A monitor that waits for fifteen seconds. -/
def conduct : Conduct := .usual "csi"

/-- An entry about a volume that is well. -/
def entry (handle : String) : VolumeEntry := ⟨some ⟨0, handle⟩, some ⟨[], some ⟨false, ""⟩⟩⟩

/-- The first page. -/
def first : ListPage := ⟨[entry "h1"], "2"⟩

/-- The last page. -/
def last : ListPage := ⟨[entry "h2"], ""⟩

/-- A driver that takes ten seconds for each page. -/
def replies : List TimedReply :=
  [⟨.ofSeconds 10, .body (Message.encode first)⟩, ⟨.ofSeconds 10, .body (Message.encode last)⟩]

/-- The volumes that are swept. -/
def volumes : List Volume :=
  [MixedRound.volume "pv1" "h1" "pvc1", MixedRound.volume "pv2" "h2" "pvc2"]

/-- The listing is late. -/
def deeds : List Deed := [⟨.listing (.ofSeconds 15), .late⟩]

lemma ends_sweep :
    (Check.sweep conduct volumes).Ends deeds (.error (.timeout "*" (.ofSeconds 15))) := by
  refine Process.Does.step _ ?_
  exact Process.Does.nothing _

lemma listed_sweep : ∀ d ∈ deeds, d.ListedBy replies := by
  intro d hd
  rw [List.mem_singleton.mp hd]
  have hlong : (Span.ofSeconds 15).nanos <
      TimedReply.total (Talk.listConditions.awaited replies) := by
    decide
  exact ((Talk.timed_within_eq_late_iff _ _ _).mpr hlong).symm

/-- Both pages are asked for, and together they take longer than the deadline. -/
theorem late_together :
    ((Check.sweep conduct volumes).Ends deeds (.error (.timeout "*" (.ofSeconds 15))) ∧
      ∀ d ∈ deeds, d.ListedBy replies) ∧
    (Talk.listConditions (replies.map TimedReply.reply)).sent.length = 2 ∧
    conduct.timeout.nanos < TimedReply.total (replies.take 2) := by
  have hcalls : (Talk.listConditions (replies.map TimedReply.reply)).sent.length = 2 := by decide
  obtain ⟨pages, -, hsent, hlate, -⟩ :=
    Check.sweep_timeout_iff conduct volumes replies ends_sweep listed_sweep
  rw [hsent, List.length_map, List.length_cons, List.length_map] at hcalls
  refine ⟨⟨ends_sweep, listed_sweep⟩, by decide, ?_⟩
  rw [← hcalls]
  exact hlate.mp rfl

/-- A sweep can be late although each single call is answered in time. -/
theorem late_though_calls_are_not : ¬ ∀ (c : Conduct) (volumes : List Volume)
    (replies : List TimedReply) (ds : List Deed) (r : Except CheckError Nat),
    (∀ x ∈ replies, x.wait.nanos < c.timeout.nanos ∧ ∃ page, x.reply.page = .ok page) →
    (Talk.listConditions (replies.map TimedReply.reply)).sent.length ≤ replies.length →
    (Check.sweep c volumes).Ends ds r → (∀ d ∈ ds, d.ListedBy replies) →
    r ≠ .error (.timeout Check.everyVolume c.timeout) := by
  intro hclaim
  refine hclaim conduct volumes replies deeds _ ?_ (by decide) ends_sweep listed_sweep rfl
  intro x hx
  rcases List.mem_pair.mp hx with rfl | rfl
  · exact ⟨by decide, first, by decide⟩
  · exact ⟨by decide, last, by decide⟩

end SlowPages

end StorageHealth
