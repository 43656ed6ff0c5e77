import StorageHealth.Proofs.Check.Reports
import StorageHealth.Volume.Cycle
import StorageHealth.Pod.Cycle

/-!
# What activities are made of

Checks, sweeps, visits to volumes and rounds over pods are put together from a few kinds of deeds.
So a property that histories hand on to one another (`Deed.Closed`) is a property of all that an
activity does when its parts have it.  There is one lemma for each activity, which names the parts;
whoever wants to know that an activity only does what is allowed need not look inside again.
-/

namespace StorageHealth

open Deed

namespace Deed

/-- The slots were changed. -/
def slotted (f : Slots → Slots) (m : Monitor) : Deed :=
  ⟨.update (fun m => { m with slots := f m.slots }), m⟩

end Deed

section Activities

variable {P : List Deed → Prop} {c : Conduct} (hP : Closed P)

include hP

/-! ## Checks -/

namespace Check

lemma always_ask {v : Volume} {call : Call}
    (hprobe : ∀ outcome, P [⟨.probe call c.timeout, outcome⟩]) : (ask c v call).Always P :=
  hP.andThen (Process.always_perform hprobe).lift fun _ => hP.ofExcept _

lemma always_mount {v : Volume} {p : Pod} (hask : ∀ call, (ask c v call).Always P)
    (hreport : ∀ s condition, (report s condition).Always P) : (mount c v p).Always P := by
  refine hP.andThen (hP.ofExcept _) fun handle => ?_
  refine hP.andThen (hP.ofExcept _) fun call => ?_
  refine hP.andThen (hask call) fun condition => ?_
  exact hP.andThen (hreport _ condition) fun _ => hP.pure condition

variable (hlook : ∀ m, P [looked m]) (hreport : ∀ s condition, (report s condition).Always P)

include hlook hreport

lemma always_controller {v : Volume} (hask : ∀ handle, (ask c v (.controller handle)).Always P) :
    (controller c v).Always P := by
  refine hP.andThen (hP.ofExcept _) fun handle => ?_
  refine hP.andThen (Process.always_perform hlook).lift fun m => ?_
  refine hP.andThen (hP.ofExcept _) fun claim => ?_
  refine hP.andThen (hask handle) fun condition => ?_
  exact hP.andThen (hreport _ condition) fun _ => hP.pure condition

lemma always_reportListed {conditions : Conditions} {v : Volume} :
    (reportListed c conditions v).Always P := by
  unfold reportListed
  split
  · exact hP.done _
  · split
    · exact hP.done _
    · refine hP.bind (Process.always_perform hlook) fun m => ?_
      split
      · exact hP.done _
      · exact hP.bind (hreport _ _) fun _ => hP.done _

lemma always_sweep {volumes : List Volume}
    (hlisting : ∀ outcome, P [⟨.listing c.timeout, outcome⟩]) : (sweep c volumes).Always P := by
  have hall : ∀ conditions vs, (reportAll c conditions vs).Always P := by
    intro conditions vs
    induction vs with
    | nil => exact hP.done _
    | cons v rest ih =>
      refine hP.bind (always_reportListed hP hlook hreport) fun _ => ?_
      exact hP.bind ih fun _ => hP.done _
  refine hP.andThen (Process.always_perform hlisting).lift fun outcome => ?_
  exact hP.andThen (hP.ofExcept _) fun conditions => (hall conditions volumes).lift

end Check

/-! ## Visits to volumes -/

lemma Volume.always_cycle {now : Nat} {v : Volume} (hslots : ∀ f m, P [slotted f m])
    (hcheck : (Check.controller c v).Always P) : (cycle c now v).Always P := by
  unfold cycle
  split
  · have hclaim := hslots fun s => (s.claim v now c.monitorInterval).1
    refine hP.andThen (Process.always_perform hclaim).lift fun before => ?_
    split
    · exact hP.pure _
    · exact hP.andThen hcheck fun _ => hP.pure _
  · have hforget := hslots fun s => s.forget (nameOf v)
    exact hP.andThen (Process.always_change hforget).lift fun _ => hP.pure _

/-! ## Rounds over pods -/

namespace Pod

variable (hlook : ∀ m, P [looked m]) {p : Pod} (hmount : ∀ v, (Check.mount c v p).Always P)

include hlook hmount

lemma always_checkVolume (x : PodVolume) : (checkVolume c p x).Always P := by
  unfold checkVolume
  split
  · refine hP.andThen (Process.always_perform hlook).lift fun m => ?_
    split
    · exact hP.pure _
    · split
      · exact hP.pure _
      · exact hP.andThen (hmount _) fun _ => hP.pure _
  · exact hP.pure _

/-- A round over a pod only looks and checks, so it has what looks and checks have. -/
lemma always_checkVolumes (items : List PodVolume) : (checkVolumes c p items).Always P := by
  induction items with
  | nil => exact hP.done _
  | cons x rest ih =>
    exact hP.bind (always_checkVolume hP hlook hmount x) fun _ => hP.bind ih fun _ => hP.done _

lemma always_cycle : (cycle c p).Always P := by
  unfold cycle
  split
  · exact hP.pure _
  · refine hP.andThen (Process.always_perform hlook).lift fun m => ?_
    refine hP.andThen (always_checkVolumes hP hlook hmount _).lift fun failed => ?_
    split
    · exact hP.pure _
    · exact hP.throw _

end Pod

end Activities

end StorageHealth
