import StorageHealth.Proofs.Process.Workplace

/-!
# What goes out

A history can be read for what it lets out of the monitor: what the driver is asked for
(`Deed.inquiries`) and the notices that are published, or could not be (`Deed.notices`).  All the
rest is between an activity and the monitor; a deed is `Deed.Idle` when the monitor does not change
either.
-/

namespace StorageHealth

/-- What a driver is asked for: the conditions of all volumes, or that of a single one. -/
inductive Inquiry where
  | everything
  | about (call : Call)
  deriving DecidableEq, Repr

namespace Deed

/-- What the driver is asked for in a deed. -/
def inquiry? : Deed → Option Inquiry
  | ⟨.listing _, _⟩ => some .everything
  | ⟨.probe call _, _⟩ => some (.about call)
  | _ => none

/-- Everything the driver is asked for, one after the other. -/
def inquiries (ds : List Deed) : List Inquiry := ds.filterMap inquiry?

/-- The notice that is sent in a deed, whatever becomes of it. -/
def notice? : Deed → Option Notice
  | ⟨.publish n, _⟩ => some n
  | _ => none

/-- All notices that are sent, one after the other. -/
def notices (ds : List Deed) : List Notice := ds.filterMap notice?

/-- Outside the monitor nobody notices these deeds: nothing is asked and nothing is published. -/
def Unnoticed (ds : List Deed) : Prop := inquiries ds = [] ∧ notices ds = []

/-- A deed that changes nothing the monitor remembers. -/
def Idle (d : Deed) : Prop := ∀ m, d.effect.leaves m = m

@[simp] lemma inquiries_nil : inquiries [] = [] := rfl

@[simp] lemma notices_nil : notices [] = [] := rfl

lemma notices_cons (d : Deed) (ds : List Deed) :
    notices (d :: ds) = d.notice?.toList ++ notices ds := by
  rw [notices, notices, List.filterMap_cons]
  cases d.notice? <;> rfl

@[simp] lemma inquiries_append (ds es : List Deed) :
    inquiries (ds ++ es) = inquiries ds ++ inquiries es := List.filterMap_append

@[simp] lemma notices_append (ds es : List Deed) :
    notices (ds ++ es) = notices ds ++ notices es := List.filterMap_append

@[simp] lemma inquiries_cons_update (f : Monitor → Monitor) (m : Monitor) (ds : List Deed) :
    inquiries (⟨.update f, m⟩ :: ds) = inquiries ds := rfl

@[simp] lemma notices_cons_update (f : Monitor → Monitor) (m : Monitor) (ds : List Deed) :
    notices (⟨.update f, m⟩ :: ds) = notices ds := rfl

@[simp] lemma inquiries_cons_probe (call : Call) (deadline : Span) (outcome : Outcome Condition)
    (ds : List Deed) :
    inquiries (⟨.probe call deadline, outcome⟩ :: ds) = .about call :: inquiries ds := rfl

@[simp] lemma notices_cons_probe (call : Call) (deadline : Span) (outcome : Outcome Condition)
    (ds : List Deed) : notices (⟨.probe call deadline, outcome⟩ :: ds) = notices ds := rfl

@[simp] lemma inquiries_cons_listing (deadline : Span) (outcome : Outcome Conditions)
    (ds : List Deed) :
    inquiries (⟨.listing deadline, outcome⟩ :: ds) = .everything :: inquiries ds := rfl

@[simp] lemma notices_cons_listing (deadline : Span) (outcome : Outcome Conditions)
    (ds : List Deed) : notices (⟨.listing deadline, outcome⟩ :: ds) = notices ds := rfl

@[simp] lemma inquiries_cons_publish (n : Notice) (outcome : Except PublishError Unit)
    (ds : List Deed) : inquiries (⟨.publish n, outcome⟩ :: ds) = inquiries ds := rfl

@[simp] lemma notices_cons_publish (n : Notice) (outcome : Except PublishError Unit)
    (ds : List Deed) : notices (⟨.publish n, outcome⟩ :: ds) = n :: notices ds := rfl

end Deed

/-- The first of these deeds, if there is any, is done when this is what the monitor remembers. -/
def Monitor.Begins (m : Monitor) (ds : List Deed) : Prop := ∀ d ∈ ds.head?, d.Fits m

/-- A look at what the monitor remembers can be the first thing that is done. -/
lemma Monitor.begins_looked (m : Monitor) (ds : List Deed) : m.Begins (.looked m :: ds) := by
  intro d hd
  cases hd
  rfl

lemma Monitor.Begins.eq {m x : Monitor} {f : Monitor → Monitor} {ds : List Deed}
    (h : m.Begins (⟨.update f, x⟩ :: ds)) : x = m :=
  h _ rfl

end StorageHealth
