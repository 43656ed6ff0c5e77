/-!
# Tables

A table is a finite map kept as a list of key–value pairs in the order in which the keys were
first written.  Looking a key up finds its first pair; writing replaces that pair or appends a new
one; erasing drops every pair of the key.

The lemmas `get?_insert` and `get?_erase` say what each operation does to look-ups; nothing else
about the representation is needed to reason about a table as a map.  `Table.Distinct` says that
no key has two pairs, which every operation keeps.
-/

namespace StorageHealth

/-- A finite map from `κ` to `α`, remembered in the order of first insertion. -/
structure Table (κ α : Type) where
  entries : List (κ × α)
  deriving Repr

namespace Table

variable {κ α β : Type} [DecidableEq κ]

/-- The table without entries. -/
def empty : Table κ α := ⟨[]⟩

instance : EmptyCollection (Table κ α) := ⟨empty⟩

instance : Inhabited (Table κ α) := ⟨empty⟩

/-- The keys in order of first insertion. -/
def keys (t : Table κ α) : List κ := t.entries.map Prod.fst

/-- The values in the order of their keys. -/
def values (t : Table κ α) : List α := t.entries.map Prod.snd

/-- First value of a key in a list of pairs. -/
def find (k : κ) : List (κ × α) → Option α
  | [] => none
  | (k', a) :: rest => if k' = k then some a else find k rest

/-- Replaces the first pair of a key, or appends a pair. -/
def put (k : κ) (a : α) : List (κ × α) → List (κ × α)
  | [] => [(k, a)]
  | (k', a') :: rest => if k' = k then (k, a) :: rest else (k', a') :: put k a rest

/-- The value stored under `k`. -/
def get? (t : Table κ α) (k : κ) : Option α := find k t.entries

/-- Whether something is stored under `k`. -/
def contains (t : Table κ α) (k : κ) : Bool := (t.get? k).isSome

/-- Stores `a` under `k`, replacing what was there. -/
def insert (t : Table κ α) (k : κ) (a : α) : Table κ α := ⟨put k a t.entries⟩

/-- Drops the key `k`. -/
def erase (t : Table κ α) (k : κ) : Table κ α := ⟨t.entries.filter (fun e => e.1 ≠ k)⟩

/-- The table that results from writing the pairs one after the other. -/
def ofList (pairs : List (κ × α)) : Table κ α :=
  pairs.foldl (fun t e => t.insert e.1 e.2) empty

/-- No key has two pairs. -/
def Distinct (t : Table κ α) : Prop := t.keys.Nodup

/-! ### What the operations do to look-ups -/

omit [DecidableEq κ] in
@[simp] theorem entries_empty : (empty : Table κ α).entries = [] := rfl

@[simp] theorem get?_empty (k : κ) : (empty : Table κ α).get? k = none := rfl

theorem find_put (k k' : κ) (a : α) (l : List (κ × α)) :
    find k' (put k a l) = if k = k' then some a else find k' l := by
  induction l with
  | nil => simp [put, find]
  | cons e rest ih =>
    obtain ⟨k₁, a₁⟩ := e
    by_cases h : k₁ = k
    · subst h
      by_cases h' : k₁ = k' <;> simp [put, find, h']
    · by_cases h' : k₁ = k'
      · subst h'
        simp [put, find, h, Ne.symm h]
      · simp [put, find, h, h', ih]

/-- Writing a key changes its own look-up only. -/
theorem get?_insert (t : Table κ α) (k k' : κ) (a : α) :
    (t.insert k a).get? k' = if k = k' then some a else t.get? k' :=
  find_put k k' a t.entries

@[simp] theorem get?_insert_self (t : Table κ α) (k : κ) (a : α) :
    (t.insert k a).get? k = some a := by
  simp [get?_insert]

theorem find_filter (k k' : κ) (l : List (κ × α)) :
    find k' (l.filter (fun e => e.1 ≠ k)) = if k = k' then none else find k' l := by
  induction l with
  | nil => simp [find]
  | cons e rest ih =>
    obtain ⟨k₁, a₁⟩ := e
    by_cases h : k₁ = k
    · subst h
      by_cases h' : k₁ = k' <;> simp_all [find]
    · by_cases h' : k₁ = k'
      · subst h'
        simp [find, h, Ne.symm h]
      · simp_all [find]

/-- Erasing a key changes its own look-up only. -/
theorem get?_erase (t : Table κ α) (k k' : κ) :
    (t.erase k).get? k' = if k = k' then none else t.get? k' :=
  find_filter k k' t.entries

@[simp] theorem get?_erase_self (t : Table κ α) (k : κ) : (t.erase k).get? k = none := by
  simp [get?_erase]

theorem find_isSome_iff (k : κ) (l : List (κ × α)) :
    (find k l).isSome ↔ k ∈ l.map Prod.fst := by
  induction l with
  | nil => simp [find]
  | cons e rest ih =>
    obtain ⟨k₁, a₁⟩ := e
    by_cases h : k₁ = k
    · simp [find, h]
    · simp [find, h, ih, Ne.symm h]

/-- A key is stored exactly when it is listed. -/
theorem contains_iff_mem_keys (t : Table κ α) (k : κ) : t.contains k ↔ k ∈ t.keys :=
  find_isSome_iff k t.entries

theorem mem_of_mem_put {k : κ} {a : α} {l : List (κ × α)} {e : κ × α} (h : e ∈ put k a l) :
    e = (k, a) ∨ e ∈ l := by
  induction l with
  | nil => exact Or.inl (List.mem_singleton.mp h)
  | cons e' rest ih =>
    obtain ⟨k', a'⟩ := e'
    unfold put at h
    split at h
    · exact (List.mem_cons.mp h).imp_right (List.mem_cons_of_mem _)
    · rcases List.mem_cons.mp h with rfl | h
      · exact Or.inr List.mem_cons_self
      · exact (ih h).imp_right (List.mem_cons_of_mem _)

/-! ### Distinct keys -/

theorem keys_put (k : κ) (a : α) (l : List (κ × α)) :
    (put k a l).map Prod.fst =
      if k ∈ l.map Prod.fst then l.map Prod.fst else l.map Prod.fst ++ [k] := by
  induction l with
  | nil => simp [put]
  | cons e rest ih =>
    obtain ⟨k₁, a₁⟩ := e
    by_cases h : k₁ = k
    · simp [put, h]
    · simp only [put, h, if_false, List.map_cons, ih, List.mem_cons, Ne.symm h, false_or]
      split <;> simp

omit [DecidableEq κ] in
theorem distinct_empty : (empty : Table κ α).Distinct := List.nodup_nil

/-- Writing keeps the keys distinct. -/
theorem Distinct.insert {t : Table κ α} (h : t.Distinct) (k : κ) (a : α) :
    (t.insert k a).Distinct := by
  unfold Distinct keys Table.insert at *
  rw [keys_put]
  split
  · exact h
  · rename_i hk
    rw [List.nodup_append]
    refine ⟨h, by simp, ?_⟩
    intro x hx y hy
    simp only [List.mem_singleton] at hy
    subst hy
    exact fun e => hk (e ▸ hx)

/-- With distinct keys the pairs of a table are its look-ups. -/
theorem find_eq_some_iff {k : κ} {a : α} {l : List (κ × α)} (h : (l.map Prod.fst).Nodup) :
    find k l = some a ↔ (k, a) ∈ l := by
  induction l with
  | nil => simp [find]
  | cons e rest ih =>
    obtain ⟨k₁, a₁⟩ := e
    rw [List.map_cons, List.nodup_cons] at h
    by_cases hk : k₁ = k
    · subst hk
      have hrest : (k₁, a) ∉ rest := fun hm => h.1 (List.mem_map.mpr ⟨_, hm, rfl⟩)
      simp [find, hrest, eq_comm]
    · simp [find, hk, Ne.symm hk, ih h.2]

theorem mem_entries_iff {t : Table κ α} (h : t.Distinct) {k : κ} {a : α} :
    (k, a) ∈ t.entries ↔ t.get? k = some a :=
  (find_eq_some_iff h).symm

/-- Erasing keeps the keys distinct. -/
theorem Distinct.erase {t : Table κ α} (h : t.Distinct) (k : κ) : (t.erase k).Distinct := by
  unfold Distinct keys Table.erase at *
  exact List.Nodup.sublist (List.Sublist.map _ List.filter_sublist) h

end Table

end StorageHealth
