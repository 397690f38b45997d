/-
Finite tables as lists of entries, oldest first.

`put` replaces an entry where it stands and otherwise adds it at the end, so
the order of a table is the order in which its keys first appeared; `remove`
keeps the order of the rest. A table built by `put` and `remove` holds at
most one entry a key.
-/
namespace ObjectGroups

abbrev Table (κ α : Type) := List (κ × α)

namespace Table

variable {κ α : Type} [DecidableEq κ]

def get? : Table κ α → κ → Option α
  | [], _ => none
  | (j, a) :: t, k => if j = k then some a else get? t k

def put : Table κ α → κ → α → Table κ α
  | [], k, a => [(k, a)]
  | (j, b) :: t, k, a => if j = k then (j, a) :: t else (j, b) :: put t k a

def remove (t : Table κ α) (k : κ) : Table κ α :=
  t.filter fun e => e.1 ≠ k

def modify (t : Table κ α) (k : κ) (f : α → α) : Table κ α :=
  t.map fun e => if e.1 = k then (e.1, f e.2) else e

def keys (t : Table κ α) : List κ := t.map (·.1)

def values (t : Table κ α) : List α := t.map (·.2)

/-- The entries in the order of their names, by code point. -/
def byName (t : Table String α) : Table String α := t.mergeSort fun a b => a.1 ≤ b.1

def has (t : Table κ α) (k : κ) : Bool := (t.get? k).isSome

@[simp] theorem get?_nil (k : κ) : get? ([] : Table κ α) k = none := rfl

@[simp] theorem get?_put_self (t : Table κ α) (k : κ) (a : α) : (t.put k a).get? k = some a := by
  induction t with
  | nil => simp [put, get?]
  | cons e t ih =>
    obtain ⟨j, b⟩ := e
    by_cases h : j = k <;> simp [put, get?, h, ih]

theorem get?_put_of_ne (t : Table κ α) {k k' : κ} (h : k ≠ k') (a : α) :
    (t.put k a).get? k' = t.get? k' := by
  induction t with
  | nil => simp [put, get?, h]
  | cons e t ih =>
    obtain ⟨j, b⟩ := e
    by_cases hj : j = k
    · subst hj; simp [put, get?, h]
    · simp only [put, get?, if_neg hj]
      split
      · rfl
      · exact ih

@[simp] theorem get?_remove_self (t : Table κ α) (k : κ) : (t.remove k).get? k = none := by
  induction t with
  | nil => rfl
  | cons e t ih =>
    obtain ⟨j, b⟩ := e
    by_cases h : j = k <;> simp_all [remove, get?]

theorem get?_remove_of_ne (t : Table κ α) {k k' : κ} (h : k ≠ k') :
    (t.remove k).get? k' = t.get? k' := by
  induction t with
  | nil => rfl
  | cons e t ih =>
    obtain ⟨j, b⟩ := e
    by_cases hj : j = k
    · subst hj; simp_all [remove, get?]
    · by_cases hj' : j = k' <;> simp_all [remove, get?]

theorem get?_put (t : Table κ α) (k k' : κ) (a : α) :
    (t.put k a).get? k' = if k' = k then some a else t.get? k' := by
  split
  · next h => rw [h, get?_put_self]
  · next h => exact get?_put_of_ne t (fun e => h e.symm) a

theorem get?_remove (t : Table κ α) (k k' : κ) :
    (t.remove k).get? k' = if k' = k then none else t.get? k' := by
  split
  · next h => rw [h, get?_remove_self]
  · next h => exact get?_remove_of_ne t fun e => h e.symm

theorem get?_modify (t : Table κ α) (k k' : κ) (f : α → α) :
    (t.modify k f).get? k' = if k' = k then (t.get? k').map f else t.get? k' := by
  induction t with
  | nil => simp [modify, get?]
  | cons e t ih =>
    obtain ⟨j, b⟩ := e
    by_cases hj : j = k <;> by_cases hj' : j = k' <;> simp_all [modify, get?]

/-- Entries may change, each in the light of its key; the keys stay. -/
theorem get?_map (t : Table κ α) (f : κ → α → α) (k : κ) :
    get? (t.map fun (j, a) => (j, f j a)) k = (t.get? k).map (f k) := by
  induction t with
  | nil => rfl
  | cons e t ih =>
    obtain ⟨j, b⟩ := e
    by_cases h : j = k
    · subst h; simp [get?]
    · simp only [List.map_cons, get?, if_neg h, ih]

theorem mem_of_get? {t : Table κ α} {k : κ} {a : α} (h : t.get? k = some a) : (k, a) ∈ t := by
  induction t with
  | nil => cases h
  | cons e t ih =>
    obtain ⟨j, b⟩ := e
    simp only [get?] at h
    split at h
    · next hj => cases h; subst hj; exact List.mem_cons_self
    · exact List.mem_cons_of_mem _ (ih h)

end Table

end ObjectGroups
