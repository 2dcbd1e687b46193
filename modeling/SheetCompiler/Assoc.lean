/-!
# Association lists

Finite maps as lists of pairs with at most one pair a key. Binding a key anew keeps its place.
-/

namespace SheetCompiler.Assoc

variable {κ α : Type} [DecidableEq κ]

/-- The value bound to a key. -/
def find? (key : κ) : List (κ × α) → Option α
  | [] => none
  | (k, v) :: rest => if k = key then some v else find? key rest

/-- Binds a key, in place of its old binding if it has one. -/
def insert (key : κ) (value : α) : List (κ × α) → List (κ × α)
  | [] => [(key, value)]
  | (k, v) :: rest => if k = key then (key, value) :: rest else (k, v) :: insert key value rest

@[simp] theorem find?_nil (key : κ) : find? key ([] : List (κ × α)) = none := rfl

@[simp] theorem find?_insert_self (key : κ) (value : α) (m : List (κ × α)) :
    find? key (insert key value m) = some value := by
  induction m with
  | nil => simp [insert, find?]
  | cons p rest ih =>
    obtain ⟨k, v⟩ := p
    by_cases h : k = key <;> simp [insert, find?, h, ih]

theorem find?_insert_of_ne {key other : κ} (h : other ≠ key) (value : α) (m : List (κ × α)) :
    find? other (insert key value m) = find? other m := by
  induction m with
  | nil => simp [insert, find?, h.symm]
  | cons p rest ih =>
    obtain ⟨k, v⟩ := p
    by_cases hk : k = key
    · subst hk
      simp [insert, find?, h.symm]
    · simp [insert, find?, hk, ih]

theorem find?_insert (key other : κ) (value : α) (m : List (κ × α)) :
    find? other (insert key value m) = if other = key then some value else find? other m := by
  by_cases h : other = key
  · subst h
    simp
  · simp [h, find?_insert_of_ne h]

end SheetCompiler.Assoc
