import Mathlib.Data.List.Forall2

/-!
# Computations that succeed

What a computation with errors did when it gave a result: every step before gave one too. `Ends`
says what it gives in both cases, and goes from step to step.
-/

namespace SheetCompiler.Fallible

variable {ε ε' α β : Type}

/-- A computation in two steps succeeds if both steps do. -/
theorem bind_eq_ok_iff {x : Except ε α} {f : α → Except ε β} {b : β} :
    x >>= f = .ok b ↔ ∃ a, x = .ok a ∧ f a = .ok b := by
  cases x with
  | error e => simp [bind, Except.bind]
  | ok a => simp [bind, Except.bind]

theorem toOption_eq_some_iff {x : Except ε α} {a : α} : x.toOption = some a ↔ x = .ok a := by
  cases x <;> simp [Except.toOption]

theorem map_eq_ok_iff {x : Except ε α} {f : α → β} {b : β} :
    x.map f = .ok b ↔ ∃ a, x = .ok a ∧ f a = b := by
  cases x <;> simp [Except.map]

@[simp] theorem mapError_ok (f : ε → ε') (a : α) : (Except.ok a).mapError f = .ok a := rfl

@[simp] theorem mapError_error (f : ε → ε') (e : ε) :
    (Except.error e : Except ε α).mapError f = .error (f e) := rfl

theorem mapError_eq_ok_iff {x : Except ε α} {f : ε → ε'} {a : α} :
    x.mapError f = .ok a ↔ x = .ok a := by
  cases x <;> simp

theorem map_eq_error_iff {x : Except ε α} {f : α → β} {e : ε} :
    x.map f = .error e ↔ x = .error e := by
  cases x <;> simp [Except.map]

theorem mapError_eq_error_iff {x : Except ε α} {f : ε → ε'} {e : ε'} :
    x.mapError f = .error e ↔ ∃ cause, x = .error cause ∧ f cause = e := by
  cases x <;> simp

/-- A computation for each element of a list succeeds if all of them do, and gives their results in
order. -/
theorem mapM_eq_ok_iff {f : α → Except ε β} {xs : List α} {ys : List β} :
    xs.mapM f = .ok ys ↔ List.Forall₂ (fun x y => f x = .ok y) xs ys := by
  induction xs generalizing ys with
  | nil => cases ys <;> simp [pure, Except.pure]
  | cons x xs ih =>
    simp only [List.mapM_cons, bind_eq_ok_iff, ih]
    constructor
    · rintro ⟨y, hy, ys, hys, h⟩
      cases h
      exact .cons hy hys
    · rintro (_ | ⟨hy, hys⟩)
      exact ⟨_, hy, _, hys, rfl⟩

/-- A check of a list that passes has passed for each element. -/
theorem forM_eq_ok {f : α → Except ε Unit} {xs : List α} (h : xs.forM f = .ok ()) :
    ∀ x ∈ xs, f x = .ok () := by
  induction xs with
  | nil => exact nofun
  | cons x xs ih =>
    obtain ⟨⟨⟩, first, others⟩ := bind_eq_ok_iff.1 h
    intro y mem
    rcases List.mem_cons.1 mem with rfl | mem
    · exact first
    · exact ih others y mem

section

variable {R : α → β → Prop} {xs : List α} {ys : List β}

/-- Related lists are related place by place. -/
theorem exists_getElem? (h : List.Forall₂ R xs ys) {i : Nat} {x : α} (hx : xs[i]? = some x) :
    ∃ y, ys[i]? = some y ∧ R x y := by
  obtain ⟨hi, rfl⟩ := List.getElem?_eq_some_iff.1 hx
  have hi' : i < ys.length := h.length_eq ▸ hi
  exact ⟨ys[i], List.getElem?_eq_getElem hi', h.get hi hi'⟩

theorem exists_mem_right (h : List.Forall₂ R xs ys) {x : α} (hx : x ∈ xs) : ∃ y ∈ ys, R x y := by
  obtain ⟨i, hi⟩ := List.mem_iff_getElem?.1 hx
  obtain ⟨y, hy, hxy⟩ := exists_getElem? h hi
  exact ⟨y, List.mem_of_getElem? hy, hxy⟩

theorem exists_mem_left (h : List.Forall₂ R xs ys) {y : β} (hy : y ∈ ys) : ∃ x ∈ xs, R x y :=
  exists_mem_right (R := flip R) h.flip hy

end

section

variable {good : α → Prop} {bad bad' : ε → Prop} {x : Except ε α}

/-- The computation gives a good result, or it fails in a way that is allowed. -/
def Ends (good : α → Prop) (bad : ε → Prop) : Except ε α → Prop
  | .ok a => good a
  | .error e => bad e

/-- The second step starts from a good result of the first one, or never. -/
theorem Ends.bind {next : β → Prop} {f : α → Except ε β} (first : Ends good bad x)
    (others : ∀ a, good a → Ends next bad (f a)) : Ends next bad (x >>= f) := by
  cases x with
  | error e => exact first
  | ok a => exact others a first

/-- Good results may count as better ones, and more ways to fail may be allowed. -/
theorem Ends.mono {good' : α → Prop} (h : Ends good bad x) (ok : ∀ a, good a → good' a)
    (error : ∀ e, bad e → bad' e) : Ends good' bad' x := by
  cases x with
  | error e => exact error e h
  | ok a => exact ok a h

theorem Ends.of_ok (h : Ends good bad x) {a : α} (eq : x = .ok a) : good a := by
  subst eq
  exact h

theorem Ends.of_error (h : Ends good bad x) {e : ε} (eq : x = .error e) : bad e := by
  subst eq
  exact h

end

end SheetCompiler.Fallible
