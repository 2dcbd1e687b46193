import SheetCompiler.Proofs.Alias.Table
import SheetCompiler.Proofs.Formula.References
import SheetCompiler.Python.Expression

/-!
# Resolving many references

All that translation does to an alias table is to resolve the references of the formula, one after
the other (`Python.Scope.formula_snd`). What one resolution keeps, all of them keep
(`AliasTable.resolveAll_induction`).
-/

namespace SheetCompiler

namespace AliasTable

/-- Resolves references in order, each seen from its current sheet. -/
def resolveAll : List (Reference × Option String) → AliasTable → List String × AliasTable
  | [], t => ([], t)
  | (r, current) :: rest, t =>
    let (identifier, t) := t.resolve r current
    let (identifiers, t) := resolveAll rest t
    (identifier :: identifiers, t)

variable {t : AliasTable}

/-- References that come later are resolved in the table that the earlier ones leave. -/
theorem resolveAll_append (xs ys : List (Reference × Option String)) (t : AliasTable) :
    resolveAll (xs ++ ys) t =
      ((resolveAll xs t).1 ++ (resolveAll ys (resolveAll xs t).2).1,
        (resolveAll ys (resolveAll xs t).2).2) := by
  induction xs generalizing t with
  | nil => simp [resolveAll]
  | cons x xs ih => simp [resolveAll, ih]

/-- What resolving one of the references keeps, resolving all of them keeps. -/
theorem resolveAll_induction {P : AliasTable → Prop} {refs : List (Reference × Option String)}
    (start : P t) (step : ∀ t, ∀ x ∈ refs, P t → P (t.resolve x.1 x.2).2) :
    P (resolveAll refs t).2 := by
  induction refs generalizing t with
  | nil => exact start
  | cons x refs ih =>
    refine ih (step t x List.mem_cons_self start) ?_
    exact fun t y hy => step t y (List.mem_cons_of_mem x hy)

@[simp] theorem sheets_resolve (r : Reference) (current : Option String) :
    (t.resolve r current).2.sheets = t.sheets := by
  obtain ⟨b, -, eq⟩ | ⟨-, eq⟩ := t.resolve_cases r current <;> simp [eq]

@[simp] theorem sheets_resolveAll (refs : List (Reference × Option String)) (t : AliasTable) :
    (resolveAll refs t).2.sheets = t.sheets :=
  resolveAll_induction (P := fun t' => t'.sheets = t.sheets) rfl fun t' x _ h => by simp [h]

/-- Resolving never takes a binding away. -/
theorem extends_resolve (t : AliasTable) (r : Reference) (current : Option String) :
    (t.resolve r current).2.Extends t := by
  intro key b h
  obtain ⟨b', -, eq⟩ | ⟨unbound, eq⟩ := t.resolve_cases r current
  · rwa [eq]
  · rw [eq, binding?_synthesize, if_neg, h]
    rintro rfl
    simp [unbound] at h

theorem extends_resolveAll (refs : List (Reference × Option String)) (t : AliasTable) :
    (resolveAll refs t).2.Extends t :=
  resolveAll_induction (P := fun t' => t'.Extends t) t.extends_refl
    fun t' x _ h => (t'.extends_resolve x.1 x.2).trans h

/-- A resolved reference is bound. -/
theorem exists_binding?_resolveAll {refs : List (Reference × Option String)}
    {x : Reference × Option String} (h : x ∈ refs) (t : AliasTable) :
    ∃ b, (resolveAll refs t).2.binding? (t.key x.1 x.2) = some b := by
  induction refs generalizing t with
  | nil => simp at h
  | cons first refs ih =>
    have key : (t.resolve first.1 first.2).2.key x.1 x.2 = t.key x.1 x.2 :=
      key_congr (sheets_resolve first.1 first.2) x.1 x.2
    rcases List.mem_cons.1 h with rfl | h
    · obtain ⟨b, bound⟩ : ∃ b, (t.resolve x.1 x.2).2.binding? (t.key x.1 x.2) = some b := by
        obtain ⟨b, bound, eq⟩ | ⟨-, eq⟩ := t.resolve_cases x.1 x.2
        · exact ⟨b, by rw [eq, bound]⟩
        · exact ⟨_, by rw [eq, binding?_synthesize, if_pos rfl]⟩
      exact ⟨b, extends_resolveAll refs _ _ _ bound⟩
    · obtain ⟨b, bound⟩ := ih h (t.resolve first.1 first.2).2
      exact ⟨b, key ▸ bound⟩

/-- What resolving adds to a table: bindings on the lowest layer, whose keys are queued. -/
theorem resolveAll_new (refs : List (Reference × Option String)) (t : AliasTable) :
    t.pending ⊆ (resolveAll refs t).2.pending ∧
    (∀ key b, (resolveAll refs t).2.binding? key = some b → t.binding? key = some b ∨
      b.layer = .synthesized ∧ key ∈ (resolveAll refs t).2.pending) ∧
    ∀ key ∈ (resolveAll refs t).2.pending, key ∈ t.pending ∨
      (∃ b, (resolveAll refs t).2.binding? key = some b ∧ b.layer = .synthesized) ∧
        ∃ x ∈ refs, key = t.key x.1 x.2 := by
  refine resolveAll_induction (P := fun t' => t'.sheets = t.sheets ∧ t.pending ⊆ t'.pending ∧
    (∀ key b, t'.binding? key = some b → t.binding? key = some b ∨
      b.layer = .synthesized ∧ key ∈ t'.pending) ∧
    ∀ key ∈ t'.pending, key ∈ t.pending ∨
      (∃ b, t'.binding? key = some b ∧ b.layer = .synthesized) ∧ ∃ x ∈ refs, key = t.key x.1 x.2)
    ⟨rfl, List.Subset.refl _, fun _ _ => .inl, fun _ => .inl⟩ ?_ |>.2
  rintro t' x hx ⟨sheets, pending, bindings, queued⟩
  obtain ⟨b, -, eq⟩ | ⟨unbound, eq⟩ := t'.resolve_cases x.1 x.2
  · rw [eq]
    exact ⟨sheets, pending, bindings, queued⟩
  · rw [eq]
    have old := t'.extends_resolve x.1 x.2
    rw [eq] at old
    refine ⟨by simp [sheets], fun key hkey => by simp [pending hkey], fun key b h => ?_,
      fun key h => ?_⟩
    · rw [binding?_synthesize] at h
      split at h
      next same =>
        cases h
        exact .inr ⟨rfl, by simp [same]⟩
      next =>
        exact (bindings key b h).imp id fun ⟨layer, hkey⟩ => ⟨layer, by simp [hkey]⟩
    · rw [pending_synthesize, List.mem_append, List.mem_singleton] at h
      rcases h with h | rfl
      · refine (queued key h).imp id fun ⟨⟨b, hb, layer⟩, from'⟩ => ⟨⟨b, old key b hb, layer⟩, from'⟩
      · refine .inr ⟨⟨_, by rw [binding?_synthesize, if_pos rfl], rfl⟩, x, hx, ?_⟩
        exact key_congr sheets x.1 x.2

end AliasTable

/-! ### Translation -/

namespace Python.Scope

open AliasTable

variable (scope : Scope)

mutual

/-- All that translating a term does to the table is to resolve its references in order. The three
lemmas follow the syntax together. -/
theorem term_snd (e : Term) (t : AliasTable) :
    (scope.term e t).2 = (resolveAll (e.references.map (·, scope.sheet)) t).2 := by
  match e with
  | .number .. | .text _ | .name _ | .null => simp [term, Term.references, resolveAll]
  | .range r => simp [term, Term.references, resolveAll]
  | .call function [] =>
    unfold term
    split <;> simp [Term.references, Expression.referencesOfList, resolveAll]
  | .call function (e :: es) => exact list_snd (e :: es) t
  | .group items => exact list_snd items t
  | .negate operand => exact term_snd operand t

theorem expression_snd (e : Expression) (t : AliasTable) :
    (scope.expression e t).2 = (resolveAll (e.references.map (·, scope.sheet)) t).2 := by
  match e with
  | .last operand => exact term_snd operand t
  | .link operand op rest =>
    simp only [expression, Expression.references, List.map_append, resolveAll_append]
    rw [expression_snd rest, term_snd operand]

theorem list_snd (es : List Expression) (t : AliasTable) :
    (scope.list es t).2 =
      (resolveAll ((Expression.referencesOfList es).map (·, scope.sheet)) t).2 := by
  match es with
  | [] => simp [list, Expression.referencesOfList, resolveAll]
  | e :: es =>
    simp only [list, Expression.referencesOfList, List.map_append, resolveAll_append]
    rw [list_snd es, expression_snd e]

end

/-- All that translating a formula does to the table is to resolve its references in order. -/
theorem formula_snd (f : Formula) (t : AliasTable) :
    (scope.formula f t).2 = (resolveAll (f.references.map (·, scope.sheet)) t).2 :=
  list_snd scope f.expressions t

end Python.Scope

end SheetCompiler
