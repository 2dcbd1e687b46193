import SheetCompiler.Block.Shape
import SheetCompiler.Proofs.Formula.WellFormed

/-!
# The references of a formula

`Formula.references` lists what a formula refers to, in written order. In a formula that was read
from text all ranges lie on the sheet and start at their upper left corner
(`Formula.allNormalized_of_parseSingle`), and filling names in only takes references away
(`Formula.references_fill`).
-/

namespace SheetCompiler

mutual

/-- The references in a term, in written order. -/
def Term.references : Term → List Reference
  | .range r => [r]
  | .call _ arguments => Expression.referencesOfList arguments
  | .group items => Expression.referencesOfList items
  | .negate operand => operand.references
  | _ => []

def Expression.references : Expression → List Reference
  | .last t => t.references
  | .link t _ rest => t.references ++ rest.references

def Expression.referencesOfList : List Expression → List Reference
  | [] => []
  | e :: es => e.references ++ Expression.referencesOfList es

end

/-- The references in a formula, in written order. -/
def Formula.references (f : Formula) : List Reference := Expression.referencesOfList f.expressions

/-- Every range lies on the sheet and starts at its upper left corner. -/
def AllNormalized (rs : List Reference) : Prop := ∀ r ∈ rs, r.range.Normalized

@[simp] theorem allNormalized_nil : AllNormalized [] := by simp [AllNormalized]

@[simp] theorem allNormalized_append {xs ys : List Reference} :
    AllNormalized (xs ++ ys) ↔ AllNormalized xs ∧ AllNormalized ys := by
  simp [AllNormalized, or_imp, forall_and]

/-! ### Reading -/

mutual

/-- What can be written in a formula lies on the sheet, by induction on the syntax. -/
theorem Term.WellFormed.allNormalized {t : Term} (h : t.WellFormed) :
    AllNormalized t.references := by
  match t, h with
  | .number .., _ | .text _, _ | .name _, _ | .null, _ => exact allNormalized_nil
  | .range r, h => simpa [AllNormalized, Term.references] using h.1
  | .call _ _, h => exact Expression.AllWellFormed.allNormalized h.2
  | .group _, h => exact Expression.AllWellFormed.allNormalized h
  | .negate operand, h => exact Term.WellFormed.allNormalized (t := operand) h

theorem Expression.WellFormed.allNormalized {e : Expression} (h : e.WellFormed) :
    AllNormalized e.references := by
  match e, h with
  | .last t, h => exact Term.WellFormed.allNormalized (t := t) h
  | .link _ _ _, h =>
    exact allNormalized_append.2 ⟨Term.WellFormed.allNormalized h.1, Expression.WellFormed.allNormalized h.2⟩

theorem Expression.AllWellFormed.allNormalized {es : List Expression}
    (h : Expression.AllWellFormed es) : AllNormalized (Expression.referencesOfList es) := by
  match es, h with
  | [], _ => exact allNormalized_nil
  | _ :: _, h =>
    exact allNormalized_append.2
      ⟨Expression.WellFormed.allNormalized h.1, Expression.AllWellFormed.allNormalized h.2⟩

end

/-- What a formula that was read refers to lies on the sheet. -/
theorem Formula.allNormalized_of_parseSingle {s : String} {f : Formula}
    (h : Formula.parseSingle s = .ok f) : AllNormalized f.references := by
  obtain ⟨e, single, wellFormed⟩ := Formula.wellFormed_of_parseSingle h
  rw [Formula.references, single]
  exact Expression.AllWellFormed.allNormalized ⟨wellFormed, trivial⟩

/-! ### Filling -/

mutual

/-- A name that is filled in takes the place of a single cell; all other references stay in order.
-/
theorem Term.references_fill (t : Term) (choices : List (Option String)) :
    (t.fill choices).1.references.Sublist t.references := by
  match t with
  | .number .. | .text _ | .name _ | .null => simp [Term.fill]
  | .range r =>
    by_cases h : r.isMultiCell
    · simp [Term.fill, h]
    · match choices with
      | [] | none :: _ | some _ :: _ => simp [Term.fill, Term.references, h]
  | .call function arguments => exact Expression.references_fillList arguments choices
  | .group items => exact Expression.references_fillList items choices
  | .negate operand => exact operand.references_fill choices

theorem Expression.references_fill (e : Expression) (choices : List (Option String)) :
    (e.fill choices).1.references.Sublist e.references := by
  match e with
  | .last t => exact t.references_fill choices
  | .link t op rest =>
    exact (t.references_fill choices).append (rest.references_fill _)

theorem Expression.references_fillList (es : List Expression) (choices : List (Option String)) :
    (Expression.referencesOfList (Expression.fillList es choices).1).Sublist
      (Expression.referencesOfList es) := by
  match es with
  | [] => simp [Expression.fillList]
  | e :: es =>
    exact (e.references_fill choices).append (Expression.references_fillList es _)

end

/-- Filling names in takes references away and adds none. -/
theorem Formula.references_fill (f : Formula) (choices : List (Option String)) :
    (f.fill choices).references.Sublist f.references :=
  Expression.references_fillList f.expressions choices

end SheetCompiler
