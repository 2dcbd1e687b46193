import SheetCompiler.Block.Shape

/-!
# Filling a formula and taking the names out again

`fill` puts names in place of single cells, `substitute` puts references in place of names. This
module says what is left of a formula after both: its shape is unchanged, and its leaves are those
that the names stand for. Shape and leaves together are the whole formula, apart from marks and
from sheets that are not written out (`Formula.plain_eq_of_shape_eq`), so the result is every
formula of that shape with those leaves (`Formula.plain_substitute_fill`).
-/

namespace SheetCompiler

/-! ### Names, plain formulas, substitution -/

mutual

/-- The plain names that a term holds. Functions that are called do not count. -/
def Term.names : Term → List String
  | .name n => [n]
  | .call _ arguments => Expression.namesOfList arguments
  | .group items => Expression.namesOfList items
  | .negate operand => operand.names
  | _ => []

def Expression.names : Expression → List String
  | .last t => t.names
  | .link t _ rest => t.names ++ rest.names

def Expression.namesOfList : List Expression → List String
  | [] => []
  | e :: es => e.names ++ Expression.namesOfList es

end

mutual

/-- The term with all sheets written out and all marks dropped. -/
def Term.plain (sheet : String) : Term → Term
  | .range r => .range (r.plain sheet)
  | .call function arguments => .call function (Expression.plainList sheet arguments)
  | .group items => .group (Expression.plainList sheet items)
  | .negate operand => .negate (operand.plain sheet)
  | t => t

def Expression.plain (sheet : String) : Expression → Expression
  | .last t => .last (t.plain sheet)
  | .link t op rest => .link (t.plain sheet) op (rest.plain sheet)

def Expression.plainList (sheet : String) : List Expression → List Expression
  | [] => []
  | e :: es => e.plain sheet :: Expression.plainList sheet es

end

mutual

/-- The term with references in place of the names that have a value. -/
def Term.substitute (σ : String → Option Reference) : Term → Term
  | .name n =>
    match σ n with
    | some r => .range r
    | none => .name n
  | .call function arguments => .call function (Expression.substituteList σ arguments)
  | .group items => .group (Expression.substituteList σ items)
  | .negate operand => .negate (operand.substitute σ)
  | t => t

def Expression.substitute (σ : String → Option Reference) : Expression → Expression
  | .last t => .last (t.substitute σ)
  | .link t op rest => .link (t.substitute σ) op (rest.substitute σ)

def Expression.substituteList (σ : String → Option Reference) : List Expression → List Expression
  | [] => []
  | e :: es => e.substitute σ :: Expression.substituteList σ es

end

namespace Formula

/-- The plain names that a formula holds. -/
def names (f : Formula) : List String := Expression.namesOfList f.expressions

/-- The formula with all sheets written out and all marks dropped. -/
def plain (sheet : String) (f : Formula) : Formula := ⟨Expression.plainList sheet f.expressions⟩

/-- The formula with references in place of the names that have a value. -/
def substitute (f : Formula) (σ : String → Option Reference) : Formula :=
  ⟨Expression.substituteList σ f.expressions⟩

end Formula

/-! ### A formula is its shape and its leaves -/

@[simp] theorem Reference.isMultiCell_plain (sheet : String) (r : Reference) :
    (r.plain sheet).isMultiCell = r.isMultiCell := rfl

@[simp] theorem Reference.isMultiCell_blank : Reference.blank.isMultiCell = false := rfl

mutual

/-- Puts references back into the blanks of a shape; those left over come back. -/
def Term.restore : Term → List Reference → Term × List Reference
  | .range r, leaves =>
    if r.isMultiCell then (.range r, leaves)
    else
      match leaves with
      | leaf :: rest => (.range leaf, rest)
      | [] => (.range r, [])
  | .call function arguments, leaves =>
    let (arguments, leaves) := Expression.restoreList arguments leaves
    (.call function arguments, leaves)
  | .group items, leaves =>
    let (items, leaves) := Expression.restoreList items leaves
    (.group items, leaves)
  | .negate operand, leaves =>
    let (operand, leaves) := operand.restore leaves
    (.negate operand, leaves)
  | t, leaves => (t, leaves)

def Expression.restore : Expression → List Reference → Expression × List Reference
  | .last t, leaves =>
    let (t, leaves) := t.restore leaves
    (.last t, leaves)
  | .link t op rest, leaves =>
    let (t, leaves) := t.restore leaves
    let (rest, leaves) := rest.restore leaves
    (.link t op rest, leaves)

def Expression.restoreList : List Expression → List Reference → List Expression × List Reference
  | [], leaves => ([], leaves)
  | e :: es, leaves =>
    let (e, leaves) := e.restore leaves
    let (es, leaves) := Expression.restoreList es leaves
    (e :: es, leaves)

end

mutual

/-- The leaves fill the blanks again, in order, and what is left over is not touched. -/
theorem Term.restore_shape (sheet : String) (t : Term) (rest : List Reference) :
    (t.shape sheet).restore (t.leaves sheet ++ rest) = (t.plain sheet, rest) := by
  match t with
  | .number .. | .text _ | .name _ | .null =>
    simp [Term.shape, Term.leaves, Term.plain, Term.restore]
  | .range r =>
    by_cases h : r.isMultiCell <;> simp [Term.shape, Term.leaves, Term.plain, Term.restore, h]
  | .call function arguments =>
    simp [Term.shape, Term.leaves, Term.plain, Term.restore,
      Expression.restoreList_shape sheet arguments rest]
  | .group items =>
    simp [Term.shape, Term.leaves, Term.plain, Term.restore,
      Expression.restoreList_shape sheet items rest]
  | .negate operand =>
    simp [Term.shape, Term.leaves, Term.plain, Term.restore, operand.restore_shape sheet rest]

theorem Expression.restore_shape (sheet : String) (e : Expression) (rest : List Reference) :
    (e.shape sheet).restore (e.leaves sheet ++ rest) = (e.plain sheet, rest) := by
  match e with
  | .last t =>
    simp [Expression.shape, Expression.leaves, Expression.plain, Expression.restore,
      t.restore_shape sheet rest]
  | .link t op e =>
    simp [Expression.shape, Expression.leaves, Expression.plain, Expression.restore,
      t.restore_shape sheet, e.restore_shape sheet rest]

/-- By induction on the list; each item takes its own leaves. -/
theorem Expression.restoreList_shape (sheet : String) (es : List Expression)
    (rest : List Reference) :
    Expression.restoreList (Expression.shapeOfList sheet es)
      (Expression.leavesOfList sheet es ++ rest) = (Expression.plainList sheet es, rest) := by
  match es with
  | [] => simp [Expression.shapeOfList, Expression.leavesOfList, Expression.plainList,
      Expression.restoreList]
  | e :: es =>
    simp [Expression.shapeOfList, Expression.leavesOfList, Expression.plainList,
      Expression.restoreList, e.restore_shape sheet, Expression.restoreList_shape sheet es rest]

end

/-- Formulas of one shape with the same leaves are equal up to marks and written out sheets. -/
theorem Formula.plain_eq_of_shape_eq {sheet : String} {f g : Formula}
    (shape : f.shape sheet = g.shape sheet) (leaves : f.leaves sheet = g.leaves sheet) :
    f.plain sheet = g.plain sheet := by
  have hf := Expression.restoreList_shape sheet f.expressions []
  have hg := Expression.restoreList_shape sheet g.expressions []
  simp only [Formula.shape, Formula.mk.injEq] at shape
  simp only [Formula.leaves] at leaves
  rw [shape, leaves, hg] at hf
  simp only [Formula.plain, Formula.mk.injEq]
  exact (Prod.mk.inj hf).1.symm

mutual

/-- A shape has a blank for each leaf. -/
theorem Term.leaves_shape (sheet : String) (t : Term) :
    (t.shape sheet).leaves sheet = (t.leaves sheet).map fun _ => Reference.blank.plain sheet := by
  match t with
  | .number .. | .text _ | .name _ | .null => simp [Term.shape, Term.leaves]
  | .range r => by_cases h : r.isMultiCell <;> simp [Term.shape, Term.leaves, h]
  | .call function arguments =>
    simp [Term.shape, Term.leaves, Expression.leavesOfList_shape sheet arguments]
  | .group items => simp [Term.shape, Term.leaves, Expression.leavesOfList_shape sheet items]
  | .negate operand => simp [Term.shape, Term.leaves, operand.leaves_shape sheet]

theorem Expression.leaves_shape (sheet : String) (e : Expression) :
    (e.shape sheet).leaves sheet = (e.leaves sheet).map fun _ => Reference.blank.plain sheet := by
  match e with
  | .last t => simp [Expression.shape, Expression.leaves, t.leaves_shape sheet]
  | .link t op e =>
    simp [Expression.shape, Expression.leaves, t.leaves_shape sheet, e.leaves_shape sheet]

theorem Expression.leavesOfList_shape (sheet : String) (es : List Expression) :
    Expression.leavesOfList sheet (Expression.shapeOfList sheet es) =
      (Expression.leavesOfList sheet es).map fun _ => Reference.blank.plain sheet := by
  match es with
  | [] => simp [Expression.shapeOfList, Expression.leavesOfList]
  | e :: es =>
    simp [Expression.shapeOfList, Expression.leavesOfList, e.leaves_shape sheet,
      Expression.leavesOfList_shape sheet es]

end

/-- Formulas of one shape have equally many leaves. -/
theorem Formula.length_leaves_eq {sheet : String} {f g : Formula}
    (shape : f.shape sheet = g.shape sheet) :
    (f.leaves sheet).length = (g.leaves sheet).length := by
  have hf := Expression.leavesOfList_shape sheet f.expressions
  have hg := Expression.leavesOfList_shape sheet g.expressions
  simp only [Formula.shape, Formula.mk.injEq] at shape
  rw [shape, hg] at hf
  simpa [Formula.leaves] using (congrArg List.length hf).symm

mutual

/-- A leaf is one cell of a sheet, without marks. -/
theorem Term.eq_cell_of_mem_leaves {sheet : String} {t : Term} {r : Reference}
    (h : r ∈ t.leaves sheet) : ∃ s row col, r = .cell s { row, col } := by
  match t with
  | .number .. | .text _ | .name _ | .null => simp [Term.leaves] at h
  | .range q =>
    by_cases hq : q.isMultiCell
    · simp [Term.leaves, hq] at h
    · simp only [Term.leaves, hq, if_false, Bool.false_eq_true, List.mem_singleton] at h
      subst h
      simp only [Reference.isMultiCell, Range.isSingle, Bool.not_eq_true', Bool.not_eq_false,
        Address.sameCell_iff] at hq
      refine ⟨q.sheet.getD sheet, q.range.first.row, q.range.first.col, ?_⟩
      simp [Reference.plain, Reference.cell, Range.unpinned, Range.single, Address.unpinned, hq]
  | .call function arguments =>
    have h : r ∈ Expression.leavesOfList sheet arguments := by simpa [Term.leaves] using h
    exact Expression.eq_cell_of_mem_leavesOfList h
  | .group items =>
    have h : r ∈ Expression.leavesOfList sheet items := by simpa [Term.leaves] using h
    exact Expression.eq_cell_of_mem_leavesOfList h
  | .negate operand =>
    exact Term.eq_cell_of_mem_leaves (t := operand) (by simpa [Term.leaves] using h)

theorem Expression.eq_cell_of_mem_leaves {sheet : String} {e : Expression} {r : Reference}
    (h : r ∈ e.leaves sheet) : ∃ s row col, r = .cell s { row, col } := by
  match e with
  | .last t => exact Term.eq_cell_of_mem_leaves (t := t) (by simpa [Expression.leaves] using h)
  | .link t op e =>
    simp only [Expression.leaves, List.mem_append] at h
    rcases h with h | h
    · exact Term.eq_cell_of_mem_leaves h
    · exact Expression.eq_cell_of_mem_leaves h

theorem Expression.eq_cell_of_mem_leavesOfList {sheet : String} {es : List Expression}
    {r : Reference} (h : r ∈ Expression.leavesOfList sheet es) :
    ∃ s row col, r = .cell s { row, col } := by
  match es with
  | [] => simp [Expression.leavesOfList] at h
  | e :: es =>
    simp only [Expression.leavesOfList, List.mem_append] at h
    rcases h with h | h
    · exact Expression.eq_cell_of_mem_leaves h
    · exact Expression.eq_cell_of_mem_leavesOfList h

end

/-! ### Filling, then substituting -/

section

variable (σ : String → Option Reference) (sheet : String)

/-- What stands for a leaf once its place was filled and names have got their values. -/
def Reference.filled : Option String → Reference → Reference
  | some n, leaf => ((σ n).map (·.plain sheet)).getD leaf
  | none, leaf => leaf

/-- Every name that is filled in has a single cell as its value. -/
def FillsCells (choices : List (Option String)) : Prop :=
  ∀ n, some n ∈ choices → ∃ r, σ n = some r ∧ r.isMultiCell = false

variable {σ} in
/-- Choices that are left over fill cells too. -/
theorem FillsCells.drop {choices : List (Option String)} (h : FillsCells σ choices) (k : Nat) :
    FillsCells σ (choices.drop k) :=
  fun n hn => h n (List.mem_of_mem_drop hn)

/-- Filling the leaves of one part after those of another. -/
theorem zipWith_filled_append {choices : List (Option String)} {left right : List Reference}
    (h : left.length ≤ choices.length) :
    List.zipWith (Reference.filled σ sheet) choices (left ++ right) =
      List.zipWith (Reference.filled σ sheet) choices left ++
        List.zipWith (Reference.filled σ sheet) (choices.drop left.length) right := by
  induction left generalizing choices with
  | nil => simp
  | cons leaf left ih =>
    match choices with
    | [] => simp at h
    | choice :: choices => simpa using ih (by simpa using h)

mutual

/-- Filling a term takes one choice for each of its leaves. -/
theorem Term.fill_snd (t : Term) (choices : List (Option String)) :
    (t.fill choices).2 = choices.drop (t.leaves sheet).length := by
  match t with
  | .number .. | .text _ | .name _ | .null => simp [Term.fill, Term.leaves]
  | .range r =>
    by_cases h : r.isMultiCell
    · simp [Term.fill, Term.leaves, h]
    · match choices with
      | [] | none :: _ | some _ :: _ => simp [Term.fill, Term.leaves, h]
  | .call function arguments => simp [Term.fill, Term.leaves, Expression.fillList_snd arguments]
  | .group items => simp [Term.fill, Term.leaves, Expression.fillList_snd items]
  | .negate operand => simp [Term.fill, Term.leaves, operand.fill_snd]

theorem Expression.fill_snd (e : Expression) (choices : List (Option String)) :
    (e.fill choices).2 = choices.drop (e.leaves sheet).length := by
  match e with
  | .last t => simp [Expression.fill, Expression.leaves, t.fill_snd]
  | .link t op e =>
    simp [Expression.fill, Expression.leaves, t.fill_snd, e.fill_snd, List.drop_drop]

theorem Expression.fillList_snd (es : List Expression) (choices : List (Option String)) :
    (Expression.fillList es choices).2 =
      choices.drop (Expression.leavesOfList sheet es).length := by
  match es with
  | [] => simp [Expression.fillList, Expression.leavesOfList]
  | e :: es =>
    simp [Expression.fillList, Expression.leavesOfList, e.fill_snd, Expression.fillList_snd es,
      List.drop_drop]

end

mutual

/-- Filled places keep the shape, and hold the values of the names filled in. -/
theorem Term.substitute_fill (t : Term) {choices : List (Option String)}
    (names : ∀ n ∈ t.names, σ n = none) (cells : FillsCells σ choices)
    (enough : (t.leaves sheet).length ≤ choices.length) :
    ((t.fill choices).1.substitute σ).shape sheet = t.shape sheet ∧
    ((t.fill choices).1.substitute σ).leaves sheet =
      List.zipWith (Reference.filled σ sheet) choices (t.leaves sheet) := by
  match t with
  | .number .. | .text _ | .null => simp [Term.fill, Term.substitute, Term.shape, Term.leaves]
  | .name n =>
    have hn : σ n = none := names n (by simp [Term.names])
    simp [Term.fill, Term.substitute, Term.shape, Term.leaves, hn]
  | .range r =>
    by_cases h : r.isMultiCell
    · simp [Term.fill, Term.substitute, Term.shape, Term.leaves, h]
    · match choices with
      | [] => simp [Term.leaves, h] at enough
      | none :: _ => simp [Term.fill, Term.substitute, Term.shape, Term.leaves, Reference.filled, h]
      | some n :: _ =>
        obtain ⟨v, hv, single⟩ := cells n (by simp)
        simp [Term.fill, Term.substitute, Term.shape, Term.leaves, Reference.filled, h, hv, single]
  | .call function arguments =>
    have ih := Expression.substitute_fillList arguments
      (by simpa [Term.names] using names) cells (by simpa [Term.leaves] using enough)
    simp [Term.fill, Term.substitute, Term.shape, Term.leaves, ih]
  | .group items =>
    have ih := Expression.substitute_fillList items
      (by simpa [Term.names] using names) cells (by simpa [Term.leaves] using enough)
    simp [Term.fill, Term.substitute, Term.shape, Term.leaves, ih]
  | .negate operand =>
    have ih := operand.substitute_fill
      (by simpa [Term.names] using names) cells (by simpa [Term.leaves] using enough)
    simp [Term.fill, Term.substitute, Term.shape, Term.leaves, ih]

/-- Both sides of an operator take their choices in turn, the right side those that the left side
leaves. -/
theorem Expression.substitute_fill (e : Expression) {choices : List (Option String)}
    (names : ∀ n ∈ e.names, σ n = none) (cells : FillsCells σ choices)
    (enough : (e.leaves sheet).length ≤ choices.length) :
    ((e.fill choices).1.substitute σ).shape sheet = e.shape sheet ∧
    ((e.fill choices).1.substitute σ).leaves sheet =
      List.zipWith (Reference.filled σ sheet) choices (e.leaves sheet) := by
  match e with
  | .last t =>
    have ih := t.substitute_fill
      (by simpa [Expression.names] using names) cells (by simpa [Expression.leaves] using enough)
    simp [Expression.fill, Expression.substitute, Expression.shape, Expression.leaves, ih]
  | .link t op e =>
    simp only [Expression.leaves, List.length_append] at enough
    have first := t.substitute_fill (fun n hn => names n (by simp [Expression.names, hn]))
      cells (by omega)
    have rest := e.substitute_fill (fun n hn => names n (by simp [Expression.names, hn]))
      (cells.drop (t.leaves sheet).length) (by simp only [List.length_drop]; omega)
    rw [← t.fill_snd sheet] at rest
    simp only [Expression.fill, Expression.substitute, Expression.shape, Expression.leaves,
      first, rest, true_and]
    rw [zipWith_filled_append σ sheet (by omega), t.fill_snd sheet]

/-- By induction on the list; each item takes the choices that those before it leave. -/
theorem Expression.substitute_fillList (es : List Expression) {choices : List (Option String)}
    (names : ∀ n ∈ Expression.namesOfList es, σ n = none) (cells : FillsCells σ choices)
    (enough : (Expression.leavesOfList sheet es).length ≤ choices.length) :
    Expression.shapeOfList sheet (Expression.substituteList σ (Expression.fillList es choices).1) =
      Expression.shapeOfList sheet es ∧
    Expression.leavesOfList sheet (Expression.substituteList σ (Expression.fillList es choices).1) =
      List.zipWith (Reference.filled σ sheet) choices (Expression.leavesOfList sheet es) := by
  match es with
  | [] =>
    simp [Expression.fillList, Expression.substituteList, Expression.shapeOfList,
      Expression.leavesOfList]
  | e :: es =>
    simp only [Expression.leavesOfList, List.length_append] at enough
    have first := e.substitute_fill (fun n hn => names n (by simp [Expression.namesOfList, hn]))
      cells (by omega)
    have rest := Expression.substitute_fillList es
      (fun n hn => names n (by simp [Expression.namesOfList, hn]))
      (cells.drop (e.leaves sheet).length) (by simp only [List.length_drop]; omega)
    rw [← e.fill_snd sheet] at rest
    simp only [Expression.fillList, Expression.substituteList, Expression.shapeOfList,
      Expression.leavesOfList, first, rest, true_and]
    rw [zipWith_filled_append σ sheet (by omega), e.fill_snd sheet]

end

/-- Filling a formula and substituting gives any formula of its shape whose leaves are the values
filled in, up to marks and written out sheets. -/
theorem Formula.plain_substitute_fill {f g : Formula} {choices : List (Option String)}
    (names : ∀ n ∈ f.names, σ n = none) (cells : FillsCells σ choices)
    (enough : (f.leaves sheet).length ≤ choices.length) (shape : f.shape sheet = g.shape sheet)
    (leaves : List.zipWith (Reference.filled σ sheet) choices (f.leaves sheet) = g.leaves sheet) :
    ((f.fill choices).substitute σ).plain sheet = g.plain sheet := by
  have filled := Expression.substitute_fillList σ sheet f.expressions names cells enough
  apply Formula.plain_eq_of_shape_eq
  · rw [← shape]
    simp only [Formula.shape, Formula.fill, Formula.substitute, filled.1]
  · rw [← leaves]
    exact filled.2

end

end SheetCompiler
