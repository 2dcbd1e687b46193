import SheetCompiler.Formula.Basic

/-!
# The shape of a formula

A formula splits into its references to single cells, in written order (`leaves`), and what is
left when those are blanked out (`shape`). References to ranges stay in the shape. In both, sheets
are written out and marks are dropped. `fill` puts names in place of chosen leaves.
-/

namespace SheetCompiler

/-- The reference on its own or the given sheet, without marks. -/
def Reference.plain (sheet : String) (r : Reference) : Reference :=
  ⟨some (r.sheet.getD sheet), r.range.unpinned⟩

/-- What stands for a blanked out cell. -/
def Reference.blank : Reference := ⟨none, .single { row := 0, col := 0 }⟩

mutual

/-- The single cells that a term refers to, in written order. -/
def Term.leaves (sheet : String) : Term → List Reference
  | .range r => if r.isMultiCell then [] else [r.plain sheet]
  | .call _ arguments => Expression.leavesOfList sheet arguments
  | .group items => Expression.leavesOfList sheet items
  | .negate operand => operand.leaves sheet
  | _ => []

def Expression.leaves (sheet : String) : Expression → List Reference
  | .last t => t.leaves sheet
  | .link t _ rest => t.leaves sheet ++ rest.leaves sheet

def Expression.leavesOfList (sheet : String) : List Expression → List Reference
  | [] => []
  | e :: es => e.leaves sheet ++ Expression.leavesOfList sheet es

end

mutual

/-- The term with its single cells blanked out. -/
def Term.shape (sheet : String) : Term → Term
  | .range r => .range (if r.isMultiCell then r.plain sheet else .blank)
  | .call function arguments => .call function (Expression.shapeOfList sheet arguments)
  | .group items => .group (Expression.shapeOfList sheet items)
  | .negate operand => .negate (operand.shape sheet)
  | t => t

def Expression.shape (sheet : String) : Expression → Expression
  | .last t => .last (t.shape sheet)
  | .link t op rest => .link (t.shape sheet) op (rest.shape sheet)

def Expression.shapeOfList (sheet : String) : List Expression → List Expression
  | [] => []
  | e :: es => e.shape sheet :: Expression.shapeOfList sheet es

end

mutual

/-- Takes one choice for each single cell: a name to put in its place, or none to leave it. The
choices left over come back. -/
def Term.fill : Term → List (Option String) → Term × List (Option String)
  | .range r, choices =>
    if r.isMultiCell then (.range r, choices)
    else
      match choices with
      | some name :: rest => (.name name, rest)
      | none :: rest => (.range r, rest)
      | [] => (.range r, [])
  | .call function arguments, choices =>
    let (arguments, choices) := Expression.fillList arguments choices
    (.call function arguments, choices)
  | .group items, choices =>
    let (items, choices) := Expression.fillList items choices
    (.group items, choices)
  | .negate operand, choices =>
    let (operand, choices) := operand.fill choices
    (.negate operand, choices)
  | t, choices => (t, choices)

def Expression.fill : Expression → List (Option String) → Expression × List (Option String)
  | .last t, choices =>
    let (t, choices) := t.fill choices
    (.last t, choices)
  | .link t op rest, choices =>
    let (t, choices) := t.fill choices
    let (rest, choices) := rest.fill choices
    (.link t op rest, choices)

def Expression.fillList :
    List Expression → List (Option String) → List Expression × List (Option String)
  | [], choices => ([], choices)
  | e :: es, choices =>
    let (e, choices) := e.fill choices
    let (es, choices) := Expression.fillList es choices
    (e :: es, choices)

end

namespace Formula

/-- The single cells that a formula refers to, in written order. -/
def leaves (sheet : String) (f : Formula) : List Reference :=
  Expression.leavesOfList sheet f.expressions

/-- The formula with its single cells blanked out. -/
def shape (sheet : String) (f : Formula) : Formula :=
  ⟨Expression.shapeOfList sheet f.expressions⟩

/-- The formula with names in place of the chosen single cells. -/
def fill (f : Formula) (choices : List (Option String)) : Formula :=
  ⟨(Expression.fillList f.expressions choices).1⟩

end Formula

end SheetCompiler
