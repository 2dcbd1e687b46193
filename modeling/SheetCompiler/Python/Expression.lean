import SheetCompiler.AliasTable
import SheetCompiler.Formula.Parser
import SheetCompiler.Python.Literal
import SheetCompiler.Python.Symbols

/-!
# Formulas as Python expressions

References become attributes named by the alias table, global names stay bare, and operators take
Python's spelling. The chain of an expression is written as it stands. The table is handed from
operand to operand in written order, since a reference met for the first time changes it.
-/

namespace SheetCompiler

/-- The operator as Python writes it. -/
def Operator.python : Operator → String
  | equal => " == "
  | power => "**"
  | concat => " + "
  | notEqual => " != "
  | op => op.symbol

namespace Python

/-- What the names of a formula mean. -/
structure Scope where
  symbols : Symbols := {}
  /-- The sheet of references that name none. -/
  sheet : Option String := none
  /-- Loop variables. -/
  locals : List String := []

namespace Scope

/-- A plain name: a loop variable, a truth value, a global or an attribute. -/
def name (scope : Scope) (t : AliasTable) (name : String) : String :=
  if scope.locals.contains name then name
  else
    let renamed := t.rename name
    if renamed = "TRUE" then "True"
    else if renamed = "FALSE" then "False"
    else scope.symbols.qualify renamed

mutual

/-- Writes a term, with the table after it. -/
def term (scope : Scope) : Term → AliasTable → String × AliasTable
  | .number digits percent, t => (numberLiteral digits percent, t)
  | .text content, t => (stringLiteral content, t)
  | .name n, t => (scope.name t n, t)
  | .range r, t =>
    let (identifier, t) := t.resolve r scope.sheet
    (scope.symbols.qualify identifier, t)
  | .call function [], t =>
    if function = "TRUE" ∨ function = "FALSE" then (scope.name t function, t)
    else (scope.name t function ++ "()", t)
  | .call function arguments, t =>
    let written := scope.name t function
    let (items, t) := scope.list arguments t
    (written ++ "(" ++ Text.joined ", " items ++ ")", t)
  | .group items, t =>
    let (items, t) := scope.list items t
    ("(" ++ Text.joined ", " items ++ ")", t)
  | .null, t => ("None", t)
  | .negate operand, t =>
    let (written, t) := scope.term operand t
    ("-" ++ written, t)

/-- Writes a chain. -/
def expression (scope : Scope) : Expression → AliasTable → String × AliasTable
  | .last operand, t => scope.term operand t
  | .link operand op rest, t =>
    let (first, t) := scope.term operand t
    let (rest, t) := scope.expression rest t
    (first ++ op.python ++ rest, t)

/-- Writes expressions one after the other. -/
def list (scope : Scope) : List Expression → AliasTable → List String × AliasTable
  | [], t => ([], t)
  | e :: es, t =>
    let (first, t) := scope.expression e t
    let (rest, t) := scope.list es t
    (first :: rest, t)

end

/-- Writes a formula; several expressions have blanks between them. -/
def formula (scope : Scope) (f : Formula) (t : AliasTable) : String × AliasTable :=
  let (items, t) := scope.list f.expressions t
  (Text.joined " " items, t)

/-- Writes a formula given as text, with or without its `=`. -/
def formulaText (scope : Scope) (s : String) (t : AliasTable) :
    Except FormulaError (String × AliasTable) := do
  let f ← Formula.parseAny s
  return scope.formula f t

end Scope

end Python

end SheetCompiler
