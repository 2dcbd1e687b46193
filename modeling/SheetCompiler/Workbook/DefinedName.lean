import SheetCompiler.Grid.Reference

/-!
# Defined names

A name that a workbook gives to cells or to a formula, workbook-wide or local to one sheet. What
it refers to is kept as written; `reference?` reads it where it is a plain reference.
-/

namespace SheetCompiler

structure DefinedName where
  name : String
  refersTo : String
  localSheet : Option String := none
deriving DecidableEq, Repr

namespace DefinedName

/-- What the name refers to, without the leading `=`. -/
def expressionChars (d : DefinedName) : List Char :=
  Text.trim (Text.dropMark '=' d.refersTo.toList)

/-- What the name refers to, without the leading `=`. -/
def expression (d : DefinedName) : String := String.ofList d.expressionChars

/-- The cells that the name refers to; those without a sheet lie on the name's own sheet. -/
def reference? (d : DefinedName) : Option Reference :=
  match Reference.ofChars d.expressionChars, d.localSheet with
  | .ok r, some sheet => some (r.qualified sheet)
  | .ok r, none => some r
  | .error _, _ => none

/-- The spreadsheet itself could not resolve the name. -/
def isUnresolved (d : DefinedName) : Bool := d.expression == "#NAME?"

/-- The name points at deleted cells. -/
def isBroken (d : DefinedName) : Bool := Text.occursIn "#REF!".toList d.refersTo.toList

/-- The name after the last `!` and without the mark of names the spreadsheet keeps for itself. -/
def baseChars (d : DefinedName) : List Char :=
  let own := match Text.cutLast '!' d.name.toList with
    | some (_, after) => after
    | none => d.name.toList
  if "_xlnm.".toList.isPrefixOf own then own.drop 6 else own

/-- Print areas and titles, which the spreadsheet defines for itself. -/
def isBuiltin (d : DefinedName) : Bool :=
  d.baseChars == "Print_Area".toList || d.baseChars == "Print_Titles".toList

end DefinedName

end SheetCompiler
