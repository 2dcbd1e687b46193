import SheetCompiler.Class.Section
import SheetCompiler.Text.Blank

/-!
# The generated module

A header with imports, and the class with its sections.
-/

namespace SheetCompiler

/-- What the head of a module says. -/
structure Header where
  /-- The class that users derive by hand. -/
  className : String
  /-- The generated class. -/
  genClassName : String
  generatedAt : Option String := none
  commandLine : Option String := none
  /-- Further import lines. -/
  imports : String := ""
deriving DecidableEq, Repr

namespace Header

/-- The import lines; blank ones are left out. -/
def importLines (h : Header) : List String :=
  ((Text.lines h.imports.toList).filter fun line => !(Text.trim line).isEmpty).map String.ofList

/-- A comment line, if there is something to say. -/
def remark (start : String) : Option String → String
  | some text => s!"# {start}{text}\n"
  | none => ""

def render (h : Header) : String :=
  "# WARNING: AUTOMATICALLY GENERATED CODE\n" ++
  s!"# Override this class using {h.className}\n" ++
  remark "Generated at " h.generatedAt ++
  remark "" h.commandLine ++
  "\n" ++
  "from collections import namedtuple\n" ++
  "from excel2py.excel_functions import *\n" ++
  "from excel2py.base_proforma_calc import BaseProformaCalc\n" ++
  String.join (h.importLines.map fun line => s!"{line}\n") ++
  "from excel2py.ex_datetime import ex_datetime\n" ++
  "\n\n" ++
  s!"class {h.genClassName}(BaseProformaCalc):\n"

end Header

/-- The text of the module. -/
def Sections.moduleText (s : Sections) (h : Header) : String :=
  h.render ++ String.join (SectionKind.all.map s.render)

end SheetCompiler
