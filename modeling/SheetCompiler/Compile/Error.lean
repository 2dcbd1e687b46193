import SheetCompiler.Formula.Parser
import SheetCompiler.Grid.Reference

/-!
# Problems of a compilation

Errors keep the module from being written. Warnings are listed in it as comments.
-/

namespace SheetCompiler

/-- Most cells that are read for one name. -/
def maxRegionCells : Nat := 1000000

/-- Why the cells of a reference cannot be read. -/
inductive RegionError where
  /-- The text is no reference. -/
  | reference (cause : ReferenceError)
  | noSheet (r : Reference)
  | sheetNotFound (sheet : String)
  | tooLarge (r : Reference)
deriving DecidableEq, Repr

def RegionError.message : RegionError → String
  | reference cause => cause.message
  | noSheet r => s!"Invalid reference: {r.text} names no sheet"
  | sheetNotFound sheet => s!"Sheet not found: {sheet}"
  | tooLarge r => s!"Invalid cell range: {r.text} spans more than {maxRegionCells} cells"

/-- What keeps a module from being written. -/
inductive CompileError where
  /-- The formula of a name, found at a location, cannot be read. -/
  | formula (name location : String) (cause : FormulaError)
  /-- More references turned up than may be followed. -/
  | unsettled (limit pending : Nat)
  | region (name : String) (cause : RegionError)
deriving DecidableEq, Repr

def CompileError.message : CompileError → String
  | formula name location cause =>
    s!"Cannot parse the formula of {name} at {location}: {cause.message}"
  | unsettled limit pending =>
    s!"Reference discovery did not settle after {limit} references ({pending} still pending)"
  | region name cause => s!"Workbook error for {name}: {cause.message}"

/-- A name that no section takes. -/
structure Unclassified where
  name : String
  reason : String
deriving DecidableEq, Repr

def Unclassified.message (u : Unclassified) : String :=
  s!"No section accepts {u.name}: {u.reason}"

end SheetCompiler
