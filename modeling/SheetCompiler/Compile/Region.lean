import SheetCompiler.Compile.Error
import SheetCompiler.Config.Basic
import SheetCompiler.Python.Literal
import SheetCompiler.Workbook.Basic

/-!
# Regions

The cells behind a reference, read from a workbook.
-/

namespace SheetCompiler

/-- A cell as it is read. -/
structure RegionCell where
  address : Address
  formula : Option String
  value : CellValue
  format : String

/-- The cells of a range. -/
structure Region where
  sheet : String
  /-- The upper left cell. -/
  origin : Address
  /-- The cells, row by row. -/
  rows : List (List RegionCell)

/-- The value in Python, whatever its format is. -/
def RegionCell.plainLiteral (cell : RegionCell) : String := Python.valueLiteral false cell.value

/-- The value in Python; a number with the format of a date is a date. -/
def RegionCell.literal (c : Config) (cell : RegionCell) : String :=
  Python.valueLiteral (c.isDateFormat cell.format) cell.value

namespace Region

def hasFormula (g : Region) : Bool := g.rows.any (·.any (·.formula.isSome))

def hasValue (g : Region) : Bool := g.rows.any (·.any fun cell => !cell.value.isEmpty)

/-- The formulas, if every cell has one. -/
def formulas? (g : Region) : Option (List (List String)) :=
  g.rows.mapM fun row => row.mapM (·.formula)

/-- The values in Python: that of a single cell, or a tuple of rows. -/
def literal (c : Config) (g : Region) : String :=
  match g.rows with
  | [[cell]] => cell.literal c
  | rows => Python.tuple (rows.map fun row => Python.tuple (row.map (·.literal c)))

end Region

namespace Workbook

def regionCell (w : Workbook) (sheet : String) (a : Address) : RegionCell where
  address := a
  formula := w.formula? sheet a
  value := w.value sheet a
  format := w.format sheet a

/-- Reads the cells of a reference. -/
def region (w : Workbook) (r : Reference) : Except RegionError Region :=
  match r.sheet with
  | none => .error (.noSheet r)
  | some sheet =>
    if !w.hasSheet sheet then .error (.sheetNotFound sheet)
    else if maxRegionCells < r.range.cellCount then .error (.tooLarge r)
    else .ok ⟨sheet, r.range.first, r.range.rows.map fun row => row.map (w.regionCell sheet)⟩

end Workbook

end SheetCompiler
