import SheetCompiler.Assoc
import SheetCompiler.Workbook.DefinedName
import SheetCompiler.Workbook.Value

/-!
# Workbooks

Sheets of cells, and defined names. Sheet names differ by more than the case of their letters,
and every look-up ignores case (`sheet?`). A cell holds a formula or a value, and a number
format; setting one of the first two clears the other.

An edit is made in steps on the workbook in place (`Edit.steps`): checks, and writes that stay even
if a later step fails. `Workbook.edit` gives the answer of an edit with the workbook after it, and
`addSheet` and its like give the workbook if the edit succeeds.
-/

namespace SheetCompiler

/-- Longest sheet name, in characters. -/
def maxSheetName : Nat := 31

/-- Why a workbook refuses an edit. -/
inductive WorkbookError where
  | address (cause : AddressError)
  | sheetNotFound (name : String)
  | emptySheetName
  | longSheetName
  | badSheetChar (c : Char)
  | sheetTaken (name : String)
  /-- A formula that does not start with `=`. -/
  | noFormula (sheet cell formula : String)
  | nameTaken (name : String)
deriving DecidableEq, Repr

def WorkbookError.message : WorkbookError → String
  | address cause => cause.message
  | sheetNotFound name => s!"Sheet not found: {name}"
  | emptySheetName => "Invalid sheet name: Sheet name cannot be empty"
  | longSheetName => s!"Invalid sheet name: Sheet name too long (max {maxSheetName} characters)"
  | badSheetChar c => s!"Invalid sheet name: Sheet name cannot contain '{c}'"
  | sheetTaken name => s!"Sheet name already exists: {name}"
  | noFormula sheet cell formula =>
    s!"formula for {sheet}!{cell} must start with '=': {formula}"
  | nameTaken name => s!"Invalid defined name: '{name}' already exists in this scope"

/-- What one cell holds. -/
structure Cell where
  formula : Option String := none
  value : CellValue := .empty
  format : Option String := none

/-- A sheet: its name and its cells by row and column. -/
structure Sheet where
  name : String
  cells : List ((Nat × Nat) × Cell) := []

structure Workbook where
  sheets : List Sheet := []
  names : List DefinedName := []

namespace Sheet

/-- The cell at a row and column. -/
def cell? (s : Sheet) (a : Address) : Option Cell := Assoc.find? (a.row, a.col) s.cells

def setCell (s : Sheet) (a : Address) (c : Cell) : Sheet :=
  { s with cells := Assoc.insert (a.row, a.col) c s.cells }

def modifyCell (s : Sheet) (a : Address) (f : Cell → Cell) : Sheet :=
  s.setCell a (f ((s.cell? a).getD {}))

end Sheet

namespace Workbook

/-- The sheet of a name, whatever the case of its letters. -/
def sheet? (w : Workbook) (name : String) : Option Sheet :=
  w.sheets.find? fun s => Text.sameLetters s.name name

def hasSheet (w : Workbook) (name : String) : Bool := (w.sheet? name).isSome

def sheetNames (w : Workbook) : List String := w.sheets.map (·.name)

def isForbidden (c : Char) : Bool := c ∈ [':', '\\', '/', '?', '*', '[', ']']

/-- Checks a name for a new sheet. -/
def checkSheetName (w : Workbook) (name : String) : Except WorkbookError Unit :=
  if name.toList.isEmpty then .error .emptySheetName
  else if maxSheetName < name.toList.length then .error .longSheetName
  else
    match name.toList.find? isForbidden with
    | some c => .error (.badSheetChar c)
    | none => if w.hasSheet name then .error (.sheetTaken name) else .ok ()

/-- Changes the first sheet of a name. -/
def modifySheets (name : String) (f : Sheet → Sheet) : List Sheet → List Sheet
  | [] => []
  | s :: rest =>
    if Text.sameLetters s.name name then f s :: rest else s :: modifySheets name f rest

/-- The text starts with `=`, blanks apart. -/
def isFormula (s : String) : Bool := (Text.trimLeft s.toList).head? == some '='

/-- Both names are spelled alike and have one scope. -/
def clash (a b : DefinedName) : Bool :=
  a.localSheet == b.localSheet && Text.sameLetters a.name b.name

end Workbook

/-- Steps on a workbook in place. What was written before a step fails stays written. -/
abbrev Editing := ExceptT WorkbookError (StateM Workbook)

namespace Editing

/-- Adds an empty sheet at the end. -/
def addSheet (name : String) : Editing Unit := do
  (← get).checkSheetName name
  modify fun w => { w with sheets := w.sheets ++ [{ name }] }

/-- Changes the sheet of a name. -/
def modifySheet (name : String) (f : Sheet → Sheet) : Editing Unit := do
  if !(← get).hasSheet name then throw (.sheetNotFound name)
  modify fun w => { w with sheets := Workbook.modifySheets name f w.sheets }

/-- Reads an address, and makes sure that there is a cell: one not set before is empty. -/
def entry (sheet address : String) : Editing Address := do
  let a ← (Address.parse address).mapError WorkbookError.address
  modifySheet sheet fun s => s.modifyCell a id
  return a

/-- Changes the cell at an address given as text. -/
def modifyCell (sheet address : String) (f : Cell → Cell) : Editing Unit := do
  let a ← entry sheet address
  modify fun w => { w with sheets := Workbook.modifySheets sheet (·.modifyCell a f) w.sheets }

/-- Adds a defined name; a scope has one name of a spelling. -/
def defineName (d : DefinedName) : Editing Unit := do
  if (← get).names.any (Workbook.clash · d) then throw (.nameTaken d.name)
  modify fun w => { w with names := w.names ++ [d] }

end Editing

/-- What can be done to a workbook. -/
inductive Edit where
  | addSheet (name : String)
  /-- Stores a value; the cell has no formula any more. -/
  | setValue (sheet address : String) (value : CellValue)
  /-- Stores a formula; the cell has no value any more. -/
  | setFormula (sheet address formula : String)
  /-- Stores a number format. -/
  | setFormat (sheet address format : String)
  | defineName (d : DefinedName)

def Edit.steps : Edit → Editing Unit
  | addSheet name => Editing.addSheet name
  | setValue sheet address value =>
    Editing.modifyCell sheet address fun c => { c with formula := none, value }
  | setFormula sheet address formula => do
    if !Workbook.isFormula formula then throw (.noFormula sheet address formula)
    Editing.modifyCell sheet address fun c => { c with formula := some formula, value := .empty }
  | setFormat sheet address format =>
    Editing.modifyCell sheet address fun c => { c with format := some format }
  | defineName d => Editing.defineName d

namespace Workbook

/-- What steps answer, and the workbook after them. -/
def perform {α : Type} (w : Workbook) (steps : Editing α) : Except WorkbookError α × Workbook :=
  (steps.run.run w).run

/-- The workbook after steps that succeed. -/
def after {α : Type} (w : Workbook) (steps : Editing α) : Except WorkbookError Workbook :=
  let (answer, w) := w.perform steps
  answer.map fun _ => w

/-- The answer of an edit, and the workbook after it. -/
def edit (w : Workbook) (e : Edit) : Except WorkbookError Unit × Workbook := w.perform e.steps

def addSheet (w : Workbook) (name : String) : Except WorkbookError Workbook :=
  w.after (Edit.addSheet name).steps

def setValue (w : Workbook) (sheet address : String) (value : CellValue) :
    Except WorkbookError Workbook :=
  w.after (Edit.setValue sheet address value).steps

def setFormula (w : Workbook) (sheet address formula : String) : Except WorkbookError Workbook :=
  w.after (Edit.setFormula sheet address formula).steps

def setFormat (w : Workbook) (sheet address format : String) : Except WorkbookError Workbook :=
  w.after (Edit.setFormat sheet address format).steps

def defineName (w : Workbook) (d : DefinedName) : Except WorkbookError Workbook :=
  w.after (Edit.defineName d).steps

def cell? (w : Workbook) (sheet : String) (a : Address) : Option Cell :=
  (w.sheet? sheet).bind (·.cell? a)

/-- The formula of a cell, with its `=`. -/
def formula? (w : Workbook) (sheet : String) (a : Address) : Option String :=
  (w.cell? sheet a).bind (·.formula)

/-- The value of a cell; a formula hides it. -/
def value (w : Workbook) (sheet : String) (a : Address) : CellValue :=
  match w.cell? sheet a with
  | some c => if c.formula.isNone then c.value else .empty
  | none => .empty

/-- The number format of a cell, `General` if it has none of its own. -/
def format (w : Workbook) (sheet : String) (a : Address) : String :=
  ((w.cell? sheet a).bind (·.format)).getD "General"

/-- The formulas of a range, row by row. -/
def formulasIn (w : Workbook) (sheet : String) (r : Range) : List (List (Option String)) :=
  r.rows.map fun row => row.map (w.formula? sheet)

/-- The values of a range, row by row. -/
def valuesIn (w : Workbook) (sheet : String) (r : Range) : List (List CellValue) :=
  r.rows.map fun row => row.map (w.value sheet)

end Workbook

end SheetCompiler
