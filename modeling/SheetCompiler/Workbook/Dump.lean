import SheetCompiler.Json.Reader
import SheetCompiler.Workbook.Basic

/-!
# Workbook dumps

The JSON form of a workbook: sheets and their cells by name and address, in increasing order of
the keys, and the defined names. `Workbook.ofDump` reads it in that order, so of several
spellings of one address the last counts; `Workbook.toDump` writes addresses without marks.
-/

namespace SheetCompiler

/-- Sheets by name, cells by address, both in increasing order; and the defined names. -/
structure Dump where
  sheets : List (String × List (String × Cell)) := []
  names : List DefinedName := []

namespace Dump

def cellOfJson? (j : Json) : Option Cell := do
  let [formula, value, format] ← j.record? ["formula", "value", "format"] | none
  return {
    formula := ← Json.withDefault (Json.optional? Json.text?) none formula
    value := ← Json.withDefault (CellValue.ofJson? 4) .empty value
    format := ← Json.withDefault (Json.optional? Json.text?) none format }

def nameOfJson? (j : Json) : Option DefinedName := do
  let [name, refersTo, localSheet] ← j.record? ["name", "refers_to", "local_sheet"] | none
  return {
    name := ← Json.required Json.text? name
    refersTo := ← Json.required Json.text? refersTo
    localSheet := ← Json.withDefault (Json.optional? Json.text?) none localSheet }

def ofJson? (j : Json) : Option Dump := do
  let [sheets, names] ← j.record? ["sheets", "names"] | none
  return {
    sheets := ← Json.withDefault (Json.map? (Json.map? cellOfJson?)) [] sheets
    names := ← Json.withDefault (Json.list? nameOfJson?) [] names }

/-- Reads a dump. -/
def parse (s : String) : Option Dump := (Json.parse s).bind ofJson?

/-- A member that is left out when there is nothing to write. -/
def optionalMember (key : String) : Option String → List (String × Json)
  | some s => [(key, .ofText s)]
  | none => []

def cellToJson (c : Cell) : Json :=
  .ofMembers <| optionalMember "formula" c.formula ++
    (if c.value.isEmpty then [] else [("value", c.value.toJson)]) ++
    optionalMember "format" c.format

def nameToJson (d : DefinedName) : Json :=
  .ofMembers <| [("name", .ofText d.name), ("refers_to", .ofText d.refersTo)] ++
    optionalMember "local_sheet" d.localSheet

def cellsToJson (cells : List (String × Cell)) : Json :=
  .ofMembers (cells.map fun (address, c) => (address, cellToJson c))

def toJson (d : Dump) : Json :=
  .ofMembers [
    ("sheets", .ofMembers (d.sheets.map fun (name, cells) => (name, cellsToJson cells))),
    ("names", .array (d.names.map nameToJson))]

/-- The dump as text. -/
def text (d : Dump) : String := d.toJson.compactText

end Dump

namespace Workbook

/-- Puts a cell at an address given as text. -/
def putCell (w : Workbook) (sheet : String) (entry : String × Cell) : Except WorkbookError Workbook := do
  let a ← (Address.parse entry.1).mapError .address
  w.after (Editing.modifySheet sheet fun s => s.setCell a entry.2)

/-- Adds a sheet with its cells. -/
def putSheet (w : Workbook) (entry : String × List (String × Cell)) :
    Except WorkbookError Workbook := do
  let w ← w.addSheet entry.1
  entry.2.foldlM (fun w cell => w.putCell entry.1 cell) w

/-- The workbook that a dump describes. -/
def ofDump (d : Dump) : Except WorkbookError Workbook := do
  let w ← d.sheets.foldlM putSheet {}
  d.names.foldlM defineName w

/-- The cells of a sheet by address, in increasing order. -/
def dumpCells (s : Sheet) : List (String × Cell) :=
  s.cells.foldl (fun m ((row, col), c) => Json.insertKey (Address.text { row, col }) c m) []

/-- The dump of a workbook. -/
def toDump (w : Workbook) : Dump where
  sheets := w.sheets.foldl (fun m s => Json.insertKey s.name (dumpCells s) m) []
  names := w.names

end Workbook

/-- Why a text is no workbook. -/
inductive LoadError where
  /-- The text is no dump. -/
  | unreadable
  | workbook (cause : WorkbookError)
deriving DecidableEq, Repr

/-- Reads a workbook from its dump. -/
def Workbook.load (s : String) : Except LoadError Workbook :=
  match Dump.parse s with
  | none => .error .unreadable
  | some d => (ofDump d).mapError .workbook

end SheetCompiler
