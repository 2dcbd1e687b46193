import SheetCompiler.Grid.Reference
import SheetCompiler.Path
import SheetCompiler.Python.Symbols
import SheetCompiler.Text.Case
import SheetCompiler.Text.Quoted

/-!
# Configuration

What to compile and under which names. Every setting has a default. `Config.classNames` gives the
names of the class and its file, and `Config.validate` checks what was set and reads the cells.
-/

namespace SheetCompiler

/-- A cell, or a range, with the Python name to use for it. -/
structure CellAlias where
  cell : String
  name : String
deriving DecidableEq, Repr

/-- The settings of one compilation. -/
structure Config where
  /-- The file of the workbook, which other names derive from. -/
  spreadsheet : String := ""
  /-- What the names of the generated class and file start with. -/
  start : String := "gen"
  className : Option String := none
  genClassName : Option String := none
  output : Option String := none
  /-- Sheets whose named values become parameters. -/
  inputSheets : List String := ["Inputs"]
  /-- Sheets whose named formulas become results. -/
  outputSheets : List String := ["Results"]
  /-- Sheets whose names are skipped. -/
  ignoreSheets : List String := ["Notes"]
  inputs : List CellAlias := []
  outputs : List CellAlias := []
  /-- Functions that the imports bring. -/
  globals : List String := []
  /-- New names for plain names, by the old name in increasing order. -/
  renames : List (String × String) := []
  /-- Number formats of dates. -/
  dateFormats : List String := ["dd/mm/yyyy"]
  imports : String := "from excel2py.toolkit import *\n"
  /-- How many references without a name may be followed. -/
  maxDiscoveries : Nat := 10000
  /-- Say in the header when the module was generated. -/
  timestamp : Bool := true
  commandLine : Option String := none
deriving DecidableEq, Repr

/-- What is wrong with a configuration. -/
inductive ConfigError where
  | notIdentifier (name : String)
  | keyword (name : String)
  | badCell (name : String) (cause : ReferenceError)
  | noSheet (name cell : String)
  | badRename (name identifier : String)
  | repeatedInput (name : String)
  /-- No names can be derived from a file without an extension. -/
  | noExtension (spreadsheet : String)
deriving DecidableEq, Repr

namespace ConfigError

def reason : ConfigError → String
  | notIdentifier name => s!"{Text.quoted name} is not a Python identifier"
  | keyword name => s!"{Text.quoted name} is a Python keyword"
  | badCell name cause => s!"alias {name}: {cause.message}"
  | noSheet name cell => s!"alias {name} must name the sheet of {cell}"
  | badRename name identifier => s!"rename of {name} to {Text.quoted identifier}"
  | repeatedInput name => s!"input {name} is declared twice"
  | noExtension spreadsheet =>
    s!"spreadsheet {Text.quoted spreadsheet} needs a file extension to derive class names"

def message (e : ConfigError) : String := s!"Invalid configuration: {e.reason}"

end ConfigError

/-- The names of what is generated. -/
structure ClassNames where
  /-- The class that users derive by hand. -/
  className : String
  genClassName : String
  /-- The file to write. -/
  output : String
deriving DecidableEq, Repr

/-- A cell of the configuration with its reference read. -/
structure BoundCell where
  cell : String
  name : String
  reference : Reference
deriving DecidableEq, Repr

/-- The cells of a configuration. -/
structure Bindings where
  inputs : List BoundCell
  outputs : List BoundCell
deriving DecidableEq, Repr

/-- Checks that a name can be used in Python. -/
def checkIdentifier (name : String) : Except ConfigError Unit :=
  if !Text.isIdentifier name then .error (.notIdentifier name)
  else if Python.isKeyword name then .error (.keyword name)
  else .ok ()

/-- The cell with its reference, which has to name its sheet. -/
def CellAlias.bound (a : CellAlias) : Except ConfigError BoundCell :=
  match Reference.parse a.cell with
  | .error e => .error (.badCell a.name e)
  | .ok r => if r.sheet.isNone then .error (.noSheet a.name a.cell) else .ok ⟨a.cell, a.name, r⟩

/-- Checks the name of a cell, then the cell. -/
def CellAlias.check (a : CellAlias) : Except ConfigError BoundCell := do
  checkIdentifier a.name
  a.bound

/-- The first name that stands again after itself. -/
def repeated? (seen : List String) : List String → Option String
  | [] => none
  | name :: names => if name ∈ seen then some name else repeated? (name :: seen) names

namespace Config

/-- A configuration to start from. -/
def template : Config where
  spreadsheet := "mycalc.xlsx"
  inputs := [⟨"Inputs!D6", "first_input"⟩, ⟨"Inputs!D7", "second_input"⟩]
  outputs := [⟨"Results!C5", "first_output"⟩, ⟨"Results!C6", "second_output"⟩]

/-- The name of the spreadsheet up to its first point, which has to have something
before it. -/
def baseName? (c : Config) : Option (List Char) := do
  let (base, _) ← Text.cutFirst '.' (← Path.fileName? c.spreadsheet.toList)
  if base.isEmpty then none else some base

/-- All names are given. -/
def namesGiven (c : Config) : Bool :=
  c.className.isSome && c.genClassName.isSome && c.output.isSome

/-- The file to write if none is given: beside the spreadsheet. -/
def derivedOutput (c : Config) (base : List Char) : String :=
  let file := Text.lower (c.start.toList ++ '_' :: base ++ ['.', 'p', 'y'])
  String.ofList (Path.join ((Path.parent? c.spreadsheet.toList).getD []) file)

/-- The names of class and file: those that are given, and the others derived from the name of
the spreadsheet. -/
def classNames (c : Config) : Except ConfigError ClassNames := do
  let base ← match c.baseName? with
    | some base => .ok base
    | none => if c.namesGiven then .ok [] else .error (.noExtension c.spreadsheet)
  let className := c.className.getD (String.ofList (Text.capitalize base))
  return {
    className
    genClassName := c.genClassName.getD (String.ofList (Text.capitalize c.start.toList) ++ className)
    output := c.output.getD (c.derivedOutput base) }

/-- Checks all names, and reads the cells. -/
def validate (c : Config) : Except ConfigError Bindings := do
  let inputs ← c.inputs.mapM CellAlias.check
  let outputs ← c.outputs.mapM CellAlias.check
  c.renames.forM fun (name, identifier) =>
    (checkIdentifier identifier).mapError fun _ => .badRename name identifier
  c.globals.forM checkIdentifier
  match repeated? [] (c.inputs.map (·.name)) with
  | some name => .error (.repeatedInput name)
  | none => .ok ⟨inputs, outputs⟩

def isInputSheet (c : Config) (sheet : String) : Bool := c.inputSheets.any (Text.sameLetters · sheet)

def isOutputSheet (c : Config) (sheet : String) : Bool := c.outputSheets.any (Text.sameLetters · sheet)

def isIgnoredSheet (c : Config) (sheet : String) : Bool := c.ignoreSheets.any (Text.sameLetters · sheet)

def isDateFormat (c : Config) (format : String) : Bool := format ∈ c.dateFormats

end Config

end SheetCompiler
