import SheetCompiler.Config.Basic
import SheetCompiler.Json.Reader
import SheetCompiler.Json.Record
import SheetCompiler.Json.Writer

/-!
# Configuration documents

The JSON form of a configuration: a record of all settings. Those that are missing take their
defaults, and those that are not set are not written.
-/

namespace SheetCompiler

namespace CellAlias

def ofJson? (j : Json) : Option CellAlias := do
  let [cell, name] ← j.record? ["cell", "name"] | none
  return ⟨← Json.required Json.text? cell, ← Json.required Json.text? name⟩

def toJson (a : CellAlias) : Json := .ofMembers [("cell", .ofText a.cell), ("name", .ofText a.name)]

end CellAlias

namespace Config

/-- The settings in the order they are written. -/
def fields : List String := [
  "spreadsheet", "prefix", "class_name", "gen_class_name", "output", "input_sheets",
  "output_sheets", "ignore_sheets", "inputs", "outputs", "globals", "name_aliases",
  "valid_date_formats", "imports", "max_discoveries", "timestamp", "command_line"]

def ofJson? (j : Json) : Option Config := do
  let [spreadsheet, start, className, genClassName, output, inputSheets, outputSheets,
    ignoreSheets, inputs, outputs, globals, renames, dateFormats, imports, maxDiscoveries,
    timestamp, commandLine] ← j.record? fields | none
  let d : Config := {}
  let texts := Json.withDefault (Json.list? Json.text?)
  let optionalText := Json.withDefault (Json.optional? Json.text?)
  return {
    spreadsheet := ← Json.withDefault Json.text? d.spreadsheet spreadsheet
    start := ← Json.withDefault Json.text? d.start start
    className := ← optionalText d.className className
    genClassName := ← optionalText d.genClassName genClassName
    output := ← optionalText d.output output
    inputSheets := ← texts d.inputSheets inputSheets
    outputSheets := ← texts d.outputSheets outputSheets
    ignoreSheets := ← texts d.ignoreSheets ignoreSheets
    inputs := ← Json.withDefault (Json.list? CellAlias.ofJson?) d.inputs inputs
    outputs := ← Json.withDefault (Json.list? CellAlias.ofJson?) d.outputs outputs
    globals := ← texts d.globals globals
    renames := ← Json.withDefault (Json.map? Json.text?) d.renames renames
    dateFormats := ← texts d.dateFormats dateFormats
    imports := ← Json.withDefault Json.text? d.imports imports
    maxDiscoveries := ← Json.withDefault Json.natural? d.maxDiscoveries maxDiscoveries
    timestamp := ← Json.withDefault Json.bool? d.timestamp timestamp
    commandLine := ← optionalText d.commandLine commandLine }

/-- Reads a configuration. -/
def parse (s : String) : Option Config := (Json.parse s).bind ofJson?

def textsToJson (texts : List String) : Json := .array (texts.map .ofText)

/-- A setting that is written only if it is set. -/
def optionalSetting (key : String) : Option String → List (String × Json)
  | some s => [(key, .ofText s)]
  | none => []

def toJson (c : Config) : Json :=
  .ofMembers <|
    [("spreadsheet", .ofText c.spreadsheet), ("prefix", .ofText c.start)] ++
    optionalSetting "class_name" c.className ++
    optionalSetting "gen_class_name" c.genClassName ++
    optionalSetting "output" c.output ++
    [("input_sheets", textsToJson c.inputSheets), ("output_sheets", textsToJson c.outputSheets),
      ("ignore_sheets", textsToJson c.ignoreSheets),
      ("inputs", .array (c.inputs.map CellAlias.toJson)),
      ("outputs", .array (c.outputs.map CellAlias.toJson)),
      ("globals", textsToJson c.globals),
      ("name_aliases", .ofMembers (c.renames.map fun (name, identifier) => (name, .ofText identifier))),
      ("valid_date_formats", textsToJson c.dateFormats), ("imports", .ofText c.imports),
      ("max_discoveries", .ofNat c.maxDiscoveries), ("timestamp", .bool c.timestamp)] ++
    optionalSetting "command_line" c.commandLine

/-- The configuration as text. -/
def text (c : Config) : String := c.toJson.prettyText

end Config

end SheetCompiler
