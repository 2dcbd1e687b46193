import SheetCompiler.Config.Document
import SheetCompiler.Proofs.Json.Records

/-!
# Configurations are read back

The text of a configuration is read as the configuration (`Config.parse_text_eq`): no setting that is
left out of the text has another default than to be left out, and the others are all written, empty
lists too.
-/

namespace SheetCompiler

open Json

namespace CellAlias

theorem toJson_eq (a : CellAlias) : a.toJson =
    .ofMembers (present ["cell", "name"] [some (.ofText a.cell), some (.ofText a.name)]) := rfl

/-- A cell with its name is read back. -/
theorem survives (a : CellAlias) : Survives toJson ofJson? a := by
  refine survives_record a.toJson_eq ?_ ?_
  · simp only [List.forall_mem_cons]
    exact ⟨(survives_text _).proper_field, (survives_text _).proper_field, List.forall_mem_nil _⟩
  · exact read_then (record?_present (by decide) rfl) <| read_then (text?_ofText _) <|
      read_then (text?_ofText _) rfl

end CellAlias

namespace Config

/-- The settings as they are written. -/
def settings (c : Config) : List (Option Json) := [
  some (.ofText c.spreadsheet), some (.ofText c.start), c.className.map .ofText,
  c.genClassName.map .ofText, c.output.map .ofText, some (textsToJson c.inputSheets),
  some (textsToJson c.outputSheets), some (textsToJson c.ignoreSheets),
  some (.array (c.inputs.map CellAlias.toJson)), some (.array (c.outputs.map CellAlias.toJson)),
  some (textsToJson c.globals),
  some (.ofMembers (c.renames.map fun entry => (entry.1, .ofText entry.2))),
  some (textsToJson c.dateFormats), some (.ofText c.imports), some (.ofNat c.maxDiscoveries),
  some (.bool c.timestamp), c.commandLine.map .ofText]

theorem toJson_eq (c : Config) : c.toJson = .ofMembers (present fields c.settings) := by
  rcases c with ⟨_, _, _ | _, _ | _, _ | _, _, _, _, _, _, _, _, _, _, _, _, _ | _⟩ <;> rfl

theorem survives_texts (texts : List String) : Survives textsToJson (list? text?) texts :=
  survives_list fun s _ => survives_text s

theorem survives_aliases (aliases : List CellAlias) :
    Survives (fun aliases => .array (aliases.map CellAlias.toJson)) (list? CellAlias.ofJson?) aliases :=
  survives_list fun a _ => a.survives

/-- Setting by setting, in the order of the fields; what is left out is read as its default, which
is to be left out. -/
theorem survives {c : Config} (sorted : c.renames.Pairwise (·.1 < ·.1))
    (fits : c.maxDiscoveries < 2 ^ 64) : Survives toJson ofJson? c := by
  have renames := survives_map sorted fun entry _ => survives_text entry.2
  have discoveries := survives_nat fits
  refine survives_record c.toJson_eq ?_ ?_
  · simp only [settings, List.forall_mem_cons]
    exact ⟨(survives_text _).proper_field, (survives_text _).proper_field, proper_optionalText _,
      proper_optionalText _, proper_optionalText _, (survives_texts _).proper_field,
      (survives_texts _).proper_field, (survives_texts _).proper_field,
      (survives_aliases _).proper_field, (survives_aliases _).proper_field,
      (survives_texts _).proper_field, renames.proper_field, (survives_texts _).proper_field,
      (survives_text _).proper_field, discoveries.proper_field, (survives_bool _).proper_field,
      proper_optionalText _, List.forall_mem_nil _⟩
  · exact read_then (record?_present (by decide) rfl) <| read_then (text?_ofText _) <|
      read_then (text?_ofText _) <| read_then (read_optionalText _) <|
      read_then (read_optionalText _) <| read_then (read_optionalText _) <|
      read_then (survives_texts _).read_write <| read_then (survives_texts _).read_write <|
      read_then (survives_texts _).read_write <| read_then (survives_aliases _).read_write <|
      read_then (survives_aliases _).read_write <| read_then (survives_texts _).read_write <|
      read_then renames.read_write <| read_then (survives_texts _).read_write <|
      read_then (text?_ofText _) <| read_then discoveries.read_write <|
      read_then (survives_bool _).read_write <| read_then (read_optionalText _) rfl

/-- The text of a configuration is read as the configuration. -/
theorem parse_text_eq {c : Config} (sorted : c.renames.Pairwise (·.1 < ·.1))
    (fits : c.maxDiscoveries < 2 ^ 64) : parse c.text = some c :=
  (survives sorted fits).parse_prettyText

/-- Lists that are empty although their defaults are not, texts with signs that have to be escaped,
and the largest number. -/
def bare : Config where
  spreadsheet := "C:\\plans \"öre\"\t\x01.xlsx"
  genClassName := some ""
  inputSheets := []
  ignoreSheets := ["\n", "😀"]
  outputs := [⟨"A!B1", "x"⟩]
  renames := [("", "a"), ("\"", "b"), ("Ω", "c")]
  dateFormats := []
  maxDiscoveries := 18446744073709551615
  timestamp := false

/-- Empty lists are not taken for defaults, and the largest number fits. -/
theorem parse_text_eq_bare :
    bare.renames.Pairwise (·.1 < ·.1) ∧ bare.maxDiscoveries < 2 ^ 64 ∧ parse bare.text = some bare :=
  have sorted : bare.renames.Pairwise (·.1 < ·.1) := by decide +kernel
  have fits : bare.maxDiscoveries < 2 ^ 64 := by decide
  ⟨sorted, fits, parse_text_eq sorted fits⟩

end Config

end SheetCompiler
