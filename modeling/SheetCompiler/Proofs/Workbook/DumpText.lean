import SheetCompiler.Proofs.Calendar.DateText
import SheetCompiler.Proofs.Json.Doubles
import SheetCompiler.Proofs.Json.Records
import SheetCompiler.Proofs.Workbook.Reload

/-!
# The texts of dumps are read back

The text of a dump is read as the dump (`Dump.parse_dump_text`). The kinds of cell values do not
share texts: plain values are told apart by their first character, and a date and an error by the
key of their only member, so a string that looks like a date or an error stays a string
(`CellValue.survives`). What is left out of the text are empty values and options, which is what a
missing member is read as.
-/

namespace SheetCompiler

open Json

namespace CellValue

/-- Numbers are finite and are read back from their digits, and dates are on the calendar and the
clock. -/
def Storable : CellValue → Prop
  | number x => x.isFinite ∧ lexemeFloat? (Number.Layout.document.chars x) = some x
  | date t => t.Proper
  | _ => True

instance : DecidablePred Storable
  | number x => inferInstanceAs
      (Decidable (x.isFinite ∧ lexemeFloat? (Number.Layout.document.chars x) = some x))
  | date t => inferInstanceAs (Decidable t.Proper)
  | empty | boolean _ | error _ | string _ => inferInstanceAs (Decidable True)

variable {outer : Nat}

theorem not_refused {j : Json} (fits : outer + j.depth ≤ maxDepth) (readable : j.isReadable) :
    ¬(maxDepth < outer + j.depth || !j.isReadable) := by
  simp [fits, readable]

/-- An object with one text is read by its key. -/
theorem ofJson?_member (shallow : outer < maxDepth) (key text : String) :
    ofJson? outer (.ofMembers [(key, .ofText text)]) = ofMembers? [(key, .ofText text)] := by
  have readable : (Json.ofMembers [(key, .ofText text)]).isReadable := by
    simp [Json.ofMembers, isReadable, membersReadable, ofText, unescape_escape]
  have keys := readKeys_escape [(key, .ofText text)]
  unfold ofJson?
  rw [if_neg (not_refused shallow readable)]
  exact (congrArg (·.bind ofMembers?) keys).trans (Option.bind_some _ _)

theorem memberText?_self (key text : String) : memberText? key [(key, .ofText text)] = some text := by
  simp [memberText?, onlyMember, text?_ofText]

theorem memberText?_of_ne {key other : String} (ne : other ≠ key) (j : Json) :
    memberText? key [(other, j)] = none := by
  simp [memberText?, onlyMember, ne]

/-- Each kind of value survives: plain ones by their first character, dates and errors by their key.
-/
theorem survives {v : CellValue} (storable : v.Storable) (shallow : outer < maxDepth) :
    Survives toJson (ofJson? outer) v := by
  have flat : outer + 0 ≤ maxDepth := Nat.le_of_lt shallow
  cases v with
  | empty => exact ⟨.null, if_neg (not_refused flat rfl)⟩
  | boolean b => exact ⟨.bool b, if_neg (not_refused flat rfl)⟩
  | number x =>
    obtain ⟨finite, digits⟩ := storable
    have written : toJson (number x) = .number (Number.Layout.document.chars x) := if_pos finite
    have readable : (Json.number (Number.Layout.document.chars x)).isReadable := by
      rw [isReadable, digits]
      rfl
    constructor
    · rw [written]
      exact .number (Number.isNumber_chars _ finite)
    · rw [written]
      refine (if_neg (not_refused flat readable)).trans ?_
      dsimp only
      rw [digits, Option.map_some]
  | date t =>
    have date := DateTime.parse_documentText_iff.2 storable
    refine ⟨.object (by simp [(survives_text _).proper]), ?_⟩
    rw [toJson, ofJson?_member shallow, ofMembers?, memberText?_self, Option.bind_some, date]
  | error e =>
    refine ⟨.object (by simp [(survives_text _).proper]), ?_⟩
    rw [toJson, ofJson?_member shallow, ofMembers?, memberText?_of_ne (by decide), Option.bind_none,
      memberText?_self, Option.map_some]
  | string s =>
    have readable : (ofText s).isReadable := by
      rw [ofText, isReadable, unescape_escape]
      rfl
    have read : (unescape (escape s.toList)).map (fun cs => string (String.ofList cs)) =
        some (string s) := by
      rw [unescape_escape, Option.map_some, String.ofList_toList]
    exact ⟨(survives_text s).proper, (if_neg (not_refused flat readable)).trans read⟩

end CellValue

namespace Dump

/-- The members of a cell. -/
def cellFields (c : Cell) : List (Option Json) := [
  c.formula.map .ofText, if c.value.isEmpty then none else some c.value.toJson,
  c.format.map .ofText]

theorem cellToJson_eq (c : Cell) :
    cellToJson c = .ofMembers (present ["formula", "value", "format"] (cellFields c)) := by
  obtain ⟨_ | _, value, _ | _⟩ := c <;> cases value <;> rfl

/-- A cell survives; what it does not have is left out and read as missing. -/
theorem survives_cell {c : Cell} (storable : c.value.Storable) :
    Survives cellToJson cellOfJson? c := by
  have value := CellValue.survives storable (show 4 < maxDepth by decide)
  have read : withDefault (CellValue.ofJson? 4) .empty
      (if c.value.isEmpty then none else some c.value.toJson) = some c.value := by
    split
    next empty =>
      have isEmpty : c.value = .empty := by cases h : c.value <;> simp_all [CellValue.isEmpty]
      rw [isEmpty]
      rfl
    next => exact value.read_write
  refine survives_record (cellToJson_eq c) ?_ ?_
  · simp only [cellFields, List.forall_mem_cons]
    refine ⟨proper_optionalText _, ?_, proper_optionalText _, List.forall_mem_nil _⟩
    split
    · exact fun _ mem => (Option.not_mem_none _ mem).elim
    · exact value.proper_field
  · exact read_then (record?_present (by decide) rfl) <| read_then (read_optionalText _) <|
      read_then read <| read_then (read_optionalText _) rfl

/-- The members of a defined name. -/
def nameFields (n : DefinedName) : List (Option Json) := [
  some (.ofText n.name), some (.ofText n.refersTo), n.localSheet.map .ofText]

theorem nameToJson_eq (n : DefinedName) :
    nameToJson n = .ofMembers (present ["name", "refers_to", "local_sheet"] (nameFields n)) := by
  obtain ⟨_, _, _ | _⟩ := n <;> rfl

/-- So does a defined name. -/
theorem survives_name (n : DefinedName) : Survives nameToJson nameOfJson? n := by
  refine survives_record (nameToJson_eq n) ?_ ?_
  · simp only [nameFields, List.forall_mem_cons]
    exact ⟨(survives_text _).proper_field, (survives_text _).proper_field, proper_optionalText _,
      List.forall_mem_nil _⟩
  · exact read_then (record?_present (by decide) rfl) <| read_then (text?_ofText _) <|
      read_then (text?_ofText _) <| read_then (read_optionalText _) rfl

theorem toJson_eq (d : Dump) : d.toJson = .ofMembers (present ["sheets", "names"] [
    some (.ofMembers (d.sheets.map fun sheet => (sheet.1, cellsToJson sheet.2))),
    some (.array (d.names.map nameToJson))]) := rfl

/-- So does a dump whose entries are in order: sheets and cells are maps. -/
theorem survives {d : Dump} (sorted : d.Sorted)
    (storable : ∀ sheet ∈ d.sheets, ∀ entry ∈ sheet.2, entry.2.value.Storable) :
    Survives toJson ofJson? d := by
  have cells : ∀ sheet ∈ d.sheets, Survives cellsToJson (map? cellOfJson?) sheet.2 := fun sheet mem =>
    survives_map (sorted.cells sheet mem) fun entry mem' => survives_cell (storable sheet mem entry mem')
  have sheets := survives_map sorted.sheets cells
  have names := @survives_list _ _ _ d.names fun n _ => survives_name n
  refine survives_record d.toJson_eq ?_ ?_
  · simp only [List.forall_mem_cons]
    exact ⟨sheets.proper_field, names.proper_field, List.forall_mem_nil _⟩
  · exact read_then (record?_present (by decide) rfl) <| read_then sheets.read_write <|
      read_then names.read_write rfl

/-- The texts of a dump, with and without line breaks, are read as the dump. -/
theorem parse_dump_text {d : Dump} (sorted : d.Sorted)
    (storable : ∀ sheet ∈ d.sheets, ∀ entry ∈ sheet.2, entry.2.value.Storable) :
    parse d.text = some d ∧ parse d.toJson.prettyText = some d :=
  ⟨(survives sorted storable).parse_compactText, (survives sorted storable).parse_prettyText⟩

/-- Strings that look like values of other kinds, a second numbered 60, and empty members. -/
def lookalikes : Dump where
  sheets := [
    ("", []),
    ("A \"1\"", [
      ("A1", { value := .string "#N/A", format := some "" }),
      ("A2", { value := .string "2016-12-31T23:59:59" }),
      ("A3", { value := .string "" }),
      ("B1", { value := .error "#N/A" }),
      ("B2", { value := .date ⟨2016, 12, 31, 23, 59, 59, 1250000000⟩ }),
      ("B3", { value := .date ⟨-44, 3, 15, 0, 0, 0, 7⟩ }),
      ("C1", { value := .number (-0.1) }),
      ("C2", { value := .number 1e300 }),
      ("D1", { formula := some "=A1&\"\n\"", value := .boolean false })])]
  names := [⟨"rate", "Sheet1!$A$1", none⟩, ⟨"rate", "😀!B2", some ""⟩]

/-- Each value stays of its kind. -/
theorem parse_dump_text_lookalikes :
    lookalikes.Sorted ∧
    (∀ sheet ∈ lookalikes.sheets, ∀ entry ∈ sheet.2, entry.2.value.Storable) ∧
    parse lookalikes.text = some lookalikes ∧
    parse lookalikes.toJson.prettyText = some lookalikes :=
  have sorted : lookalikes.Sorted := ⟨by decide +kernel, by decide +kernel⟩
  have storable : ∀ sheet ∈ lookalikes.sheets, ∀ entry ∈ sheet.2, entry.2.value.Storable := by
    decide +kernel
  ⟨sorted, storable, parse_dump_text sorted storable⟩

end Dump

end SheetCompiler
