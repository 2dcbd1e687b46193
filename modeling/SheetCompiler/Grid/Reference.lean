import SheetCompiler.Grid.Range
import SheetCompiler.Text.Ascii

/-!
# References

A reference is a range with the sheet it lies on, if it names one. `key` is the text under which
a reference is looked up: it always carries the sheet, where one is known, and all `$` marks, so
every spelling of the same cells has one key. `identifierOfKey` is the name that a key suggests.
-/

namespace SheetCompiler

/-- Why a text is no reference. -/
inductive ReferenceError where
  /-- The part after the last `!` is no range. -/
  | range (text : String) (cause : RangeError)
  | emptySheet
  /-- A sheet name whose quote is not closed. -/
  | openQuote (text : String)
deriving DecidableEq, Repr

def ReferenceError.message : ReferenceError → String
  | range text cause => s!"Invalid reference: '{text}': {cause.message}"
  | emptySheet => "Invalid reference: empty sheet name in ''"
  | openQuote text => s!"Invalid sheet name: {text}"

namespace SheetName

/-- A sheet name that is no identifier is written in quotes. -/
def needsQuotes (sheet : String) : Bool := !Text.isIdentifier sheet

/-- Writes every quote twice. -/
def doubleQuotes : List Char → List Char
  | [] => []
  | c :: cs => if c = '\'' then '\'' :: '\'' :: doubleQuotes cs else c :: doubleQuotes cs

/-- Reads two quotes in a row as one, from the left. -/
def collapseQuotes : List Char → List Char
  | '\'' :: '\'' :: cs => '\'' :: collapseQuotes cs
  | c :: cs => c :: collapseQuotes cs
  | [] => []

/-- A sheet name as it stands in a reference. -/
def quoteChars (sheet : List Char) : List Char :=
  if Text.isIdentifierChars sheet then sheet else '\'' :: doubleQuotes sheet ++ ['\'']

/-- A sheet name as it stands in a reference. -/
def quote (sheet : String) : String := String.ofList (quoteChars sheet.toList)

/-- Reads a sheet name in or without quotes. -/
def unquote (cs : List Char) : Except ReferenceError String :=
  match Text.trim cs with
  | [] => .error .emptySheet
  | '\'' :: rest =>
    if rest.getLast? = some '\'' then .ok (String.ofList (collapseQuotes rest.dropLast))
    else .error (.openQuote (String.ofList ('\'' :: rest)))
  | bare => .ok (String.ofList bare)

theorem collapseQuotes_doubleQuotes (cs : List Char) : collapseQuotes (doubleQuotes cs) = cs := by
  induction cs with
  | nil => rfl
  | cons c cs ih => by_cases h : c = '\'' <;> simp [doubleQuotes, collapseQuotes, h, ih]

end SheetName

/-- A range and the sheet it lies on, if it names one. -/
structure Reference where
  sheet : Option String
  range : Range
deriving DecidableEq, Repr

namespace Reference

/-- One cell of a sheet. -/
def cell (sheet : String) (a : Address) : Reference := ⟨some sheet, .single a⟩

/-- Reads `Sheet!A1:B2`: the last `!` ends the sheet name. One leading `=` does not count. -/
def ofChars (cs : List Char) : Except ReferenceError Reference :=
  let cs := Text.trim (Text.dropMark '=' (Text.trim cs))
  let text := String.ofList cs
  match Text.cutLast '!' cs with
  | some (before, after) => do
    let sheet ← SheetName.unquote before
    let range ← (Range.ofChars after).mapError (.range text)
    return ⟨some sheet, range⟩
  | none => do
    let range ← (Range.ofChars cs).mapError (.range text)
    return ⟨none, range⟩

/-- Reads `Sheet!A1:B2`: the last `!` ends the sheet name. One leading `=` does not count. -/
def parse (s : String) : Except ReferenceError Reference := ofChars s.toList

def isMultiCell (r : Reference) : Bool := !r.range.isSingle

/-- The sheet named, or else the current one. -/
def sheetOr (r : Reference) (current : Option String) : Option String := r.sheet <|> current

/-- The reference on `sheet`, unless it names one itself. -/
def qualified (r : Reference) (sheet : String) : Reference :=
  { r with sheet := some (r.sheet.getD sheet) }

/-- A range after the sheet it lies on. -/
def onSheet (sheet : Option String) (range : List Char) : List Char :=
  match sheet with
  | some sheet => SheetName.quoteChars sheet.toList ++ '!' :: range
  | none => range

/-- The text under which the cells on `sheet` are known. -/
def keyChars (sheet : Option String) (range : Range) : List Char :=
  onSheet sheet range.pinned.toChars

/-- The text under which the reference is known, seen from the current sheet. -/
def key (r : Reference) (current : Option String) : String :=
  String.ofList (keyChars (r.sheetOr current) r.range)

/-- The reference as text, with its marks. -/
def toChars (r : Reference) : List Char := onSheet r.sheet r.range.toChars

/-- The reference as text, with its marks. -/
def text (r : Reference) : String := String.ofList r.toChars

end Reference

/-- The identifier that a key suggests: its letters and digits, after `ref_` if they do not start
with a letter. -/
def identifierOfKey (key : String) : String :=
  let kept := key.toList.filter Char.isAlphanum
  match kept with
  | c :: _ => if c.isAlpha then String.ofList kept else "ref_" ++ String.ofList kept
  | [] => "ref_"

end SheetCompiler
