import SheetCompiler.Text.Blank

/-!
# Cell addresses

An address names one cell of a sheet of 1048576 rows and 16384 columns: column letters, then a
row number, each with an optional `$` mark. Rows and columns count from zero here and rows from
one in text. The marks are kept so that an address prints as it was written; they never decide
which cell is meant (`sameCell`).
-/

namespace SheetCompiler

/-- Number of rows of a sheet. -/
def maxRows : Nat := 1048576

/-- Number of columns of a sheet, `A` to `XFD`. -/
def maxCols : Nat := 16384

/-- Why a text is no cell address. -/
inductive AddressError where
  | empty
  | noLetters (text : String)
  | emptyLetters
  | badLetter (letter : Char)
  | columnPastEnd (letters : String)
  | noRow (text : String)
  | badRow (text : String)
  | rowZero (text : String)
  /-- A row, counted from zero, below the last one of the sheet. -/
  | rowPastEnd (row : Nat)
deriving DecidableEq, Repr

namespace AddressError

def message : AddressError → String
  | empty => "Invalid cell address: empty address"
  | noLetters text => s!"Invalid cell address: no column letters in '{text}'"
  | emptyLetters => "Invalid cell address: empty column letters"
  | badLetter letter => s!"Invalid cell address: invalid column letter '{letter}'"
  | columnPastEnd letters => s!"Invalid cell address: column '{letters}' past XFD"
  | noRow text => s!"Invalid cell address: no row number in '{text}'"
  | badRow text => s!"Invalid cell address: invalid row number in '{text}'"
  | rowZero text => s!"Invalid cell address: row number must be >= 1 in '{text}'"
  | rowPastEnd row => s!"Row index {row} out of bounds (max: {maxRows - 1})"

end AddressError

/-- Column letters in bijective base 26: `A` is column 0, `Z` 25, `AA` 26. -/
def columnLetters (col : Nat) : List Char :=
  let letter := Char.ofNat (65 + col % 26)
  if col < 26 then [letter] else columnLetters (col / 26 - 1) ++ [letter]
termination_by col
decreasing_by omega

/-- The value of a column letter, `A` being 1. -/
def letterValue (c : Char) : Nat :=
  c.toUpper.toNat - 64

/-- Reads letters after those worth `value`; stops as soon as the column lies outside the sheet. -/
def readLetters (all : List Char) : Nat → List Char → Except AddressError Nat
  | value, [] => .ok value
  | value, c :: cs =>
    if c.isAlpha then
      let next := value * 26 + letterValue c
      if maxCols < next then .error (.columnPastEnd (String.ofList all))
      else readLetters all next cs
    else .error (.badLetter c)

/-- The column that the letters name. -/
def columnOfLetters (letters : List Char) : Except AddressError Nat :=
  match letters with
  | [] => .error .emptyLetters
  | _ => (readLetters letters 0 letters).map (· - 1)

/-- The number that decimal digits write. -/
def digitsValue (digits : List Char) : Nat :=
  digits.foldl (fun n c => n * 10 + (c.toNat - 48)) 0

/-- A cell of a sheet, counted from zero, with the `$` marks it was written with. -/
structure Address where
  row : Nat
  col : Nat
  rowFixed : Bool := false
  colFixed : Bool := false
deriving DecidableEq, Repr

namespace Address

/-- Splits off a leading `$`. -/
def takeMark : List Char → Bool × List Char
  | '$' :: cs => (true, cs)
  | cs => (false, cs)

/-- The zero-based row that the digits name; `text` is the whole address. -/
def readRow (text : String) (digits : List Char) : Except AddressError Nat :=
  if digits.isEmpty then .error (.noRow text)
  else if digits.all Char.isDigit then
    let number := digitsValue digits
    if Nat.pow 2 32 ≤ number then .error (.badRow text)
    else if number = 0 then .error (.rowZero text)
    else if maxRows < number then .error (.rowPastEnd (number - 1))
    else .ok (number - 1)
  else .error (.badRow text)

/-- Reads an address that has no blanks around it. -/
def ofTrimmed (cs : List Char) : Except AddressError Address :=
  let text := String.ofList cs
  if cs.isEmpty then .error .empty
  else
    let (colFixed, cs) := takeMark cs
    let letters := cs.takeWhile Char.isAlpha
    if letters.isEmpty then .error (.noLetters text)
    else do
      let col ← columnOfLetters letters
      let (rowFixed, digits) := takeMark (cs.dropWhile Char.isAlpha)
      let row ← readRow text digits
      return { row, col, rowFixed, colFixed }

/-- Reads an address; blanks around it do not count. -/
def ofChars (cs : List Char) : Except AddressError Address :=
  ofTrimmed (Text.trim cs)

/-- Reads an address; blanks around it do not count. -/
def parse (s : String) : Except AddressError Address :=
  ofChars s.toList

def mark (fixed : Bool) : List Char :=
  if fixed then ['$'] else []

/-- The address as text, with its marks. -/
def toChars (a : Address) : List Char :=
  mark a.colFixed ++ columnLetters a.col ++ mark a.rowFixed ++ Nat.toDigits 10 (a.row + 1)

/-- The address with both marks set. -/
def pinned (a : Address) : Address :=
  { a with rowFixed := true, colFixed := true }

/-- The address with both marks cleared. -/
def unpinned (a : Address) : Address :=
  { a with rowFixed := false, colFixed := false }

/-- The address as text, with its marks: `$B2`. -/
def text (a : Address) : String :=
  String.ofList a.toChars

/-- The address as text with both marks: `$B$2`. -/
def absoluteText (a : Address) : String :=
  a.pinned.text

/-- Both name one cell, whatever their marks. -/
def sameCell (a b : Address) : Bool :=
  a.row == b.row && a.col == b.col

/-- The cell lies on the sheet. -/
def InSheet (a : Address) : Prop :=
  a.row < maxRows ∧ a.col < maxCols

instance (a : Address) : Decidable a.InSheet :=
  inferInstanceAs (Decidable (_ ∧ _))

/-- The address moved by some rows and columns, if it stays on the sheet; it keeps its marks. -/
def offset (a : Address) (rows cols : Int) : Option Address :=
  let row := (a.row : Int) + rows
  let col := (a.col : Int) + cols
  if 0 ≤ row ∧ 0 ≤ col ∧ row < maxRows ∧ col < maxCols then
    some { a with row := row.toNat, col := col.toNat }
  else none

theorem sameCell_iff {a b : Address} : a.sameCell b = true ↔ a.row = b.row ∧ a.col = b.col := by
  simp [sameCell]

end Address

end SheetCompiler
