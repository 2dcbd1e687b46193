import SheetCompiler.Grid.Address
import SheetCompiler.Text.Split

/-!
# Ranges

A range is a rectangle of cells given by two corners. `ofCorners` orders rows and columns apart,
so that the first corner is the upper left one; each corner keeps the marks of the address it
was built from. Its cells are listed row by row (`rows`).
-/

namespace SheetCompiler

/-- Why a text is no range. -/
inductive RangeError where
  /-- The text is one address, and a bad one. -/
  | address (cause : AddressError)
  /-- One of the two corners is bad. -/
  | corner (text : String) (cause : AddressError)
deriving DecidableEq, Repr

def RangeError.message : RangeError → String
  | address cause => cause.message
  | corner text cause => s!"Invalid cell range: '{text}': {cause.message}"

/-- A rectangle of cells between two corners. -/
structure Range where
  first : Address
  last : Address
deriving DecidableEq, Repr

namespace Range

/-- The rectangle between two corners in any order. -/
def ofCorners (a b : Address) : Range where
  first := { a with row := min a.row b.row, col := min a.col b.col }
  last := { b with row := max a.row b.row, col := max a.col b.col }

/-- The range of one cell. -/
def single (a : Address) : Range := ⟨a, a⟩

/-- Reads `A1` or `A1:B2`; the first colon divides the corners. -/
def ofChars (cs : List Char) : Except RangeError Range :=
  let cs := Text.trim cs
  match Text.cutFirst ':' cs with
  | some (left, right) => do
    let a ← (Address.ofChars left).mapError (.corner (String.ofList cs))
    let b ← (Address.ofChars right).mapError (.corner (String.ofList cs))
    return ofCorners a b
  | none => (Address.ofChars cs).bind (fun a => .ok (single a)) |>.mapError .address

/-- Reads `A1` or `A1:B2`; the first colon divides the corners. -/
def parse (s : String) : Except RangeError Range :=
  ofChars s.toList

/-- Both corners are one cell. -/
def isSingle (r : Range) : Bool := r.first.sameCell r.last

def rowCount (r : Range) : Nat := r.last.row - r.first.row + 1

def colCount (r : Range) : Nat := r.last.col - r.first.col + 1

def cellCount (r : Range) : Nat := r.rowCount * r.colCount

/-- The cells, row by row from the upper left corner, without marks. -/
def rows (r : Range) : List (List Address) :=
  (List.range r.rowCount).map fun i =>
    (List.range r.colCount).map fun j => { row := r.first.row + i, col := r.first.col + j }

/-- The range moved by some rows and columns, if both corners stay on the sheet. -/
def offset (r : Range) (rows cols : Int) : Option Range := do
  let first ← r.first.offset rows cols
  let last ← r.last.offset rows cols
  return ofCorners first last

/-- Both corners lie on the sheet. -/
def InSheet (r : Range) : Prop := r.first.InSheet ∧ r.last.InSheet

instance (r : Range) : Decidable r.InSheet :=
  inferInstanceAs (Decidable (_ ∧ _))

/-- The first corner is the upper left one. -/
def Ordered (r : Range) : Prop := r.first.row ≤ r.last.row ∧ r.first.col ≤ r.last.col

instance (r : Range) : Decidable r.Ordered :=
  inferInstanceAs (Decidable (_ ∧ _))

/-- The range with all marks set. -/
def pinned (r : Range) : Range := ⟨r.first.pinned, r.last.pinned⟩

/-- The range with all marks cleared. -/
def unpinned (r : Range) : Range := ⟨r.first.unpinned, r.last.unpinned⟩

/-- One address for a single cell, otherwise both corners. -/
def toChars (r : Range) : List Char :=
  if r.isSingle then r.first.toChars else r.first.toChars ++ ':' :: r.last.toChars

/-- The range as text, with its marks. -/
def text (r : Range) : String := String.ofList r.toChars

/-- The range as text with all marks. -/
def absoluteText (r : Range) : String := r.pinned.text

end Range

end SheetCompiler
