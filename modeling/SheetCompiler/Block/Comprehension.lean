import SheetCompiler.Block.Alignment
import SheetCompiler.Block.Shape
import SheetCompiler.Python.Expression
import SheetCompiler.Text.Quoted

/-!
# Blocks of formulas as comprehensions

A block of formulas is usually one calculation filled across a range. `comprehension` writes it
once, as a loop over the ranges that the formulas move along, if

* every formula holds the fragments that the first two have in common,
* all formulas have one shape, and
* each single cell they refer to is the same in all of them, or keeps its distance from the cell
  of the formula.

Each distance gives one range, parallel to the block, and one loop variable.
-/

namespace SheetCompiler

/-- A range of formulas. -/
structure Block where
  sheet : String
  /-- The upper left cell. -/
  origin : Address
  /-- The formulas, row by row. -/
  rows : List (List String)
deriving DecidableEq, Repr

/-- Why a block is no comprehension. -/
inductive BlockError where
  | tooSmall
  | fragment (cell : Reference) (fragment : String)
  | unreadable (cell : Reference) (cause : FormulaError)
  | shape (cell : Reference)
  | noOffset (cell : Reference)
deriving DecidableEq, Repr

def BlockError.message : BlockError → String
  | tooSmall => "block has fewer than two cells"
  | fragment cell text => s!"{cell.text} does not contain the common fragment " ++ Text.quoted text
  | unreadable cell cause => s!"cannot parse {cell.text}: {cause.message}"
  | shape cell => s!"{cell.text} differs from the first cell in more than its references"
  | noOffset cell => s!"no fixed offset relates {cell.text} to the references it uses"

/-- Where a reference lies as seen from the cell that uses it. -/
structure Offset where
  sheet : String
  rows : Int
  cols : Int
deriving DecidableEq, Repr

/-- The place of a reference as seen from a cell. -/
def Offset.between (cell : Address) (r : Reference) : Offset where
  sheet := r.sheet.getD ""
  rows := (r.range.first.row : Int) - cell.row
  cols := (r.range.first.col : Int) - cell.col

/-- The offset that all references keep from their cells, none if they are one reference. -/
def Offset.common : List (Address × Reference) → Except Address (Option Offset)
  | [] => .ok none
  | (cell, r) :: rest =>
    if rest.all fun p => p.2 == r then .ok none
    else
      let offset := between cell r
      match rest.find? fun p => between p.1 p.2 != offset with
      | some p => .error p.1
      | none => .ok (some offset)

namespace Block

def cellCount (b : Block) : Nat := (b.rows.map List.length).foldr (· + ·) 0

/-- All cells hold the same text. -/
def isUniform (b : Block) : Bool :=
  match b.rows.flatten with
  | [] => true
  | first :: rest => rest.all (· == first)

/-- The cells that the block covers; at least one. -/
def range (b : Block) : Range :=
  let rows := max b.rows.length 1
  let cols := max ((b.rows.head?.map List.length).getD 1) 1
  .ofCorners { row := b.origin.row, col := b.origin.col }
    { row := b.origin.row + rows - 1, col := b.origin.col + cols - 1 }

/-- The cells of one row. -/
def rowCells (b : Block) (i : Nat) (row : List String) : List (Address × String) :=
  row.mapIdx fun j text => ({ row := b.origin.row + i, col := b.origin.col + j }, text)

/-- The cells with their formulas, row by row. -/
def cells (b : Block) : List (Address × String) :=
  (b.rows.mapIdx b.rowCells).flatten

/-- A cell of the block as it is named in messages. -/
def label (b : Block) (a : Address) : Reference := .cell b.sheet a

/-- Checks that every formula holds the given fragments. -/
def checkFragments (b : Block) (fragments : List (List Char)) (cells : List (Address × String)) :
    Except BlockError Unit :=
  match cells with
  | [] => .ok ()
  | (a, text) :: rest =>
    match fragments.find? fun f => !Text.occursIn f text.toList with
    | some f => .error (.fragment (b.label a) (String.ofList f))
    | none => b.checkFragments fragments rest

/-- Checks that every formula holds what the first two have in common. -/
def checkStructure (b : Block) (cells : List (Address × String)) : Except BlockError Unit :=
  match cells with
  | (_, first) :: (_, second) :: _ =>
    b.checkFragments (Alignment.fragments first.toList second.toList) cells
  | _ => .error .tooSmall

/-- Reads the formulas. -/
def readCells (b : Block) (cells : List (Address × String)) :
    Except BlockError (List (Address × Formula)) :=
  cells.mapM fun (a, text) =>
    match Formula.parseSingle text with
    | .ok f => .ok (a, f)
    | .error e => .error (.unreadable (b.label a) e)

/-- The single cells of formulas that all have one shape. -/
def leavesOf (b : Block) (shape : Formula) (cells : List (Address × Formula)) :
    Except BlockError (List (Address × List Reference)) :=
  cells.mapM fun (a, f) =>
    if f.shape b.sheet = shape then .ok (a, f.leaves b.sheet) else .error (.shape (b.label a))

/-- The `i`-th single cell of each formula. -/
def column (i : Nat) (cells : List (Address × List Reference)) : List (Address × Reference) :=
  cells.filterMap fun (a, leaves) => leaves[i]?.map fun r => (a, r)

/-- How each of the first `n` single cells moves with its formula. -/
def offsetsOf (b : Block) (n : Nat) (cells : List (Address × List Reference)) :
    Except BlockError (List (Option Offset)) :=
  (List.range n).mapM fun i =>
    (Offset.common (column i cells)).mapError fun a => .noOffset (b.label a)

/-- What a block has in common. -/
structure Pattern where
  /-- The first cell that holds a formula. -/
  first : Address
  /-- The formula of that cell. -/
  formula : Formula
  /-- How its single cells move with the formula. -/
  offsets : List (Option Offset)

/-- The different offsets, in the order they are first used. -/
def Pattern.groups (p : Pattern) : List Offset := (p.offsets.filterMap id).eraseDups

/-- The loop variable of a group. -/
def loopName (i : Nat) : String := "_v" ++ String.ofList (Nat.toDigits 10 i)

/-- The variable that holds a row of a group. -/
def rowName (i : Nat) : String := "_r" ++ String.ofList (Nat.toDigits 10 i)

/-- The loop variable in place of each single cell that moves. -/
def Pattern.choices (p : Pattern) : List (Option String) :=
  p.offsets.map fun o => o.map fun o => loopName (p.groups.idxOf o)

/-- The formula with loop variables in place of the cells that move. -/
def Pattern.body (p : Pattern) : Formula := p.formula.fill p.choices

/-- What the formulas of a block have in common. -/
def pattern (b : Block) : Except BlockError Pattern := do
  let cells := b.cells
  b.checkStructure cells
  let read ← b.readCells cells
  match read with
  | [] => throw .tooSmall
  | (first, f) :: _ =>
    let leaves ← b.leavesOf (f.shape b.sheet) read
    let offsets ← b.offsetsOf (f.leaves b.sheet).length leaves
    let p : Pattern := ⟨first, f, offsets⟩
    if p.groups.isEmpty then throw (.noOffset (b.label first)) else return p

/-- The range parallel to the block at an offset. -/
def parallel (b : Block) (o : Offset) : Option Reference :=
  (b.range.offset o.rows o.cols).map fun r => ⟨some o.sheet, r⟩

/-- The ranges to loop over, in Python. One that leaves the sheet is laid to the first cell. -/
def iterables (b : Block) (symbols : Python.Symbols) (first : Address) :
    List Offset → AliasTable → Except BlockError (List String) × AliasTable
  | [], t => (.ok [], t)
  | o :: os, t =>
    match b.parallel o with
    | none => (.error (.noOffset (b.label first)), t)
    | some r =>
      let (identifier, t) := t.resolve r none
      let (rest, t) := b.iterables symbols first os t
      (rest.map (symbols.qualify identifier :: ·), t)

/-- A name alone, or several packed together. -/
def zipped : List String → String
  | [item] => item
  | items => "zip(" ++ Text.joined ", " items ++ ")"

/-- Loops over rows and their cells. -/
def loop (body : String) (ranges : List String) : String :=
  let names := (List.range ranges.length).map loopName
  let rows := (List.range ranges.length).map rowName
  "tuple(tuple(" ++ body ++ " for " ++ Text.joined ", " names ++ " in " ++ zipped rows ++ ") for " ++
    Text.joined ", " rows ++ " in " ++ zipped ranges ++ ")"

/-- The block as one comprehension, with the table after it. -/
def comprehension (b : Block) (symbols : Python.Symbols) (t : AliasTable) :
    Except BlockError String × AliasTable :=
  match b.pattern with
  | .error e => (.error e, t)
  | .ok p =>
    match b.iterables symbols p.first p.groups t with
    | (.error e, t) => (.error e, t)
    | (.ok ranges, t) =>
      let locals := (List.range p.groups.length).map loopName
      let (body, t) := Python.Scope.formula { symbols, sheet := some b.sheet, locals } p.body t
      (.ok (loop body ranges), t)

end Block

end SheetCompiler
