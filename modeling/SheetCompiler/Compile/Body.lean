import SheetCompiler.Block.Comprehension
import SheetCompiler.Compile.Region
import SheetCompiler.Python.Inputs

/-!
# Bodies of properties

The Python expression that a property computes. A block of formulas is one comprehension where
that can be, and otherwise a tuple of rows, cell by cell. Each function returns the table of
identifiers as it stands afterwards, also if it fails.
-/

namespace SheetCompiler

/-- How a body was written. -/
inductive BodyMethod where
  | direct
  | comprehension
  | cellByCell
deriving DecidableEq, Repr

namespace Body

/-- The body of one formula, for the messages the one of a name at a location. -/
def formula (scope : Python.Scope) (name location text : String) (t : AliasTable) :
    Except CompileError String × AliasTable :=
  match Formula.parseSingle text with
  | .error e => (.error (.formula name location e), t)
  | .ok f =>
    let (python, t) := scope.formula f t
    (.ok python, t)

section

variable (c : Config) (symbols : Python.Symbols) (name : String)

/-- The formula of a cell, or else its value, which `literal` writes. -/
def cell (literal : RegionCell → String) (sheet : String) (cell : RegionCell) (t : AliasTable) :
    Except CompileError String × AliasTable :=
  match cell.formula with
  | some text =>
    formula { symbols, sheet := some sheet } name (Reference.cell sheet cell.address).text text t
  | none => (.ok (literal cell), t)

/-- The cells of a row, up to the first that fails. -/
def items (sheet : String) :
    List RegionCell → AliasTable → Except CompileError (List String) × AliasTable
  | [], t => (.ok [], t)
  | first :: rest, t =>
    match cell symbols name (·.literal c) sheet first t with
    | (.error e, t) => (.error e, t)
    | (.ok item, t) =>
      let (others, t) := items sheet rest t
      (others.map (item :: ·), t)

/-- The rows as tuples, up to the first cell that fails. -/
def rows (sheet : String) :
    List (List RegionCell) → AliasTable → Except CompileError (List String) × AliasTable
  | [], t => (.ok [], t)
  | first :: rest, t =>
    match items c symbols name sheet first t with
    | (.error e, t) => (.error e, t)
    | (.ok row, t) =>
      let (others, t) := rows sheet rest t
      (others.map (Python.tuple row :: ·), t)

/-- The region as a comprehension, if all its cells hold formulas, not all of them alike. -/
def comprehension? (g : Region) (t : AliasTable) : Option String × AliasTable :=
  match g.formulas? with
  | none => (none, t)
  | some formulas =>
    let b : Block := ⟨g.sheet, g.origin, formulas⟩
    if b.isUniform then (none, t)
    else
      let (python, t) := b.comprehension symbols t
      (python.toOption, t)

/-- The body of a region, and how it was written. The formats of dates count in tuples only. -/
def region (g : Region) (t : AliasTable) :
    Except CompileError String × AliasTable × BodyMethod :=
  match g.rows with
  | [[only]] =>
    let (python, t) := cell symbols name (·.plainLiteral) g.sheet only t
    (python, t, .direct)
  | cells =>
    match comprehension? symbols g t with
    | (some python, t) => (.ok python, t, .comprehension)
    | (none, t) =>
      let (tuples, t) := rows c symbols name g.sheet cells t
      (tuples.map Python.tuple, t, .cellByCell)

end

end Body

end SheetCompiler
