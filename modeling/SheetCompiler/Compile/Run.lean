import SheetCompiler.Class.Section
import SheetCompiler.Compile.Body

/-!
# Compiling a workbook

First the identifiers of the configuration and of the defined names are bound. Then each name is
classified, in the order of the workbook, and written into the section that takes it. The
formulas refer to further cells, which get identifiers of their own; those are followed in the
order they turn up, until there are none left or the limit is reached.
-/

namespace SheetCompiler

/-- A checked configuration. -/
structure Plan where
  config : Config
  names : ClassNames
  bindings : Bindings

namespace Plan

/-- Checks a configuration, then derives the names. -/
def ofConfig (c : Config) : Except ConfigError Plan := do
  let bindings ← c.validate
  let names ← c.classNames
  return ⟨c, names, bindings⟩

def symbols (p : Plan) : Python.Symbols := ⟨p.config.globals⟩

end Plan

/-- What a name refers to. -/
inductive Target where
  | cells (r : Reference)
  | formula (text : String) (sheet : Option String)
  | unresolved
  | builtin
  | broken
deriving DecidableEq, Repr

/-- What a defined name refers to. -/
def DefinedName.target (d : DefinedName) : Target :=
  if d.isUnresolved then .unresolved
  else if d.isBuiltin then .builtin
  else if d.isBroken then .broken
  else
    match d.reference? with
    | some r => .cells r
    | none => .formula d.expression d.localSheet

/-- A name that is to be classified. -/
structure Candidate where
  name : String
  /-- The Python identifier for it. -/
  identifier : String
  /-- What it refers to, as written. -/
  refersTo : String
  target : Target
  discovered : Bool := false
deriving DecidableEq, Repr

/-- What stands behind a name. -/
inductive Content where
  | region (g : Region)
  | formula (text : String) (sheet : Option String)
  | nothing

/-- The state of a compilation. -/
structure Run where
  table : AliasTable := {}
  sections : Sections := {}
  /-- How many names were classified. -/
  names : Nat := 0
  /-- How many of them were found in formulas. -/
  discovered : Nat := 0
  /-- How many blocks became comprehensions. -/
  generalized : Nat := 0
  /-- How many blocks were written cell by cell. -/
  fallbacks : Nat := 0
  errors : List CompileError := []
  warnings : List Unclassified := []
  /-- Keys of the cells that were read. -/
  visited : List String := []
  /-- The name that holds an identifier. -/
  owners : List (String × String) := []
  /-- Key and parameter of every input. -/
  inputs : List (String × String) := []

namespace Run

def fail (run : Run) (e : CompileError) : Run := { run with errors := run.errors ++ [e] }

/-! ### Binding -/

def addInput (run : Run) (key identifier : String) : Run :=
  { run with
    inputs := run.inputs ++ [(key, identifier)]
    sections.interface := run.sections.interface.addInput identifier }

def addOutput (run : Run) (identifier : String) : Run :=
  { run with sections.interface := run.sections.interface.addOutput identifier }

def bindRename (run : Run) (rename : String × String) : Run :=
  { run with table := run.table.insertRename rename.1 rename.2 }

def bindInput (run : Run) (input : BoundCell) : Run :=
  let table := run.table.insertConfig input.reference input.name
  { run with table }.addInput (table.key input.reference none) input.name

def bindOutput (run : Run) (output : BoundCell) : Run :=
  { run with table := run.table.insertConfig output.reference output.name }.addOutput output.name

/-- Binds the sheets of a workbook and all that a configuration names. -/
def bindConfig (p : Plan) (w : Workbook) : Run :=
  let run : Run := { table := w.sheetNames.foldl AliasTable.addSheet {} }
  let run := p.config.renames.foldl bindRename run
  let run := p.bindings.inputs.foldl bindInput run
  p.bindings.outputs.foldl bindOutput run

/-- Makes named cells an input, if they are one value on an input sheet, or an output, if they
have a formula and are on an output sheet. -/
def declare (c : Config) (w : Workbook) (r : Reference) (key identifier : String) (run : Run) : Run :=
  match w.region r with
  | .error _ => run
  | .ok g =>
    if c.isInputSheet g.sheet && !r.isMultiCell then
      if !g.hasFormula && g.hasValue && !run.sections.interface.hasInput identifier then
        run.addInput key identifier
      else run
    else if c.isOutputSheet g.sheet && g.hasFormula then run.addOutput identifier
    else run

/-- Binds a name to cells and gives the identifier that they have then. Where a name or the
configuration came first, its identifier stays, and the name stands for it. -/
def bindCells (c : Config) (w : Workbook) (name identifier : String) (r : Reference) (run : Run) :
    String × Run :=
  let key := run.table.key r none
  match run.table.insertName r identifier with
  | (true, table) => (identifier, { run with table }.declare c w r key identifier)
  | (false, table) =>
    let owner := (table.lookup key).getD identifier
    (owner, { run with table := if owner = name then table else table.insertRename name owner })

/-- Binds a defined name. -/
def bindName (c : Config) (w : Workbook) (d : DefinedName) (run : Run) : Candidate × Run :=
  let identifier := run.table.rename d.name
  let target := d.target
  let (identifier, run) := match target with
    | .cells r => run.bindCells c w d.name identifier r
    | .formula .. => (identifier, { run with table := run.table.reserve identifier })
    | _ => (identifier, run)
  ({ name := d.name, identifier, refersTo := d.refersTo, target }, run)

def bindNames (c : Config) (w : Workbook) : List DefinedName → Run → List Candidate × Run
  | [], run => ([], run)
  | d :: ds, run =>
    let (candidate, run) := run.bindName c w d
    let (candidates, run) := bindNames c w ds run
    (candidate :: candidates, run)

/-- The keys of the cells that candidates name. -/
def namedKeys (t : AliasTable) (candidates : List Candidate) : List String :=
  candidates.filterMap fun candidate =>
    match candidate.target with
    | .cells r => some (t.key r none)
    | _ => none

/-- The outputs of the configuration that have no name, each cell once. -/
def unnamedOutputs (t : AliasTable) : List String → List BoundCell → List Candidate
  | _, [] => []
  | seen, o :: os =>
    let key := t.key o.reference none
    if key ∈ seen then unnamedOutputs t seen os
    else
      { name := o.name, identifier := o.name, refersTo := o.cell, target := .cells o.reference } ::
        unnamedOutputs t (key :: seen) os

/-- Binds all names and gives the candidates in order. -/
def bind (p : Plan) (w : Workbook) : List Candidate × Run :=
  let (named, run) := bindNames p.config w w.names (bindConfig p w)
  (named ++ unnamedOutputs run.table (namedKeys run.table named) p.bindings.outputs, run)

/-! ### Classifying -/

/-- Reads what stands behind a name. -/
def read (w : Workbook) (candidate : Candidate) : Except CompileError Content :=
  match candidate.target with
  | .cells r => ((w.region r).mapError (.region candidate.name)).map .region
  | .formula text sheet => .ok (.formula text sheet)
  | _ => .ok .nothing

/-- Another name holds the identifier. -/
def isDuplicate (run : Run) (candidate : Candidate) : Bool :=
  match Assoc.find? candidate.identifier run.owners with
  | some owner => owner != candidate.name
  | none => false

def facts (c : Config) (run : Run) (candidate : Candidate) (content : Content) : NameFacts where
  discovered := candidate.discovered
  unresolved := candidate.target = .unresolved
  builtin := candidate.target = .builtin
  broken := candidate.target = .broken
  onIgnoredSheet :=
    match content with
    | .region g => c.isIgnoredSheet g.sheet
    | .formula _ sheet => sheet.any c.isIgnoredSheet
    | .nothing => false
  duplicate := run.isDuplicate candidate
  isInput := run.sections.interface.hasInput candidate.identifier
  hasFormula :=
    match content with
    | .region g => g.hasFormula
    | .formula .. => true
    | .nothing => false
  hasValue :=
    match content with
    | .region g => g.hasValue
    | _ => false

/-- Notes that cells were read. -/
def visit (run : Run) : Target → Run
  | .cells r => { run with visited := run.table.key r none :: run.visited }
  | _ => run

/-- Notes which name holds an identifier. -/
def setOwner (run : Run) (candidate : Candidate) : Run :=
  { run with owners := Assoc.insert candidate.identifier candidate.name run.owners }

/-- Lists a name that cannot be used, or skips it. -/
def diagnose (run : Run) (candidate : Candidate) (facts : NameFacts) : Run :=
  let d := run.sections.diagnostics
  { run with
    sections.diagnostics :=
      if facts.broken then d.broken candidate.name candidate.refersTo
      else if facts.duplicate then d.duplicate candidate.name candidate.identifier
      else d.ignore }

/-- The body of a property, before inputs take the place of cells. -/
def body (p : Plan) (candidate : Candidate) (t : AliasTable) :
    Content → Except CompileError String × AliasTable × BodyMethod
  | .region g => Body.region p.config p.symbols candidate.name g t
  | .formula text sheet =>
    let (python, t) :=
      Body.formula { symbols := p.symbols, sheet } candidate.name candidate.refersTo text t
    (python, t, .direct)
  | .nothing => (.ok "None", t, .direct)

def count (run : Run) : BodyMethod → Run
  | .direct => run
  | .comprehension => { run with generalized := run.generalized + 1 }
  | .cellByCell => { run with fallbacks := run.fallbacks + 1 }

/-- Adds a property. -/
def addProperty (p : Plan) (candidate : Candidate) (content : Content) (run : Run) : Run :=
  let (python, table, method) := body p candidate run.table content
  let run := { run with table }.count method
  match python with
  | .error e => run.fail e
  | .ok python =>
    let python := Python.substituteInputs table run.inputs python
    { run with sections := run.sections.addProperty candidate.identifier python }.setOwner candidate

/-- Adds a constant. -/
def addConstant (candidate : Candidate) (literal : String) (run : Run) : Run :=
  { run with sections := run.sections.addConstant candidate.identifier literal }.setOwner candidate

def literal (c : Config) : Content → String
  | .region g => g.literal c
  | _ => "None"

/-- Lists a name that no section takes, with a value for formulas that refer to it. -/
def addUnclassified (candidate : Candidate) (run : Run) : Run :=
  let reason := match candidate.target with
    | .cells r => s!"{run.table.key r none} holds no value or formula"
    | _ => s!"nothing usable in {candidate.refersTo}"
  { run with
    sections.diagnostics := run.sections.diagnostics.unclassified candidate.name reason
    warnings := run.warnings ++ [Unclassified.mk candidate.name reason] }.addConstant candidate "None"

/-- Classifies a name and writes it into its section. -/
def process (p : Plan) (w : Workbook) (run : Run) (candidate : Candidate) : Run :=
  let run := { run with names := run.names + 1 }
  match read w candidate with
  | .error e => run.fail e
  | .ok content =>
    let run := run.visit candidate.target
    let facts := facts p.config run candidate content
    match facts.classify with
    | some .diagnostics => run.diagnose candidate facts
    | some .interface => run.setOwner candidate
    | some .properties => run.addProperty p candidate content
    | some .constants => run.addConstant candidate (literal p.config content)
    | none => run.addUnclassified candidate

/-! ### Following references -/

/-- The next cells to follow, if any, with the queue after them. Cells that were read are passed
over. -/
def next (run : Run) : Option String × Run :=
  let (key, table) :=
    { run.table with pending := run.table.pending.dropWhile (· ∈ run.visited) }.pop
  (key, { run with table })

/-- Stops with cells left to follow. -/
def stop (limit : Nat) (run : Run) : Run :=
  { run with table := { run.table with pending := [] } }.fail
    (.unsettled limit (run.table.pending.length + 1))

/-- Classifies the cells of a key. -/
def follow (p : Plan) (w : Workbook) (run : Run) (key : String) : Run :=
  match Reference.parse key with
  | .error e => run.fail (.region key (.reference e))
  | .ok r =>
    let identifier := (run.table.lookup key).getD ""
    { run with discovered := run.discovered + 1 }.process p w
      { name := identifier, identifier, refersTo := key, target := .cells r, discovered := true }

/-- Follows references, at most as many as the first argument says. -/
def discover (p : Plan) (w : Workbook) : Nat → Run → Run
  | left, run =>
    match run.next with
    | (none, run) => run
    | (some key, run) =>
      match left with
      | 0 => run.stop p.config.maxDiscoveries
      | left + 1 => discover p w left (run.follow p w key)

/-- The whole compilation. -/
def compile (p : Plan) (w : Workbook) : Run :=
  let (candidates, run) := bind p w
  discover p w p.config.maxDiscoveries (candidates.foldl (process p w) run)

end Run

end SheetCompiler
