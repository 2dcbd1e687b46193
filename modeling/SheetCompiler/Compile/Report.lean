import SheetCompiler.Class.Module
import SheetCompiler.Compile.Run

/-!
# The result of a compilation

The text of the module, and a report. The module is to be written only if there are no errors.
-/

namespace SheetCompiler

/-- What happened in a compilation. -/
structure Report where
  names : Nat
  discovered : Nat
  inputs : Nat
  outputs : Nat
  properties : Nat
  constants : Nat
  generalized : Nat
  fallbacks : Nat
  errors : List CompileError
  warnings : List Unclassified
deriving DecidableEq, Repr

namespace Report

/-- The module can be written. -/
def isSuccess (r : Report) : Bool := r.errors.isEmpty

def summary (r : Report) : String :=
  s!"{r.names} names ({r.discovered} discovered): {r.inputs} inputs, {r.outputs} outputs, " ++
  s!"{r.properties} properties, {r.constants} constants; " ++
  s!"{r.errors.length} errors, {r.warnings.length} warnings"

end Report

def Run.report (run : Run) : Report where
  names := run.names
  discovered := run.discovered
  inputs := run.sections.interface.inputs.length
  outputs := run.sections.interface.outputs.length
  properties := run.sections.properties.length
  constants := run.sections.constants.length
  generalized := run.generalized
  fallbacks := run.fallbacks
  errors := run.errors
  warnings := run.warnings

/-- The head of the module, with the given time if it is asked for. -/
def Plan.header (p : Plan) (time : String) : Header where
  className := p.names.className
  genClassName := p.names.genClassName
  generatedAt := if p.config.timestamp then some time else none
  commandLine := p.config.commandLine
  imports := p.config.imports

/-- A module with its report. -/
structure Compiled where
  text : String
  report : Report

/-- Compiles a workbook at the given time. -/
def Plan.compile (p : Plan) (w : Workbook) (time : String) : Compiled :=
  let run := Run.compile p w
  ⟨run.sections.moduleText (p.header time), run.report⟩

end SheetCompiler
