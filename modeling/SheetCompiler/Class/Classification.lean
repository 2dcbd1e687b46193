/-!
# Sections of the generated class

A name is offered to the sections in order, and the first one that accepts it takes it
(`classify`). The same order is used when the sections are written out (`SectionKind.all`).
-/

namespace SheetCompiler

/-- A part of the generated class. -/
inductive SectionKind where
  /-- Names with nothing usable behind them, listed as comments. -/
  | diagnostics
  /-- Parameters of the constructor, and the results. -/
  | interface
  /-- Formulas, as properties that are computed once. -/
  | properties
  /-- Values, as attributes of the class. -/
  | constants
deriving DecidableEq, Repr

namespace SectionKind

/-- The sections in the order they are written. -/
def all : List SectionKind := [diagnostics, interface, properties, constants]

/-- The comment that opens the section. -/
def comment : SectionKind → String
  | diagnostics => "EXCEL VARIABLES WITH NO USABLE FORMULA"
  | interface => "External interface"
  | properties => "PROPERTIES"
  | constants => "CONSTANTS"

def name : SectionKind → String
  | diagnostics => "diagnostics"
  | interface => "interface"
  | properties => "properties"
  | constants => "constants"

end SectionKind

/-- What is known about a name when it is classified. -/
structure NameFacts where
  /-- Found in a formula, and not named in the workbook. -/
  discovered : Bool := false
  /-- Refers to an unknown name. -/
  unresolved : Bool := false
  /-- Names a print area or print titles. -/
  builtin : Bool := false
  /-- Refers to a deleted cell. -/
  broken : Bool := false
  onIgnoredSheet : Bool := false
  /-- Another name has the same identifier. -/
  duplicate : Bool := false
  /-- A parameter of the constructor. -/
  isInput : Bool := false
  hasFormula : Bool := false
  hasValue : Bool := false
deriving DecidableEq, Repr

namespace NameFacts

/-- A name from the workbook that has nothing usable behind it. -/
def isUnusable (f : NameFacts) : Bool :=
  !f.discovered && (f.unresolved || f.builtin || f.broken || f.onIgnoredSheet || f.duplicate)

/-- Whether a section takes a name with these facts. -/
def fits (f : NameFacts) : SectionKind → Bool
  | .diagnostics => f.isUnusable
  | .interface => f.isInput
  | .properties => f.hasFormula
  | .constants => f.hasValue || f.discovered

/-- The first section that takes the name. -/
def classify (f : NameFacts) : Option SectionKind := SectionKind.all.find? f.fits

end NameFacts

end SheetCompiler
