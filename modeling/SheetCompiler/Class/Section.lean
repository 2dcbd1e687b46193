import SheetCompiler.Class.Classification
import SheetCompiler.Text.Wrap

/-!
# The contents of the sections

Each section collects declarations and is written as an indented part of the class: a comment
line, and then complete statements.
-/

namespace SheetCompiler

/-- Names that could not be used. -/
structure Diagnostics where
  /-- One comment for each name that is listed. -/
  lines : List String := []
  /-- How many names are skipped silently. -/
  ignored : Nat := 0
deriving DecidableEq, Repr

namespace Diagnostics

def ignore (d : Diagnostics) : Diagnostics := { d with ignored := d.ignored + 1 }

def addLine (d : Diagnostics) (line : String) : Diagnostics := { d with lines := d.lines ++ [line] }

/-- A name that refers to a deleted cell. -/
def broken (d : Diagnostics) (name refersTo : String) : Diagnostics :=
  d.addLine s!"# {name} = '{refersTo}'"

/-- A name whose identifier is taken. -/
def duplicate (d : Diagnostics) (name identifier : String) : Diagnostics :=
  d.addLine s!"# {name} duplicates {identifier}"

/-- A name that no section takes. -/
def unclassified (d : Diagnostics) (name reason : String) : Diagnostics :=
  d.addLine s!"# {name}: {reason}"

def body (d : Diagnostics) : String :=
  String.join (d.lines.map fun line => s!"    {line}\n")

end Diagnostics

/-- Adds a name at the end unless it is there. -/
def addName (names : List String) (name : String) : List String :=
  if name ∈ names then names else names ++ [name]

/-- Parameters of the constructor, and results. -/
structure Interface where
  inputs : List String := []
  outputs : List String := []
deriving DecidableEq, Repr

namespace Interface

def addInput (i : Interface) (name : String) : Interface :=
  { i with inputs := addName i.inputs name }

def addOutput (i : Interface) (name : String) : Interface :=
  { i with outputs := addName i.outputs name }

def hasInput (i : Interface) (name : String) : Bool := name ∈ i.inputs

def hasOutput (i : Interface) (name : String) : Bool := name ∈ i.outputs

/-- Names in quotes, separated by commas. -/
def quotedNames (names : List String) : String :=
  Text.joined ", " (names.map fun name => s!"'{name}'")

/-- A Python set of names. -/
def nameSet (names : List String) : String :=
  if names.isEmpty then "set()" else s!"\x7b{quotedNames names}\x7d"

/-- A Python list of names. -/
def nameList (names : List String) : String := s!"[{quotedNames names}]"

def body (i : Interface) : String :=
  s!"    inputs = {nameSet i.inputs}\n    outputs = {nameSet i.outputs}\n\n" ++
  "    def __init__(self,\n" ++
  String.join (i.inputs.map fun name => s!"        {name},\n") ++
  "        **args):\n" ++
  String.join (i.inputs.map fun name => s!"        self.{name} = {name}\n") ++
  "        self.private_construction()\n\n" ++
  "    def calculate(self):\n" ++
  "        return namedtuple('CalcResult',\n" ++
  Text.wrap (nameList i.outputs) 120 "            " ++ ")(\n" ++
  String.join (i.outputs.map fun name => s!"            {name}=self.{name},\n") ++
  "    )\n\n"

end Interface

/-- An identifier with the Python text it stands for. -/
structure Declaration where
  identifier : String
  text : String
deriving DecidableEq, Repr

namespace Declaration

/-- The text of the first declaration of an identifier. -/
def textOf (ds : List Declaration) (identifier : String) : Option String :=
  (ds.find? (·.identifier == identifier)).map (·.text)

/-- A property that keeps its value once it is computed. -/
def asProperty (d : Declaration) : String :=
  "    @property\n" ++
  s!"    def {d.identifier}(self):\n" ++
  s!"        if self._{d.identifier} is not None:\n" ++
  s!"            return self._{d.identifier}\n" ++
  s!"        self._{d.identifier} = {d.text}\n" ++
  s!"        return self._{d.identifier}\n\n"

/-- An attribute of the class. -/
def asConstant (d : Declaration) : String := s!"    {d.identifier} = {d.text}\n"

/-- The properties, and a method that clears what they keep. -/
def propertiesBody (ds : List Declaration) : String :=
  String.join (ds.map asProperty) ++
  "\n\n    def private_construction(self):\n" ++
  (if ds.isEmpty then "        pass\n" else "") ++
  String.join (ds.map fun d => s!"        self._{d.identifier} = None\n") ++
  "\n"

def constantsBody (ds : List Declaration) : String := String.join (ds.map asConstant)

end Declaration

/-- All sections of a class. -/
structure Sections where
  diagnostics : Diagnostics := {}
  interface : Interface := {}
  properties : List Declaration := []
  constants : List Declaration := []
deriving DecidableEq, Repr

namespace Sections

def addProperty (s : Sections) (identifier text : String) : Sections :=
  { s with properties := s.properties ++ [⟨identifier, text⟩] }

def addConstant (s : Sections) (identifier text : String) : Sections :=
  { s with constants := s.constants ++ [⟨identifier, text⟩] }

/-- The statements of a section. -/
def body (s : Sections) : SectionKind → String
  | .diagnostics => s.diagnostics.body
  | .interface => s.interface.body
  | .properties => Declaration.propertiesBody s.properties
  | .constants => Declaration.constantsBody s.constants

/-- A section with its comment. -/
def render (s : Sections) (kind : SectionKind) : String :=
  s!"\n    # {kind.comment}\n\n" ++ s.body kind

end Sections

end SheetCompiler
