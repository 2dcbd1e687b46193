import SheetCompiler.Text.Split

/-!
# Arguments

A command, its options and its operands. An option is written `--name value` or `--name=value`,
or with a letter as `-n value`, `-nvalue` or `-n=value`; letters of options without a value may
be written together. A value of its own does not start with a dash, unless it is a dash alone.
After `--` all arguments are operands. Arguments are taken from left to right, and the first
that asks for help, asks for the version or is wrong decides.
-/

namespace SheetCompiler.CommandLine

/-- The options of all commands. -/
inductive Switch where
  | verbose
  | help
  | version
  | config
  | output
  | spreadsheet
  | noTimestamp
  | sheet
  | globals
deriving DecidableEq, Repr

namespace Switch

def long : Switch → String
  | verbose => "verbose"
  | help => "help"
  | version => "version"
  | config => "config"
  | output => "output"
  | spreadsheet => "spreadsheet"
  | noTimestamp => "no-timestamp"
  | sheet => "sheet"
  | globals => "globals"

def letter? : Switch → Option Char
  | verbose => some 'v'
  | help => some 'h'
  | version => some 'V'
  | config => some 'c'
  | output => some 'o'
  | spreadsheet => some 's'
  | noTimestamp => none
  | sheet => some 's'
  | globals => some 'g'

def takesValue : Switch → Bool
  | config | output | spreadsheet | sheet | globals => true
  | _ => false

/-- The value is a path, and so not empty. -/
def isPath (s : Switch) : Bool := s == config || s == output

def mayRepeat (s : Switch) : Bool := s == verbose || s == globals

end Switch

/-- The commands. -/
inductive Verb where
  | generate
  | translate
  | configTemplate
deriving DecidableEq, Repr

namespace Verb

def ofName? (name : String) : Option Verb :=
  if name = "generate" ∨ name = "gen" then some generate
  else if name = "translate" then some translate
  else if name = "config-template" then some configTemplate
  else none

/-- The options of a command. -/
def switches : Verb → List Switch
  | generate => [.config, .output, .spreadsheet, .noTimestamp, .verbose, .help]
  | translate => [.sheet, .globals, .verbose, .help]
  | configTemplate => [.output, .verbose, .help]

/-- The operand of a command, if it has one. -/
def operand? : Verb → Option String
  | generate => some "WORKBOOK"
  | translate => some "FORMULA"
  | configTemplate => none

end Verb

/-- What is wrong with the arguments. -/
inductive UsageError where
  | noCommand
  | unknownCommand (name : String)
  | unknownOption (argument : String)
  | noValue (s : Switch)
  | needlessValue (s : Switch)
  | emptyValue (name : String)
  | repeated (s : Switch)
  | noOperand (name : String)
  | extraOperand (text : String)
deriving DecidableEq, Repr

def UsageError.message : UsageError → String
  | noCommand => "a command is required"
  | unknownCommand name => s!"unrecognized command '{name}'"
  | unknownOption argument => s!"unexpected argument '{argument}'"
  | noValue s => s!"'--{s.long}' needs a value"
  | needlessValue s => s!"'--{s.long}' takes no value"
  | emptyValue name => s!"the value of '{name}' is empty"
  | repeated s => s!"'--{s.long}' cannot be used more than once"
  | noOperand name => s!"<{name}> is required"
  | extraOperand text => s!"unexpected argument '{text}'"

/-- Why there is no command to run. -/
inductive Stop where
  /-- Help was asked for, on one command or on all. -/
  | help (topic : Option Verb)
  | version
  | usage (e : UsageError)
deriving DecidableEq, Repr

/-- The options and operands taken so far. -/
structure Given where
  values : List (Switch × String) := []
  operands : List String := []

namespace Given

def has (g : Given) (s : Switch) : Bool := g.values.any (·.1 == s)

/-- All values of an option. -/
def valuesOf (g : Given) (s : Switch) : List String :=
  g.values.filterMap fun (other, value) => if other = s then some value else none

def value? (g : Given) (s : Switch) : Option String := (g.valuesOf s).head?

/-- Takes an option. -/
def add (g : Given) (s : Switch) (value : String) : Except Stop Given :=
  if s.isPath && value.isEmpty then .error (.usage (.emptyValue s.long))
  else if !s.mayRepeat && g.has s then .error (.usage (.repeated s))
  else .ok { g with values := g.values ++ [(s, value)] }

/-- Takes an option without a value. -/
def addBare (topic : Option Verb) (g : Given) (s : Switch) : Except Stop Given :=
  match s with
  | .help => .error (.help topic)
  | .version => .error .version
  | s => g.add s ""

/-- Takes an operand of a command. -/
def addOperand (v : Verb) (g : Given) (text : String) : Except Stop Given :=
  match v.operand?, g.operands with
  | some name, [] =>
    if v = .generate ∧ text = "" then .error (.usage (.emptyValue name))
    else .ok { g with operands := [text] }
  | _, _ => .error (.usage (.extraOperand text))

/-- Takes an option by its name, with its value or still to get one. -/
def addLong (topic : Option Verb) (switches : List Switch) (g : Given) (argument : List Char) :
    Except Stop (Given × Option Switch) :=
  let (name, value) := match Text.cutFirst '=' argument with
    | some (name, value) => (name, some (String.ofList value))
    | none => (argument, none)
  match switches.find? fun s => s.long.toList == name, value with
  | none, _ => .error (.usage (.unknownOption ("--" ++ String.ofList argument)))
  | some s, some value =>
    if s.takesValue then (g.add s value).map (·, none) else .error (.usage (.needlessValue s))
  | some s, none =>
    if s.takesValue then .ok (g, some s) else (g.addBare topic s).map (·, none)

/-- Takes options by their letters; the last one may have its value, or be still to get one. -/
def addLetters (topic : Option Verb) (switches : List Switch) (g : Given) :
    List Char → Except Stop (Given × Option Switch)
  | [] => .ok (g, none)
  | c :: cs =>
    match switches.find? fun s => s.letter? == some c with
    | none => .error (.usage (.unknownOption (String.ofList ['-', c])))
    | some s =>
      if s.takesValue then
        if cs.isEmpty then .ok (g, some s)
        else (g.add s (String.ofList (Text.dropMark '=' cs))).map (·, none)
      else do
        let g ← g.addBare topic s
        g.addLetters topic switches cs

end Given

/-- The argument is an option, or the end of options. -/
def isOption (argument : String) : Bool :=
  match argument.toList with
  | '-' :: _ :: _ => true
  | _ => false

/-- Takes one argument that is an option. -/
def Given.addOption (topic : Option Verb) (switches : List Switch) (g : Given) (argument : String) :
    Except Stop (Given × Option Switch) :=
  match argument.toList with
  | '-' :: '-' :: name => g.addLong topic switches name
  | '-' :: letters => g.addLetters topic switches letters
  | _ => .ok (g, none)

/-- Takes the arguments of a command, the first as the value of an option that waits for one. -/
def collect (v : Verb) : Option Switch → Given → List String → Except Stop Given
  | none, g, [] => .ok g
  | some s, _, [] => .error (.usage (.noValue s))
  | some s, g, argument :: rest =>
    if isOption argument then .error (.usage (.noValue s))
    else do
      let g ← g.add s argument
      collect v none g rest
  | none, g, argument :: rest =>
    if argument = "--" then rest.foldlM (Given.addOperand v) g
    else if isOption argument then do
      let (g, waiting) ← g.addOption (some v) v.switches argument
      collect v waiting g rest
    else do
      let g ← g.addOperand v argument
      collect v none g rest

/-- Where to compile from and to. -/
structure GenerateOptions where
  workbook : String
  config : Option String := none
  output : Option String := none
  spreadsheet : Option String := none
  noTimestamp : Bool := false
deriving DecidableEq, Repr

/-- A command with all it needs. -/
inductive Command where
  | generate (o : GenerateOptions)
  | translate (formula : String) (sheet : Option String) (globals : List String)
  | configTemplate (output : Option String)
deriving DecidableEq, Repr

/-- Values that may each be several, separated by commas. -/
def separated (values : List String) : List String :=
  values.flatMap fun value => (value.toList.splitOn ',').map String.ofList

/-- The command of what was given. -/
def Verb.command (v : Verb) (g : Given) : Except Stop Command :=
  match v, g.operands with
  | .generate, workbook :: _ =>
    .ok (.generate {
      workbook, config := g.value? .config, output := g.value? .output,
      spreadsheet := g.value? .spreadsheet, noTimestamp := g.has .noTimestamp })
  | .translate, formula :: _ =>
    .ok (.translate formula (g.value? .sheet) (separated (g.valuesOf .globals)))
  | .configTemplate, _ => .ok (.configTemplate (g.value? .output))
  | v, [] => .error (.usage (.noOperand (v.operand?.getD "")))

/-- What to say when help is asked for by name. -/
def helpTopic : List String → Stop
  | [] | ["help"] => .help none
  | [name] =>
    match Verb.ofName? name with
    | some v => .help (some v)
    | none => .usage (.unknownCommand name)
  | _ :: name :: _ => .usage (.unknownCommand name)

/-- Reads the arguments. -/
def parse : List String → Except Stop Command
  | [] => .error (.usage .noCommand)
  | argument :: rest =>
    if argument = "--" then
      .error (.usage (rest.head?.elim .noCommand .unknownCommand))
    else if isOption argument then do
      let _ ← ({} : Given).addOption none [.verbose, .help, .version] argument
      parse rest
    else
      match Verb.ofName? argument with
      | some v => do
        let g ← collect v none {} rest
        v.command g
      | none =>
        .error (if argument = "help" then helpTopic rest else .usage (.unknownCommand argument))

end SheetCompiler.CommandLine
