import SheetCompiler.CommandLine.Arguments
import SheetCompiler.CommandLine.Files
import SheetCompiler.Compile.Report
import SheetCompiler.Config.Document
import SheetCompiler.Workbook.Dump

/-!
# Commands

What each command reads, writes and prints. A command that fails prints what it was doing and
the causes, and ends with code 1; wrong arguments end with code 2.
-/

namespace SheetCompiler.CommandLine

/-- The name of the program. -/
def programName : String := "sheet2py"

/-- What a command prints, and the code it ends with. -/
structure Output where
  code : Nat := 0
  stdout : String := ""
  stderr : String := ""
deriving DecidableEq, Repr

/-- What a command could not do, and why; each cause is followed by its own. -/
structure Failure where
  context : String
  causes : List String := []
deriving DecidableEq, Repr

namespace Failure

/-- A cause after its mark, with later lines indented as far. -/
def causeText (mark indent cause : String) : String :=
  mark ++ Text.joined ("\n" ++ indent) ((cause.toList.splitOn '\n').map String.ofList)

/-- The causes; several are numbered. -/
def causeLines : List String → List String
  | [cause] => [causeText "    " "    " cause]
  | causes => causes.mapIdx fun i cause => causeText s!"    {i}: " "       " cause

def text (f : Failure) : String :=
  if f.causes.isEmpty then s!"Error: {f.context}\n"
  else s!"Error: {f.context}\n\nCaused by:\n" ++ Text.joined "\n" (causeLines f.causes) ++ "\n"

/-- Ends after printing some lines. -/
def output (f : Failure) (before : String) : Output := { code := 1, stderr := before ++ f.text }

end Failure

/-- The causes of a file error that is wrapped in one of the compilation. -/
def wrapped (e : FileError) : List String := [s!"I/O error: {e.message}", e.message]

def loadMessage : LoadError → String
  | .unreadable => "Invalid workbook dump"
  | .workbook e => e.message

section

variable {m : Type → Type} [Monad m] (files : Files m)

/-- Reads a file, with what to say and which causes to give if that fails. -/
def readFile (path context : String) (causes : FileError → List String) :
    ExceptT Failure m String := do
  match ← files.read path with
  | .ok text => return text
  | .error e => throw { context, causes := causes e }

/-- Reads a configuration. -/
def readConfig (path : String) : ExceptT Failure m Config := do
  let context := s!"Failed to read configuration '{path}'"
  let text ← readFile files path context wrapped
  match Config.parse text with
  | some c => return c
  | none => throw { context, causes := ["Invalid configuration file"] }

/-- Reads a workbook. -/
def readWorkbook (path : String) : ExceptT Failure m Workbook := do
  let text ← readFile files path s!"Failed to open '{path}'" fun e => [e.message]
  match Workbook.load text with
  | .ok w => return w
  | .error e => throw { context := s!"Failed to load workbook '{path}'", causes := [loadMessage e] }

/-- Writes a file, and the directories it lies in. -/
def writeInto (path text : String) : m (Except FileError Unit) := do
  match (Path.parent? path.toList).filter (!·.isEmpty) with
  | none => files.write path text
  | some parent =>
    match ← files.makeDirectory (String.ofList parent) with
    | .error e => return .error e
    | .ok () => files.write path text

/-- The configuration with what the options say. -/
def GenerateOptions.apply (o : GenerateOptions) (commandLine : String) (c : Config) : Config :=
  { c with
    spreadsheet := o.spreadsheet.getD (if c.spreadsheet.isEmpty then o.workbook else c.spreadsheet)
    output := o.output <|> c.output
    timestamp := c.timestamp && !o.noTimestamp
    commandLine := some commandLine }

/-- The lines that tell how a compilation went. -/
def reportLines (r : Report) : String :=
  String.join (r.warnings.map fun u => s!"Warning: {u.message}\n") ++
  String.join (r.errors.map fun e => s!"Error: {e.message}\n") ++
  s!"{r.summary}\n"

/-- Compiles a workbook into a module. -/
def generate (time commandLine : String) (o : GenerateOptions) : ExceptT Failure m Output := do
  let c ← match o.config with
    | some path => readConfig files path
    | none => pure {}
  let w ← readWorkbook files o.workbook
  match Plan.ofConfig (o.apply commandLine c) with
  | .error e => throw { context := "Invalid configuration", causes := [e.message] }
  | .ok p =>
    let compiled := p.compile w time
    let path := p.names.output
    let lines := reportLines compiled.report
    if compiled.report.isSuccess then
      match ← (writeInto files path compiled.text : m _) with
      | .error e => throw { context := "Generation failed", causes := wrapped e }
      | .ok () => return { stderr := lines ++ s!"Wrote '{path}'\n" }
    else
      let context := s!"{compiled.report.errors.length} errors, nothing written to '{path}'"
      return Failure.output { context } lines

/-- Prints a formula in Python. -/
def translate (formula : String) (sheet : Option String) (globals : List String) :
    Except Failure Output :=
  match Python.Scope.formulaText { symbols := ⟨globals⟩, sheet } formula {} with
  | .ok (python, _) => .ok { stdout := python ++ "\n" }
  | .error e => .error { context := s!"Failed to parse '{formula}'", causes := [e.message] }

/-- Prints a configuration to start from, or writes it to a file. -/
def configTemplate (output : Option String) : ExceptT Failure m Output := do
  let text := Config.template.text ++ "\n"
  match output with
  | none => return { stdout := text }
  | some path =>
    match ← files.write path text with
    | .ok () => return { stderr := s!"Wrote template to '{path}'\n" }
    | .error e => throw { context := s!"Failed to write '{path}'", causes := [e.message] }

/-- How to use a command, or the program. -/
def helpText : Option Verb → String
  | none =>
    "Compile spreadsheet formulas into a Python class\n\n" ++
    s!"Usage: {programName} [OPTIONS] <COMMAND>\n\n" ++
    "Commands:\n" ++
    "  generate         Generate the Python module for a workbook dump\n" ++
    "  translate        Translate one formula and print the Python expression\n" ++
    "  config-template  Print a configuration template\n" ++
    "  help             Print this message or the help of the given subcommand(s)\n\n" ++
    "Options:\n" ++
    "  -v, --verbose...  More logging (-v info, -vv debug, -vvv trace)\n" ++
    "  -h, --help        Print help\n" ++
    "  -V, --version     Print version\n"
  | some .generate =>
    "Generate the Python module for a workbook dump\n\n" ++
    s!"Usage: {programName} generate [OPTIONS] <WORKBOOK>\n\n" ++
    "Arguments:\n" ++
    "  <WORKBOOK>  Workbook dump (JSON)\n\n" ++
    "Options:\n" ++
    "  -c, --config <CONFIG>            Generator configuration (JSON)\n" ++
    "  -v, --verbose...                 More logging (-v info, -vv debug, -vvv trace)\n" ++
    "  -o, --output <OUTPUT>            Output file (default: derived from the spreadsheet name)\n" ++
    "  -s, --spreadsheet <SPREADSHEET>  Spreadsheet name used to derive class and file names " ++
    "(default: the configured spreadsheet, then the workbook path)\n" ++
    "      --no-timestamp               Leave the generation timestamp out of the header\n" ++
    "  -h, --help                       Print help\n"
  | some .translate =>
    "Translate one formula and print the Python expression\n\n" ++
    s!"Usage: {programName} translate [OPTIONS] <FORMULA>\n\n" ++
    "Arguments:\n" ++
    "  <FORMULA>  Formula text, with or without the leading `=`\n\n" ++
    "Options:\n" ++
    "  -s, --sheet <SHEET>      Sheet that unqualified references live on\n" ++
    "  -v, --verbose...         More logging (-v info, -vv debug, -vvv trace)\n" ++
    "  -g, --globals <GLOBALS>  Functions emitted without `self.`\n" ++
    "  -h, --help               Print help\n"
  | some .configTemplate =>
    "Print a configuration template\n\n" ++
    s!"Usage: {programName} config-template [OPTIONS]\n\n" ++
    "Options:\n" ++
    "  -o, --output <OUTPUT>  Write the template to a file instead of stdout\n" ++
    "  -v, --verbose...       More logging (-v info, -vv debug, -vvv trace)\n" ++
    "  -h, --help             Print help\n"

/-- What is printed instead of running a command. -/
def Stop.output : Stop → Output
  | .help topic => { stdout := helpText topic }
  | .version => { stdout := s!"{programName} 0.1.0\n" }
  | .usage .noCommand => { code := 2, stderr := helpText none }
  | .usage e =>
    { code := 2, stderr := s!"error: {e.message}\n\nFor more information, try '--help'.\n" }

/-- Runs a command. -/
def Command.run (time commandLine : String) : Command → ExceptT Failure m Output
  | .generate o => CommandLine.generate files time commandLine o
  | .translate formula sheet globals => ExceptT.mk (pure (CommandLine.translate formula sheet globals))
  | .configTemplate output => CommandLine.configTemplate files output

/-- Runs the program with the given arguments, at the given time. -/
def run (time : String) (arguments : List String) : m Output := do
  match parse arguments with
  | .error stop => return stop.output
  | .ok command =>
    let commandLine := Text.joined " " (programName :: arguments)
    match ← (command.run files time commandLine).run with
    | .ok output => return output
    | .error failure => return failure.output ""

end

end SheetCompiler.CommandLine
