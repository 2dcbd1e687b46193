import SheetCompiler.Path

/-!
# Files

What commands need of a file system (`Files`), and a file system in memory (`Directory`), on
which they can run without touching the disk.
-/

namespace SheetCompiler.CommandLine

/-- Why a file cannot be read or written. -/
inductive FileError where
  | notFound
  | taken
  | notDirectory
  | isDirectory
  | other (text : String)
deriving DecidableEq, Repr

def FileError.message : FileError → String
  | notFound => "No such file or directory (os error 2)"
  | taken => "File exists (os error 17)"
  | notDirectory => "Not a directory (os error 20)"
  | isDirectory => "Is a directory (os error 21)"
  | other text => text

/-- Access to files by path. -/
structure Files (m : Type → Type) where
  read : String → m (Except FileError String)
  /-- Puts a text in place of what the file held; its directory has to be there. -/
  write : String → String → m (Except FileError Unit)
  /-- Makes a directory and those it lies in. -/
  makeDirectory : String → m (Except FileError Unit)

/-- What a path leads to. -/
inductive Entry where
  | file (text : String)
  | directory
deriving DecidableEq, Repr

/-- Files and directories by the components of their paths, and where relative paths start. -/
structure Directory where
  entries : List (List (List Char) × Entry) := []
  here : List (List Char) := []

namespace Directory

def entry? (d : Directory) (place : List (List Char)) : Option Entry :=
  if place.isEmpty then some .directory else (d.entries.find? (·.1 == place)).map (·.2)

def setEntry (d : Directory) (place : List (List Char)) (e : Entry) : Directory :=
  { d with entries := (place, e) :: d.entries.filter (·.1 != place) }

/-- The place that one more component leads to. -/
def step (place : List (List Char)) (component : List Char) : List (List Char) :=
  if Path.isVoid component then place
  else if component == ['.', '.'] then place.dropLast
  else place ++ [component]

/-- Follows components from a place; all but the last have to lead to directories. -/
def walk (d : Directory) : List (List Char) → List (List Char) → Except FileError (List (List Char))
  | place, [] => .ok place
  | place, c :: cs =>
    match d.entry? place with
    | none => .error .notFound
    | some (.file _) => .error .notDirectory
    | some .directory => d.walk (step place c) cs

/-- Where a path starts, and its components. -/
def start (d : Directory) (path : String) : List (List Char) × List (List Char) :=
  match path.toList with
  | '/' :: rest => ([], rest.splitOn '/')
  | cs => (d.here, cs.splitOn '/')

def read (d : Directory) (path : String) : Except FileError String :=
  if path.isEmpty then .error .notFound
  else do
    let (place, components) := d.start path
    match d.entry? (← d.walk place components) with
    | none => .error .notFound
    | some .directory => .error .isDirectory
    | some (.file text) => .ok text

/-- Writes a file; a path that ends like that of a directory names none. -/
def write (d : Directory) (path text : String) : Except FileError Directory :=
  if path.isEmpty then .error .notFound
  else do
    let (place, components) := d.start path
    let named := (components.reverse.dropWhile (· == [])).reverse
    let target ← d.walk place named
    if target.isEmpty || named.length < components.length then .error .isDirectory
    else
      match d.entry? target with
      | some .directory => .error .isDirectory
      | _ => .ok (d.setEntry target (.file text))

/-- Makes the directories on the way from a place. -/
def makeFrom (d : Directory) (place : List (List Char)) : List (List Char) → Except FileError Directory
  | [] => .ok d
  | c :: cs =>
    let place := step place c
    match d.entry? place with
    | none => (d.setEntry place .directory).makeFrom place cs
    | some .directory => d.makeFrom place cs
    | some (.file _) => .error (if cs.all Path.isVoid then .taken else .notDirectory)

def makeDirectory (d : Directory) (path : String) : Except FileError Directory :=
  let (place, components) := d.start path
  d.makeFrom place components

/-- Puts a file where relative paths start, with the directories on its way. -/
def add (d : Directory) (path text : String) : Directory :=
  let made := (Path.parent? path.toList).elim d fun parent =>
    (d.makeDirectory (String.ofList parent)).toOption.getD d
  (made.write path text).toOption.getD made

/-- The files below where relative paths start, by relative path. -/
def files (d : Directory) : List (String × String) :=
  d.entries.filterMap fun (place, e) =>
    match e with
    | .file text =>
      if d.here.isPrefixOf place then
        some (String.ofList (Path.joinComponents (place.drop d.here.length)), text)
      else none
    | .directory => none

/-- Keeps the directory that an access leaves behind, unless it fails. -/
def update (result : Directory → Except FileError Directory) : StateM Directory (Except FileError Unit) :=
  fun d =>
    match result d with
    | .ok d => (.ok (), d)
    | .error e => (.error e, d)

/-- Access to the files of a directory in memory. -/
def access : Files (StateM Directory) where
  read path := fun d => (d.read path, d)
  write path text := update (·.write path text)
  makeDirectory path := update (·.makeDirectory path)

end Directory

end SheetCompiler.CommandLine
