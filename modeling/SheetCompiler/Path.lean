import SheetCompiler.Text.Split

/-!
# File paths

Paths with components between slashes. Empty components and dots say nothing and are passed over
at the end of a path, except for a dot that a relative path starts with.
-/

namespace SheetCompiler.Path

/-- A path taken apart at its slashes. -/
structure Parts where
  isRooted : Bool
  components : List (List Char)

/-- The component names nothing. -/
def isVoid (component : List Char) : Bool := component == [] || component == ['.']

/-- Drops the components at the end that name nothing. -/
def Parts.trimEnd (p : Parts) : Parts :=
  let lead := if !p.isRooted && p.components.head? == some ['.'] then 1 else 0
  { p with
    components := p.components.take lead ++
      ((p.components.drop lead).reverse.dropWhile isVoid).reverse }

/-- The parts of a path up to its last component. -/
def parts (path : List Char) : Parts :=
  match path with
  | '/' :: rest => Parts.trimEnd ⟨true, rest.splitOn '/'⟩
  | _ => Parts.trimEnd ⟨false, path.splitOn '/'⟩

/-- Components with slashes between them. -/
def joinComponents : List (List Char) → List Char
  | [] => []
  | [c] => c
  | c :: cs => c ++ '/' :: joinComponents cs

def Parts.toChars (p : Parts) : List Char :=
  (if p.isRooted then ['/'] else []) ++ joinComponents p.components

/-- The last component, if it is the name of a file. -/
def fileName? (path : List Char) : Option (List Char) :=
  match (parts path).components.getLast? with
  | some c => if c == ['.'] || c == ['.', '.'] then none else some c
  | none => none

/-- The path of the directory that holds the last component. -/
def parent? (path : List Char) : Option (List Char) :=
  let p := parts path
  if p.components.isEmpty then none
  else some { p with components := p.components.dropLast }.trimEnd.toChars

/-- A file as seen from a directory; one with a path from the root stays where it is. -/
def join (directory file : List Char) : List Char :=
  if file.head? == some '/' then file
  else if directory.isEmpty || directory.getLast? == some '/' then directory ++ file
  else directory ++ '/' :: file

end SheetCompiler.Path
