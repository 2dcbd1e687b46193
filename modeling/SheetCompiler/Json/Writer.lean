import SheetCompiler.Json.Basic

/-!
# Writing JSON texts

`render` writes no blanks at all, `pretty` one member or item a line, indented by two.
-/

namespace SheetCompiler.Json

/-- A string with its quotes. -/
def quoted (lexeme : List Char) : List Char := '"' :: lexeme ++ ['"']

mutual

/-- Writes a value without blanks. -/
def render : Json → List Char
  | null => ['n', 'u', 'l', 'l']
  | bool true => ['t', 'r', 'u', 'e']
  | bool false => ['f', 'a', 'l', 's', 'e']
  | number lexeme => lexeme
  | string lexeme => quoted lexeme
  | array items => '[' :: renderItems items ++ [']']
  | object members => '{' :: renderMembers members ++ ['}']

def renderItems : List Json → List Char
  | [] => []
  | [j] => j.render
  | j :: js => j.render ++ ',' :: renderItems js

def renderMembers : List (List Char × Json) → List Char
  | [] => []
  | [(key, j)] => quoted key ++ ':' :: j.render
  | (key, j) :: js => quoted key ++ ':' :: j.render ++ ',' :: renderMembers js

end

/-- A line feed and the blanks that start a line. -/
def newLine (level : Nat) : List Char := '\n' :: List.replicate (2 * level) ' '

mutual

/-- Writes a value that starts `level` steps to the right. -/
def prettyAt (level : Nat) : Json → List Char
  | array [] => ['[', ']']
  | array items => '[' :: prettyItems (level + 1) items ++ newLine level ++ [']']
  | object [] => ['{', '}']
  | object members => '{' :: prettyMembers (level + 1) members ++ newLine level ++ ['}']
  | null => ['n', 'u', 'l', 'l']
  | bool true => ['t', 'r', 'u', 'e']
  | bool false => ['f', 'a', 'l', 's', 'e']
  | number lexeme => lexeme
  | string lexeme => quoted lexeme

def prettyItems (level : Nat) : List Json → List Char
  | [] => []
  | [j] => newLine level ++ prettyAt level j
  | j :: js => newLine level ++ prettyAt level j ++ ',' :: prettyItems level js

def prettyMembers (level : Nat) : List (List Char × Json) → List Char
  | [] => []
  | [(key, j)] => newLine level ++ quoted key ++ ':' :: ' ' :: prettyAt level j
  | (key, j) :: js =>
    newLine level ++ quoted key ++ ':' :: ' ' :: prettyAt level j ++ ',' :: prettyMembers level js

end

/-- The text of a value without blanks. -/
def compactText (j : Json) : String := String.ofList j.render

/-- The text of a value, one member or item a line. -/
def prettyText (j : Json) : String := String.ofList (prettyAt 0 j)

/-- An object with the given keys. -/
def ofMembers (members : List (String × Json)) : Json :=
  object (members.map fun (key, j) => (escape key.toList, j))

end SheetCompiler.Json
