import SheetCompiler.Calendar.DateTime
import SheetCompiler.Json.Number
import SheetCompiler.Json.Record
import SheetCompiler.Json.Writer

/-!
# Cell values

What a cell without a formula holds. In a dump the plain values are JSON scalars, and dates and
errors are objects with one member (`toJson`, `ofJson?`).
-/

namespace SheetCompiler

inductive CellValue where
  | empty
  | boolean (value : Bool)
  | number (value : Float)
  | date (moment : DateTime)
  /-- An error value such as `#N/A`. -/
  | error (text : String)
  | string (text : String)

namespace CellValue

def isEmpty : CellValue → Bool
  | empty => true
  | _ => false

def isError : CellValue → Bool
  | error _ => true
  | _ => false

/-- The number of a number or a date. -/
def number? : CellValue → Option Float
  | number x => some x
  | date t => some t.serial
  | _ => none

def string? : CellValue → Option String
  | string s => some s
  | _ => none

/-- The kind of value, in words. -/
def typeName : CellValue → String
  | empty => "empty"
  | boolean _ => "boolean"
  | number _ => "number"
  | date _ => "date"
  | error _ => "error"
  | string _ => "string"

/-- What the cell shows. -/
def displayText : CellValue → String
  | empty => ""
  | boolean b => if b then "TRUE" else "FALSE"
  | number x => Number.Layout.plain.text x
  | date t => t.displayText
  | error e => e
  | string s => s

/-- The value in a dump. -/
def toJson : CellValue → Json
  | empty => .null
  | boolean b => .bool b
  | number x => .ofFloat x
  | date t => .ofMembers [("date", .ofText t.documentText)]
  | error e => .ofMembers [("error", .ofText e)]
  | string s => .ofText s

end CellValue

namespace Json

mutual

/-- Every number and every string in the value can be read. -/
def isReadable : Json → Bool
  | number lexeme => (lexemeFloat? lexeme).isSome
  | string lexeme => (unescape lexeme).isSome
  | array items => areReadable items
  | object members => membersReadable members
  | _ => true

def areReadable : List Json → Bool
  | [] => true
  | j :: js => j.isReadable && areReadable js

def membersReadable : List (List Char × Json) → Bool
  | [] => true
  | (key, j) :: js => (unescape key).isSome && j.isReadable && membersReadable js

end

/-- How deep a value that is read may be nested. -/
def maxDepth : Nat := 127

end Json

namespace CellValue

/-- The text of a member that stands once. -/
def memberText? (key : String) (members : List (String × Json)) : Option String := do
  let j ← (← Json.onlyMember key members)
  j.text?

/-- A date if there is a valid one, otherwise an error value. -/
def ofMembers? (members : List (String × Json)) : Option CellValue :=
  match (memberText? "date" members).bind DateTime.parse with
  | some t => some (date t)
  | none => (memberText? "error" members).map error

/-- The value that stands in a dump below `outer` arrays and objects. -/
def ofJson? (outer : Nat) (j : Json) : Option CellValue :=
  if Json.maxDepth < outer + j.depth || !j.isReadable then none
  else
    match j with
    | .null => some empty
    | .bool b => some (boolean b)
    | .number lexeme => (Json.lexemeFloat? lexeme).map number
    | .string lexeme => (Json.unescape lexeme).map fun cs => string (String.ofList cs)
    | .object members => (Json.readKeys members).bind ofMembers?
    | .array _ => none

end CellValue

end SheetCompiler
