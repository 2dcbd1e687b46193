import SheetCompiler.Number.Layout
import SheetCompiler.Number.Scaled
import SheetCompiler.Text.Split
import SheetCompiler.Workbook.Value

/-!
# Python literals

Texts, numbers, tuples and cell values as Python writes them. A text takes one line whatever it
holds; `readString` reads the inside of a literal back.
-/

namespace SheetCompiler.Python

/-- A character inside a string literal, quotes apart. -/
def escapeChar (c : Char) : List Char :=
  if c = '\\' then ['\\', '\\']
  else if c = '\n' then ['\\', 'n']
  else if c = '\r' then ['\\', 'r']
  else [c]

/-- Puts a backslash before double quotes. -/
def escapeQuote (c : Char) : List Char :=
  if c = '"' then ['\\', '"'] else [c]

/-- A text as a string literal: in double quotes, unless it holds double quotes and no single
ones. -/
def stringChars (cs : List Char) : List Char :=
  let inside := cs.flatMap escapeChar
  if !inside.contains '"' then '"' :: inside ++ ['"']
  else if !inside.contains '\'' then '\'' :: inside ++ ['\'']
  else '"' :: inside.flatMap escapeQuote ++ ['"']

/-- A text as a string literal. -/
def stringLiteral (s : String) : String := String.ofList (stringChars s.toList)

/-- The inside of a string literal, read by Python's rules for the escapes used here. -/
def readString : List Char → Option (List Char)
  | [] => some []
  | '\\' :: c :: cs =>
    if c = '\\' ∨ c = '"' then (readString cs).map (c :: ·)
    else if c = 'n' then (readString cs).map ('\n' :: ·)
    else if c = 'r' then (readString cs).map ('\r' :: ·)
    else none
  | c :: cs => if c = '\\' then none else (readString cs).map (c :: ·)

/-- Expressions as a tuple; one alone keeps a comma. -/
def tuple : List String → String
  | [item] => "(" ++ item ++ ",)"
  | items => "(" ++ Text.joined ", " items ++ ")"

/-- A double as a literal or, where there is none, as a call. -/
def floatLiteral (x : Float) : String :=
  if x.isNaN then "float('nan')"
  else if x.isInf then if x > 0 then "float('inf')" else "-float('inf')"
  else Number.Layout.literal.text x

/-- A number of a formula. Digits stay as written; a percentage is divided by a hundred, exactly
where a decimal can hold it, otherwise as a double. -/
def numberLiteral (digits : String) (percent : Bool) : String :=
  if percent then
    let cs := digits.toList.dropWhile (· == '+')
    match Number.Scaled.ofChars? cs with
    | some x => String.ofList x.percent.toChars
    | none =>
      match Number.readFloat cs with
      | some x => Number.Layout.literal.text (x / 100.0)
      | none => digits
  else digits

/-- A cell value as a literal. A number in a date format is wrapped like a date, and an error
value has no counterpart. -/
def valueLiteral (asDate : Bool) : CellValue → String
  | .empty | .error _ => "None"
  | .boolean b => if b then "True" else "False"
  | .number x => if asDate then "ex_datetime(" ++ floatLiteral x ++ ")" else floatLiteral x
  | .date t => "ex_datetime(" ++ floatLiteral t.serial ++ ")"
  | .string s => stringLiteral s

end SheetCompiler.Python
