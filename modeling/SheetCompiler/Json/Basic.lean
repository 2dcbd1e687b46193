/-!
# JSON values

The tree of a JSON text. Numbers and strings keep their written form and are read where a field
asks for them: a field that nobody reads may hold a number too large for a double, or an escape
that names no character. `ofText` and `text?` go between texts and their written form, and
`ofNat` and `natural?` between natural numbers and theirs.
-/

namespace SheetCompiler

/-- A JSON value, its scalars as written. -/
inductive Json where
  | null
  | bool (value : Bool)
  /-- The characters of the number. -/
  | number (lexeme : List Char)
  /-- The characters between the quotes. -/
  | string (lexeme : List Char)
  | array (items : List Json)
  | object (members : List (List Char × Json))

namespace Json

mutual

/-- How deep arrays and objects are nested. -/
def depth : Json → Nat
  | array items => 1 + depthItems items
  | object members => 1 + depthMembers members
  | _ => 0

def depthItems : List Json → Nat
  | [] => 0
  | j :: js => max j.depth (depthItems js)

def depthMembers : List (List Char × Json) → Nat
  | [] => 0
  | (_, j) :: js => max j.depth (depthMembers js)

end

/-- Lower case hexadecimal digit. -/
def hexDigit (n : Nat) : Char :=
  if n < 10 then Char.ofNat (48 + n) else Char.ofNat (87 + n)

/-- A character as it stands between quotes. -/
def escapeChar (c : Char) : List Char :=
  if c = '"' then ['\\', '"']
  else if c = '\\' then ['\\', '\\']
  else if c.toNat = 8 then ['\\', 'b']
  else if c.toNat = 12 then ['\\', 'f']
  else if c = '\n' then ['\\', 'n']
  else if c = '\r' then ['\\', 'r']
  else if c = '\t' then ['\\', 't']
  else if c.toNat < 32 then ['\\', 'u', '0', '0', hexDigit (c.toNat / 16), hexDigit (c.toNat % 16)]
  else [c]

/-- A text as it stands between quotes. -/
def escape (cs : List Char) : List Char := cs.flatMap escapeChar

/-- The value of a hexadecimal digit. -/
def hexValue? (c : Char) : Option Nat :=
  if c.isDigit then some (c.toNat - 48)
  else if 'a' ≤ c ∧ c ≤ 'f' then some (c.toNat - 87)
  else if 'A' ≤ c ∧ c ≤ 'F' then some (c.toNat - 55)
  else none

/-- The number that four hexadecimal digits write. -/
def hexValue4? (a b c d : Char) : Option Nat := do
  return (((← hexValue? a) * 16 + (← hexValue? b)) * 16 + (← hexValue? c)) * 16 + (← hexValue? d)

/-- The character after a backslash, other than `u`. -/
def unescapeChar? (c : Char) : Option Char :=
  if c = '"' ∨ c = '\\' ∨ c = '/' then some c
  else if c = 'b' then some (Char.ofNat 8)
  else if c = 'f' then some (Char.ofNat 12)
  else if c = 'n' then some '\n'
  else if c = 'r' then some '\r'
  else if c = 't' then some '\t'
  else none

/-- The character of a code unit that is no half of a pair. -/
def unitChar? (n : Nat) : Option Char :=
  if 0xD800 ≤ n ∧ n ≤ 0xDFFF then none else some (Char.ofNat n)

/-- The character that two code units write together. -/
def pairChar? (high low : Nat) : Option Char :=
  if 0xD800 ≤ high ∧ high ≤ 0xDBFF ∧ 0xDC00 ≤ low ∧ low ≤ 0xDFFF then
    some (Char.ofNat (0x10000 + (high - 0xD800) * 1024 + (low - 0xDC00)))
  else none

/-- Reads the characters between quotes; half of a pair alone names no character. -/
def unescape : List Char → Option (List Char)
  | [] => some []
  | '\\' :: 'u' :: a :: b :: c :: d :: cs => do
    let unit ← hexValue4? a b c d
    if 0xD800 ≤ unit ∧ unit ≤ 0xDBFF then
      match cs with
      | '\\' :: 'u' :: e :: f :: g :: h :: cs =>
        let x ← pairChar? unit (← hexValue4? e f g h)
        return x :: (← unescape cs)
      | _ => none
    else
      let x ← unitChar? unit
      return x :: (← unescape cs)
  | '\\' :: c :: cs => do
    let x ← unescapeChar? c
    return x :: (← unescape cs)
  | c :: cs =>
    if c = '\\' then none else (unescape cs).map (c :: ·)

/-- The string that holds a text. -/
def ofText (s : String) : Json := string (escape s.toList)

/-- The text that a string holds. -/
def text? : Json → Option String
  | string lexeme => (unescape lexeme).map String.ofList
  | _ => none

/-- The number that a natural number writes. -/
def ofNat (n : Nat) : Json := number (Nat.toDigits 10 n)

/-- A whole number that fits in 64 bits, written without sign, point or exponent. -/
def natural? : Json → Option Nat
  | number lexeme =>
    let n := lexeme.foldl (fun n c => n * 10 + (c.toNat - 48)) 0
    if lexeme.all Char.isDigit && n < Nat.pow 2 64 then some n else none
  | _ => none

def bool? : Json → Option Bool
  | bool b => some b
  | _ => none

/-- A value that may be left out or `null`. -/
def optional? {α : Type} (read : Json → Option α) : Json → Option (Option α)
  | null => some none
  | j => (read j).map some

/-- An array of values of one kind. -/
def list? {α : Type} (read : Json → Option α) : Json → Option (List α)
  | array items => items.mapM read
  | _ => none

end Json

end SheetCompiler
