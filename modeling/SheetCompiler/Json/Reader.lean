import SheetCompiler.Json.Basic

/-!
# Reading JSON texts

A text is one value with blanks around it. Strings and numbers are cut out as they stand; their
shape is checked here, and their meaning where they are used.
-/

namespace SheetCompiler.Json

def isSpace (c : Char) : Bool := c == ' ' || c == '\t' || c == '\n' || c == '\r'

def skipSpaces (cs : List Char) : List Char := cs.dropWhile isSpace

def isHex (c : Char) : Bool := (hexValue? c).isSome

/-- Cuts out what stands before the closing quote, and the rest after it. -/
def takeString : List Char → Option (List Char × List Char)
  | '"' :: cs => some ([], cs)
  | '\\' :: 'u' :: a :: b :: c :: d :: cs =>
    if isHex a && isHex b && isHex c && isHex d then
      (takeString cs).map fun (s, rest) => ('\\' :: 'u' :: a :: b :: c :: d :: s, rest)
    else none
  | '\\' :: c :: cs =>
    if (unescapeChar? c).isSome then (takeString cs).map fun (s, rest) => ('\\' :: c :: s, rest)
    else none
  | c :: cs =>
    if c.toNat < 32 || c == '\\' then none
    else (takeString cs).map fun (s, rest) => (c :: s, rest)
  | [] => none

/-- Cuts out a whole number without leading zeros. -/
def takeWhole : List Char → Option (List Char × List Char)
  | '0' :: cs => some (['0'], cs)
  | cs =>
    let digits := cs.takeWhile Char.isDigit
    if digits.isEmpty then none else some (digits, cs.dropWhile Char.isDigit)

/-- Cuts out a point with digits after it, or nothing. -/
def takePoint : List Char → Option (List Char × List Char)
  | '.' :: cs =>
    let digits := cs.takeWhile Char.isDigit
    if digits.isEmpty then none else some ('.' :: digits, cs.dropWhile Char.isDigit)
  | cs => some ([], cs)

/-- Cuts out an exponent, or nothing. -/
def takePower : List Char → Option (List Char × List Char)
  | c :: cs =>
    if c = 'e' ∨ c = 'E' then
      let (sign, cs) :=
        match cs with
        | '+' :: cs => (['+'], cs)
        | '-' :: cs => (['-'], cs)
        | cs => ([], cs)
      let digits := cs.takeWhile Char.isDigit
      if digits.isEmpty then none else some (c :: sign ++ digits, cs.dropWhile Char.isDigit)
    else some ([], c :: cs)
  | [] => some ([], [])

/-- Cuts out a number. -/
def takeNumber (cs : List Char) : Option (List Char × List Char) := do
  let (sign, cs) :=
    match cs with
    | '-' :: cs => (['-'], cs)
    | cs => ([], cs)
  let (whole, cs) ← takeWhole cs
  let (point, cs) ← takePoint cs
  let (power, cs) ← takePower cs
  return (sign ++ whole ++ point ++ power, cs)

mutual

/-- Reads one value; the first argument bounds the nesting. -/
def readValue : Nat → List Char → Option (Json × List Char)
  | 0, _ => none
  | fuel + 1, cs =>
    match skipSpaces cs with
    | '{' :: cs =>
      match skipSpaces cs with
      | '}' :: cs => some (object [], cs)
      | cs => (readMembers fuel cs).map fun (members, cs) => (object members, cs)
    | '[' :: cs =>
      match skipSpaces cs with
      | ']' :: cs => some (array [], cs)
      | cs => (readItems fuel cs).map fun (items, cs) => (array items, cs)
    | '"' :: cs => (takeString cs).map fun (s, cs) => (string s, cs)
    | 'n' :: 'u' :: 'l' :: 'l' :: cs => some (null, cs)
    | 't' :: 'r' :: 'u' :: 'e' :: cs => some (bool true, cs)
    | 'f' :: 'a' :: 'l' :: 's' :: 'e' :: cs => some (bool false, cs)
    | cs => (takeNumber cs).map fun (n, cs) => (number n, cs)

/-- Reads values up to the closing bracket. -/
def readItems : Nat → List Char → Option (List Json × List Char)
  | 0, _ => none
  | fuel + 1, cs => do
    let (item, cs) ← readValue fuel cs
    match skipSpaces cs with
    | ',' :: cs =>
      let (items, cs) ← readItems fuel cs
      return (item :: items, cs)
    | ']' :: cs => return ([item], cs)
    | _ => none

/-- Reads members up to the closing brace. -/
def readMembers : Nat → List Char → Option (List (List Char × Json) × List Char)
  | 0, _ => none
  | fuel + 1, cs =>
    match skipSpaces cs with
    | '"' :: cs => do
      let (key, cs) ← takeString cs
      match skipSpaces cs with
      | ':' :: cs =>
        let (value, cs) ← readValue fuel cs
        match skipSpaces cs with
        | ',' :: cs =>
          let (members, cs) ← readMembers fuel cs
          return ((key, value) :: members, cs)
        | '}' :: cs => return ([(key, value)], cs)
        | _ => none
      | _ => none
    | _ => none

end

/-- Reads a whole text. -/
def ofChars (cs : List Char) : Option Json := do
  let (j, rest) ← readValue (2 * cs.length + 2) cs
  if (skipSpaces rest).isEmpty then some j else none

/-- Reads a whole text. -/
def parse (s : String) : Option Json := ofChars s.toList

end SheetCompiler.Json
