import SheetCompiler.Number.Reading

/-!
# Scaled decimals

Decimals with a mantissa below `2 ^ 96` and 0 to 28 places after the point. Reading cuts a
fraction that does not fit and rounds it by the first digit left out; the digits after that one do
not count any more. A negative exponent that asks for more places rounds in the same way. Whole
parts that do not fit are refused. `percent` divides by a hundred, which is exact as long as the
places suffice.
-/

namespace SheetCompiler.Number

/-- The number `± mantissa / 10 ^ scale`. -/
structure Scaled where
  negative : Bool
  mantissa : Nat
  scale : Nat
deriving DecidableEq, Repr

namespace Scaled

/-- Mantissas lie below this bound. -/
def bound : Nat := Nat.pow 2 96

/-- Most places after the point. -/
def maxScale : Nat := 28

/-- What was read of a decimal so far. -/
structure Progress where
  mantissa : Nat := 0
  scale : Nat := 0
  point : Bool := false
  digits : Bool := false

namespace Progress

/-- The number read, if it has digits. -/
def finish? (negative : Bool) (p : Progress) : Option Scaled :=
  if p.digits then some ⟨negative, p.mantissa, p.scale⟩ else none

/-- Ends reading at a digit that does not fit; only digits and underscores may follow it. -/
def cut? (negative : Bool) (p : Progress) (digit : Nat) (rest : List Char) : Option Scaled :=
  if !rest.all fun c => c.isDigit || c == '_' then none
  else if digit < 5 then some ⟨negative, p.mantissa, p.scale⟩
  else if p.mantissa + 1 < bound then some ⟨negative, p.mantissa + 1, p.scale⟩
  else if p.scale = 0 then none
  else some ⟨negative, (p.mantissa + 5) / 10, p.scale - 1⟩

/-- All places after the point are taken. -/
def isFull (p : Progress) : Bool := p.point && p.scale == maxScale

/-- The mantissa was past a 64-bit word, with some room left, before its last digit. -/
def isWide (p : Progress) : Bool := (Nat.pow 2 64 - 1) / 10 - 255 ≤ p.mantissa / 10

/-- Reads on. Underscores may stand anywhere after the first digit and are passed over, but behind
the last place of a short mantissa one counts as the digit zero that does not fit. -/
def read (negative : Bool) (p : Progress) : List Char → Option Scaled
  | [] => p.finish? negative
  | c :: cs =>
    if c.isDigit then
      let digit := c.toNat - 48
      let next := p.mantissa * 10 + digit
      if p.isFull then p.cut? negative digit cs
      else if bound ≤ next then (if p.point then p.cut? negative digit cs else none)
      else
        read negative
          { p with mantissa := next, scale := if p.point then p.scale + 1 else 0, digits := true } cs
    else if c = '.' then
      if p.point then none else read negative { p with point := true } cs
    else if c = '_' then
      if !p.digits then none
      else if p.isFull && !p.isWide then p.cut? negative 0 cs
      else read negative p cs
    else none

end Progress

/-- Reads digits with a sign, a point and underscores. -/
def ofDigits? (cs : List Char) : Option Scaled :=
  let (negative, body) := takeSign cs
  Progress.read negative {} body

/-- An unsigned exponent of at most 32 bits, perhaps after a plus sign. -/
def readPower? (cs : List Char) : Option Nat :=
  let digits := match cs with
    | '+' :: cs => cs
    | cs => cs
  let n := readDigits 0 digits
  if !digits.isEmpty && digits.all Char.isDigit && n < Nat.pow 2 32 then some n else none

/-- Multiplies by a power of ten. -/
def shiftUp? (x : Scaled) (n : Nat) : Option Scaled :=
  if n ≤ x.scale then some { x with scale := x.scale - n }
  else if maxScale < n then none
  else
    let mantissa := x.mantissa * Nat.pow 10 (n - x.scale)
    if mantissa < bound then some ⟨x.negative, mantissa, 0⟩ else none

/-- Drops digits at the end of the mantissa and rounds by the first of them, a half going up. -/
def dropDigits (mantissa : Nat) : Nat → Nat
  | 0 => mantissa
  | n + 1 => (mantissa / Nat.pow 10 n + 5) / 10

/-- Divides by a power of ten; places past the last are dropped. -/
def shiftDown? (x : Scaled) (n : Nat) : Option Scaled :=
  if maxScale < n then none
  else
    some { x with
      mantissa := dropDigits x.mantissa (x.scale + n - maxScale), scale := min (x.scale + n) maxScale }

def isPowerMark (c : Char) : Bool := c == 'e' || c == 'E'

/-- Reads a decimal with an exponent. -/
def ofScientific? (cs : List Char) : Option Scaled :=
  match cs.dropWhile (!isPowerMark ·) with
  | [] => none
  | _ :: power => do
    let x ← ofDigits? (cs.takeWhile (!isPowerMark ·))
    match power with
    | '-' :: power => x.shiftDown? (← readPower? power)
    | power => x.shiftUp? (← readPower? power)

/-- Reads a decimal with or without an exponent. -/
def ofChars? (cs : List Char) : Option Scaled := ofDigits? cs <|> ofScientific? cs

/-- A hundredth, rounded to the places there are, a half going to the even neighbour. -/
def percent (x : Scaled) : Scaled :=
  if x.scale + 2 ≤ maxScale then { x with scale := x.scale + 2 }
  else { x with mantissa := roundHalfEven x.mantissa (Nat.pow 10 (x.scale + 2 - maxScale)), scale := maxScale }

/-- Drops zeros at the end of the fraction. -/
def normalize : Nat → Nat → Nat × Nat
  | mantissa, 0 => (mantissa, 0)
  | mantissa, scale + 1 =>
    if mantissa % 10 = 0 then normalize (mantissa / 10) scale else (mantissa, scale + 1)

/-- The number with a point and at least one place; zero has no sign. -/
def toChars (x : Scaled) : List Char :=
  let (mantissa, scale) := normalize x.mantissa x.scale
  let sign := if x.negative && mantissa != 0 then ['-'] else []
  let digits := Nat.toDigits 10 mantissa
  let digits := List.replicate (scale + 1 - digits.length) '0' ++ digits
  let whole := digits.take (digits.length - scale)
  let places := digits.drop (digits.length - scale)
  sign ++ whole ++ '.' :: if scale = 0 then ['0'] else places

end Scaled

end SheetCompiler.Number
