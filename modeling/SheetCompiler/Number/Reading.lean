import SheetCompiler.Number.Binary

/-!
# Reading doubles

Decimal texts with an optional sign, point and exponent, and the words for infinity and
not-a-number in any case, read as the nearest double.
-/

namespace SheetCompiler.Number

/-- The number that digits write after those worth `value`. -/
def readDigits (value : Nat) (digits : List Char) : Nat :=
  digits.foldl (fun n c => n * 10 + (c.toNat - 48)) value

/-- Splits off a sign; the first part tells a minus. -/
def takeSign : List Char → Bool × List Char
  | '-' :: cs => (true, cs)
  | '+' :: cs => (false, cs)
  | cs => (false, cs)

/-- Reads what follows the mantissa: nothing, or an exponent with at least one digit. -/
def readExponent : List Char → Option Int
  | [] => some 0
  | c :: cs =>
    if c = 'e' ∨ c = 'E' then
      let (negative, digits) := takeSign cs
      if !digits.isEmpty && digits.all Char.isDigit then
        let n : Int := readDigits 0 digits
        some (if negative then -n else n)
      else none
    else none

/-- Splits off a point and the digits after it. -/
def takeFraction (cs : List Char) : List Char × List Char :=
  match cs with
  | '.' :: rest => (rest.takeWhile Char.isDigit, rest.dropWhile Char.isDigit)
  | _ => ([], cs)

/-- Reads an unsigned decimal text: digits before or after the point, then perhaps an exponent. -/
def readUnsigned (negative : Bool) (cs : List Char) : Option Float := do
  let whole := cs.takeWhile Char.isDigit
  let (fraction, rest) := takeFraction (cs.dropWhile Char.isDigit)
  if whole.isEmpty && fraction.isEmpty then none
  else
    let exponent ← readExponent rest
    let digits := readDigits (readDigits 0 whole) fraction
    return ofDecimal negative digits (exponent - fraction.length)

/-- Reads a double. -/
def readFloat (cs : List Char) : Option Float :=
  let (negative, body) := takeSign cs
  let word := String.ofList (body.map Char.toLower)
  if word = "inf" ∨ word = "infinity" then
    some (Float.ofBits (UInt64.ofNat (2047 * Nat.pow 2 52 + if negative then Nat.pow 2 63 else 0)))
  else if word = "nan" then some (Float.ofBits (UInt64.ofNat (2047 * Nat.pow 2 52 + Nat.pow 2 51)))
  else readUnsigned negative body

end SheetCompiler.Number
