import SheetCompiler.Number.Shortest

/-!
# Number texts

One layout function for all texts of doubles; what differs from one text to the other is a
`Layout`. `literal` is what a Python source holds, `plain` what a cell displays, and `document`
what a JSON text holds.
-/

namespace SheetCompiler.Number

/-- How the digits of a double are laid out. -/
structure Layout where
  /-- Smallest exponent of the first digit that is written without an exponent. -/
  lowest : Int
  /-- Largest exponent of the first digit that is written without an exponent. -/
  highest : Int
  /-- Whole numbers end in `.0`. -/
  pointZero : Bool
  /-- Positive exponents carry a plus sign. -/
  plusSign : Bool
  tie : Tie

/-- `3.0`, `0.0001`, `1e16`, `1.5e-5`. -/
def Layout.literal : Layout := ⟨-4, 15, true, false, .up⟩

/-- `3`, `0.00001`, never an exponent. -/
def Layout.plain : Layout := ⟨-400, 400, false, false, .up⟩

/-- `3.0`, `0.00001`, `1e+16`, `1e-6`. -/
def Layout.document : Layout := ⟨-5, 15, true, true, .even⟩

def zeros (n : Nat) : List Char := List.replicate n '0'

/-- The digits of a whole number after a sign. -/
def integerChars (n : Int) (plusSign : Bool) : List Char :=
  let digits := Nat.toDigits 10 n.natAbs
  if n < 0 then '-' :: digits else if plusSign then '+' :: digits else digits

/-- Writes a decimal without an exponent. -/
def positional (pointZero : Bool) (d : Decimal) : List Char :=
  let digits := Nat.toDigits 10 d.digits
  if 0 ≤ d.exponent then
    digits ++ zeros d.exponent.toNat ++ if pointZero then ['.', '0'] else []
  else
    let places := (-d.exponent).toNat
    if places < digits.length then
      digits.take (digits.length - places) ++ '.' :: digits.drop (digits.length - places)
    else '0' :: '.' :: zeros (places - digits.length) ++ digits

/-- Writes a decimal with an exponent. -/
def scientific (plusSign : Bool) (d : Decimal) : List Char :=
  let digits := Nat.toDigits 10 d.digits
  let exponent := d.exponent + digits.length - 1
  let mantissa :=
    match digits with
    | [] => []
    | [c] => [c]
    | c :: cs => c :: '.' :: cs
  mantissa ++ 'e' :: integerChars exponent plusSign

/-- Writes a decimal with or without an exponent, by its size. -/
def Layout.decimal (l : Layout) (d : Decimal) : List Char :=
  let top := d.exponent + (Nat.toDigits 10 d.digits).length - 1
  if l.lowest ≤ top ∧ top ≤ l.highest then positional l.pointZero d else scientific l.plusSign d

/-- The text of a double. -/
def Layout.chars (l : Layout) (x : Float) : List Char :=
  if x.isNaN then ['N', 'a', 'N']
  else
    let p := parts x
    let magnitude :=
      if x.isInf then ['i', 'n', 'f']
      else if p.mantissa = 0 then positional l.pointZero ⟨0, 0⟩
      else l.decimal (p.shortest l.tie)
    if isNegative x then '-' :: magnitude else magnitude

/-- The text of a double. -/
def Layout.text (l : Layout) (x : Float) : String := String.ofList (l.chars x)

end SheetCompiler.Number
