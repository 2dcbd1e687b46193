/-!
# Binary floating point as integers

`parts` takes a finite double apart into `m * 2 ^ q`, and `ofRatio` rounds a fraction of natural
numbers to the nearest double, a half going to the even neighbour. Between the two lies exact
arithmetic on natural numbers only.
-/

namespace SheetCompiler.Number

/-- The absolute value of a finite double is `mantissa * 2 ^ exponent`. -/
structure Parts where
  mantissa : Nat
  exponent : Int
deriving DecidableEq, Repr

/-- The parts of the double with the given bits. -/
def partsOfBits (bits : Nat) : Parts :=
  let fraction : Nat := bits % Nat.pow 2 52
  let field : Nat := bits / Nat.pow 2 52 % 2048
  if field = 0 then ⟨fraction, -1074⟩ else ⟨fraction + Nat.pow 2 52, (field : Int) - 1075⟩

/-- The parts of a finite double. -/
def parts (x : Float) : Parts := partsOfBits x.toBits.toNat

/-- The sign bit; a negative zero has it too. -/
def isNegative (x : Float) : Bool := Nat.pow 2 63 ≤ x.toBits.toNat

/-- The nearest natural number to a fraction, a half going to the even neighbour. -/
def roundHalfEven (num den : Nat) : Nat :=
  let q := num / den
  let r := num % den
  if 2 * r < den then q
  else if 2 * r = den then q + q % 2
  else q + 1

/-- `num / (den * 2 ^ e)` as a fraction. -/
def scaleDown (num den : Nat) (e : Int) : Nat × Nat :=
  if 0 ≤ e then (num, den * Nat.pow 2 e.toNat) else (num * Nat.pow 2 (-e).toNat, den)

/-- The exponent at which a fraction has a mantissa of 53 bits, or fewer if it is too small. -/
def mantissaExponent (num den : Nat) : Int :=
  let e := max ((num.log2 : Int) - den.log2 - 53) (-1074)
  let (n, d) := scaleDown num den e
  if Nat.pow 2 53 ≤ n / d then e + 1 else e

/-- The bits of the double nearest to a positive fraction. -/
def bitsOfRatio (num den : Nat) : Nat :=
  let e := mantissaExponent num den
  let (n, d) := scaleDown num den e
  let m := roundHalfEven n d
  let (m, e) := if m = Nat.pow 2 53 then (Nat.pow 2 52, e + 1) else (m, e)
  if 971 < e then 2047 * Nat.pow 2 52
  else if m < Nat.pow 2 52 then m
  else (e + 1075).toNat * Nat.pow 2 52 + (m - Nat.pow 2 52)

/-- The double nearest to `num / den`, negated if asked for. -/
def ofRatio (negative : Bool) (num den : Nat) : Float :=
  let bits := if num = 0 then 0 else bitsOfRatio num den
  Float.ofBits (UInt64.ofNat (if negative then bits + Nat.pow 2 63 else bits))

/-- The double nearest to `digits * 10 ^ exponent`. Exponents far outside the range of doubles
give zero or infinity without computing the power. -/
def ofDecimal (negative : Bool) (digits : Nat) (exponent : Int) : Float :=
  let size : Int := (Nat.toDigits 10 digits).length + exponent
  if digits = 0 ∨ size < -400 then ofRatio negative 0 1
  else if 400 < size then ofRatio negative (Nat.pow 10 400) 1
  else if 0 ≤ exponent then ofRatio negative (digits * Nat.pow 10 exponent.toNat) 1
  else ofRatio negative digits (Nat.pow 10 (-exponent).toNat)

end SheetCompiler.Number
