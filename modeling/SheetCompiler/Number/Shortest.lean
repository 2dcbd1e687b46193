import SheetCompiler.Number.Binary

/-!
# Shortest decimals

The decimal with the fewest digits among those that read back as a given double, and of those
the nearest to it. The reals that read back as `m * 2 ^ q` form an interval around it, whose ends
belong to it exactly when `m` is even. For one digit, two digits and so on, only the two
neighbours of the value on that decimal grid can lie in the interval, so each grid is one test.
-/

namespace SheetCompiler.Number

/-- Which of two equally near decimals is taken. -/
inductive Tie where
  | up
  | even
deriving DecidableEq, Repr

/-- The positive number `digits * 10 ^ exponent`. -/
structure Decimal where
  digits : Nat
  exponent : Int
deriving DecidableEq, Repr

/-- The reals that read back as one double, as fractions with one denominator. -/
structure Interval where
  low : Nat
  value : Nat
  high : Nat
  den : Nat
  closed : Bool

/-- The interval around `m * 2 ^ q`. Below a power of two the neighbour is nearer. -/
def Parts.interval (p : Parts) : Interval :=
  let below := if p.mantissa = Nat.pow 2 52 ∧ -1074 < p.exponent then 1 else 2
  let e := p.exponent - 2
  let scale := Nat.pow 2 e.toNat
  { low := (4 * p.mantissa - below) * scale
    value := 4 * p.mantissa * scale
    high := (4 * p.mantissa + 2) * scale
    den := Nat.pow 2 (-e).toNat
    closed := p.mantissa % 2 = 0 }

namespace Interval

/-- `c * 10 ^ p` reads back as the double. -/
def holds (i : Interval) (c : Nat) (p : Int) : Bool :=
  let x := c * Nat.pow 10 p.toNat * i.den
  let unit := Nat.pow 10 (-p).toNat
  if i.closed then i.low * unit ≤ x && x ≤ i.high * unit
  else i.low * unit < x && x < i.high * unit

/-- The better of the grid points that read back, if one does. -/
def onGrid (i : Interval) (tie : Tie) (p : Int) : Option Nat :=
  let num := i.value * Nat.pow 10 (-p).toNat
  let den := i.den * Nat.pow 10 p.toNat
  let c := num / den
  let r := num % den
  match i.holds c p && c != 0, i.holds (c + 1) p with
  | true, true =>
    if 2 * r < den then some c
    else if 2 * r = den then some (if tie = .even && c % 2 = 0 then c else c + 1)
    else some (c + 1)
  | true, false => some c
  | false, true => some (c + 1)
  | false, false => none

/-- The exponent of the first decimal digit of the value. -/
def magnitude (i : Interval) : Int :=
  if i.den ≤ i.value then ((Nat.toDigits 10 (i.value / i.den)).length : Int) - 1
  else -((Nat.toDigits 10 ((i.den - 1) / i.value)).length : Int)

/-- Tries grids of more and more digits. -/
def search (i : Interval) (tie : Tie) (top : Int) : Nat → Nat → Decimal
  | 0, _ => ⟨i.value / i.den, 0⟩
  | fuel + 1, k =>
    let p := top - k
    match i.onGrid tie p with
    | some c => ⟨c, p⟩
    | none => search i tie top fuel (k + 1)

end Interval

/-- Moves trailing zeros into the exponent. -/
def Decimal.stripped : Nat → Decimal → Decimal
  | 0, d => d
  | fuel + 1, d =>
    if d.digits % 10 = 0 && d.digits != 0 then stripped fuel ⟨d.digits / 10, d.exponent + 1⟩ else d

/-- The shortest decimal that reads back as a positive double; seventeen digits always do. -/
def Parts.shortest (tie : Tie) (p : Parts) : Decimal :=
  let i := p.interval
  (i.search tie i.magnitude 18 0).stripped 20

end SheetCompiler.Number
