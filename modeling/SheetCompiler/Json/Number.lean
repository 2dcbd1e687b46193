import SheetCompiler.Json.Basic
import SheetCompiler.Number.Layout
import SheetCompiler.Number.Reading

/-!
# Doubles in JSON

A number is read as the leading digits that fit in 64 bits, rounded to a double, and then
multiplied or divided by one power of ten; so a long number may come out one unit beside the
nearest double. A number too large for a double is refused, a tiny one is zero.
-/

namespace SheetCompiler.Json

open Number

/-- Digits taken so far, and the power of ten they are to be multiplied by. -/
structure Significand where
  digits : Nat
  exponent : Int

/-- A further digit, if it still fits in 64 bits. -/
def Significand.push? (s : Significand) (c : Char) : Option Significand :=
  let next := s.digits * 10 + (c.toNat - 48)
  if next < Nat.pow 2 64 then some { s with digits := next } else none

/-- Takes digits before the point; those that do not fit count as zeros. -/
def Significand.pushWhole (s : Significand) : List Char → Significand
  | [] => s
  | c :: cs =>
    match s.push? c with
    | some s => s.pushWhole cs
    | none => { s with exponent := (c :: cs).length }

/-- Takes digits after the point; those that do not fit are dropped. -/
def Significand.pushFraction (s : Significand) : List Char → Significand
  | [] => s
  | c :: cs =>
    match s.push? c with
    | some s => ({ s with exponent := s.exponent - 1 } : Significand).pushFraction cs
    | none => s

/-- The largest power of ten that is a double. -/
def topPower : Nat := 308

def powerOfTen (n : Nat) : Float := ofDecimal false 1 n

/-- Divides by a power of ten, in steps where the power is no double. -/
def divideByPower : Nat → Float → Nat → Float
  | 0, x, _ => x
  | fuel + 1, x, n =>
    if n ≤ topPower then x / powerOfTen n
    else if x == 0 then x
    else divideByPower fuel (x / powerOfTen topPower) (n - topPower)

/-- The digits times the power of ten, if that is a double. -/
def Significand.value? (s : Significand) : Option Float :=
  let x := (UInt64.ofNat s.digits).toFloat
  if s.exponent < 0 then some (divideByPower 4 x (-s.exponent).toNat)
  else if s.digits = 0 then some x
  else if s.exponent ≤ topPower then
    let y := x * powerOfTen s.exponent.toNat
    if y.isInf then none else some y
  else none

/-- The double that a number writes. -/
def lexemeFloat? (lexeme : List Char) : Option Float := do
  let (negative, cs) := takeSign lexeme
  let whole := cs.takeWhile Char.isDigit
  let (fraction, rest) := takeFraction (cs.dropWhile Char.isDigit)
  let exponent ← readExponent rest
  let s := (Significand.mk 0 0).pushWhole whole |>.pushFraction fraction
  let x ← Significand.value? { s with exponent := s.exponent + exponent }
  return if negative then -x else x

/-- The double that a number writes. -/
def float? : Json → Option Float
  | number lexeme => lexemeFloat? lexeme
  | _ => none

/-- The number that writes a double; what is not finite has none. -/
def ofFloat (x : Float) : Json :=
  if x.isFinite then number (Layout.document.chars x) else null

end SheetCompiler.Json
