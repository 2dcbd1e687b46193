import SheetCompiler.Text.Blank
import SheetCompiler.Number.Reading

/-!
# Moments

Dates of the proleptic Gregorian calendar with a time of day down to the nanosecond. A second
numbered 60 is kept as the 59th with a whole second more of fraction, and prints as 60. `serial`
is the spreadsheet's number for a moment: days since 1899-12-30, by whole milliseconds.
-/

namespace SheetCompiler

/-- A date and a time of day. -/
structure DateTime where
  year : Int
  month : Nat
  day : Nat
  hour : Nat
  minute : Nat
  second : Nat
  /-- Below 1000000000, or below twice that after second 59. -/
  nanos : Nat
deriving DecidableEq, Repr

namespace DateTime

def isLeapYear (year : Int) : Bool :=
  year % 4 == 0 && (year % 100 != 0 || year % 400 == 0)

def daysInMonth (year : Int) : Nat → Nat
  | 2 => if isLeapYear year then 29 else 28
  | 4 | 6 | 9 | 11 => 30
  | _ => 31

/-- Days from the start of year 0 to the start of a year. -/
def daysBeforeYear (year : Int) : Int :=
  let past := year - 1
  365 * year + past / 4 - past / 100 + past / 400 + 1

/-- Days from the start of a year to the start of a month. -/
def daysBeforeMonth (year : Int) (month : Nat) : Nat :=
  ((List.range (month - 1)).map fun m => daysInMonth year (m + 1)).foldr (· + ·) 0

/-- Days since the start of year 0. -/
def dayNumber (t : DateTime) : Int :=
  daysBeforeYear t.year + daysBeforeMonth t.year t.month + t.day - 1

/-- Nanoseconds since midnight of 1899-12-30. -/
def nanosSinceEpoch (t : DateTime) : Int :=
  let epoch := daysBeforeYear 1899 + daysBeforeMonth 1899 12 + 29
  let seconds := (t.dayNumber - epoch) * 86400 + (t.hour * 3600 + t.minute * 60 + t.second : Nat)
  seconds * 1000000000 + t.nanos

/-- The spreadsheet's number for a moment. -/
def serial (t : DateTime) : Float :=
  Float.ofInt (t.nanosSinceEpoch.tdiv 1000000) / 86400000.0

/-! Reading. -/

/-- Skips blanks and takes one to `width` digits. -/
def takeNumber (width : Nat) (cs : List Char) : Option (Nat × List Char) :=
  let cs := Text.trimLeft cs
  let digits := (cs.takeWhile Char.isDigit).take width
  if digits.isEmpty then none else some (Number.readDigits 0 digits, cs.drop digits.length)

/-- Skips blanks and takes a year: up to four digits, or any number of them after a sign. -/
def takeYear (cs : List Char) : Option (Int × List Char) :=
  match Text.trimLeft cs with
  | '-' :: cs => (signed cs).map fun (n, rest) => (-n, rest)
  | '+' :: cs => signed cs
  | cs => (takeNumber 4 cs).map fun (n, rest) => (n, rest)
where
  signed (cs : List Char) : Option (Int × List Char) :=
    let digits := cs.takeWhile Char.isDigit
    if digits.isEmpty then none
    else some (Number.readDigits 0 digits, cs.dropWhile Char.isDigit)

/-- Skips blanks and one given character. -/
def expect (mark : Char) (cs : List Char) : Option (List Char) :=
  match Text.trimLeft cs with
  | c :: rest => if c = mark then some rest else none
  | [] => none

/-- Takes a fraction of a second, in nanoseconds; digits after the ninth do not count. -/
def takeFraction : List Char → Option (Nat × List Char)
  | '.' :: cs =>
    let digits := cs.takeWhile Char.isDigit
    if digits.isEmpty then none
    else
      let kept := digits.take 9
      some (Number.readDigits 0 kept * Nat.pow 10 (9 - kept.length), cs.dropWhile Char.isDigit)
  | cs => some (0, cs)

/-- The moment is on the calendar and the clock. -/
def isValid (t : DateTime) : Bool :=
  -262143 ≤ t.year && t.year ≤ 262142 && 1 ≤ t.month && t.month ≤ 12 && 1 ≤ t.day &&
    t.day ≤ daysInMonth t.year t.month && t.hour ≤ 23 && t.minute ≤ 59 && t.second ≤ 59

/-- Reads `2018-07-05T12:30:15.5`. -/
def ofChars (cs : List Char) : Option DateTime := do
  let (year, cs) ← takeYear cs
  let (month, cs) ← takeNumber 2 (← expect '-' cs)
  let (day, cs) ← takeNumber 2 (← expect '-' cs)
  let (hour, cs) ← takeNumber 2 (← expect 'T' cs)
  let (minute, cs) ← takeNumber 2 (← expect ':' cs)
  let (second, cs) ← takeNumber 2 (← expect ':' cs)
  let (fraction, cs) ← takeFraction cs
  let leap := second = 60
  let t : DateTime :=
    { year, month, day, hour, minute
      second := if leap then 59 else second
      nanos := if leap then fraction + 1000000000 else fraction }
  if (Text.trimLeft cs).isEmpty && t.isValid then some t else none

/-- Reads `2018-07-05T12:30:15.5`. -/
def parse (s : String) : Option DateTime := ofChars s.toList

/-! Printing. -/

/-- Digits with zeros in front up to a width. -/
def padded (width n : Nat) : List Char :=
  let digits := Nat.toDigits 10 n
  List.replicate (width - digits.length) '0' ++ digits

/-- Four digits; years that need more, or a sign, have one. -/
def yearChars (year : Int) : List Char :=
  if 0 ≤ year ∧ year ≤ 9999 then padded 4 year.toNat
  else (if year < 0 then '-' else '+') :: padded 4 year.natAbs

/-- A fraction of a second in as few groups of three digits as needed. -/
def fractionChars (nanos : Nat) : List Char :=
  if nanos = 0 then []
  else if nanos % 1000000 = 0 then '.' :: padded 3 (nanos / 1000000)
  else if nanos % 1000 = 0 then '.' :: padded 6 (nanos / 1000)
  else '.' :: padded 9 nanos

/-- The moment with `divider` between date and time. -/
def toChars (divider : Char) (t : DateTime) : List Char :=
  let leap := 1000000000 ≤ t.nanos
  let second := if leap then t.second + 1 else t.second
  let nanos := if leap then t.nanos - 1000000000 else t.nanos
  yearChars t.year ++ '-' :: padded 2 t.month ++ '-' :: padded 2 t.day ++ divider ::
    padded 2 t.hour ++ ':' :: padded 2 t.minute ++ ':' :: padded 2 second ++ fractionChars nanos

/-- `2018-07-05 12:30:15`. -/
def displayText (t : DateTime) : String := String.ofList (t.toChars ' ')

/-- `2018-07-05T12:30:15`. -/
def documentText (t : DateTime) : String := String.ofList (t.toChars 'T')

end DateTime

end SheetCompiler
