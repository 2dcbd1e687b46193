import Mathlib.Algebra.Order.Field.Rat
import Mathlib.Tactic.FieldSimp
import Mathlib.Tactic.Ring
import SheetCompiler.Proofs.Formula.WellFormed
import SheetCompiler.Proofs.Number.Sign

/-!
# Percentages

A percentage is read as a scaled decimal, divided by a hundred and written again. Reading loses
nothing as long as all digits together lie below the bound of a mantissa
(`Scaled.ofDigits?_numeral`). With two places left the division only moves the point, and neither
dropping zeros nor writing changes the value (`Scaled.exists_numeral`). So the literal of a
percentage has exactly a hundredth of its value (`Python.percent_literals_exact`).
-/

namespace SheetCompiler

namespace Number

/-! ### Numbers as they are written -/

/-- A number written without an exponent. -/
structure Numeral where
  sign : List Char
  whole : List Char
  /-- The digits after the point, if there is one. -/
  places : Option (List Char)
  isSign : Scan.IsSign sign
  digits : ∀ c ∈ whole ++ places.getD [], c.isDigit
  nonempty : whole ++ places.getD [] ≠ []

namespace Numeral

def fraction (n : Numeral) : List Char := n.places.getD []

def unsigned (n : Numeral) : List Char := n.whole ++ (n.places.map ('.' :: ·)).getD []

def chars (n : Numeral) : List Char := n.sign ++ n.unsigned

/-- All digits, read as one number. -/
def mantissa (n : Numeral) : Nat := Nat.ofDigitChars 10 (n.whole ++ n.fraction) 0

def isNegative (n : Numeral) : Bool := n.sign = ['-']

/-- What is written. -/
def value (n : Numeral) : ℚ :=
  (if n.isNegative then -1 else 1) * (n.mantissa / 10 ^ n.fraction.length)

/-- There are digits on both sides of a point, and no plus sign. -/
structure IsPlain (n : Numeral) : Prop where
  sign : n.sign = [] ∨ n.sign = ['-']
  whole : n.whole ≠ []
  places : ∃ digit rest, n.places = some (digit :: rest)

end Numeral

/-- Digits are read as the numeral they are. -/
theorem readDigits_eq (value : Nat) (digits : List Char) :
    readDigits value digits = Nat.ofDigitChars 10 digits value := by
  unfold readDigits Nat.ofDigitChars
  simp only [Nat.mul_comm]
  rfl

theorem readDigits_append (value : Nat) (left right : List Char) :
    readDigits value (left ++ right) = readDigits (readDigits value left) right :=
  List.foldl_append

/-- Digits in front make a number no smaller. -/
theorem le_readDigits (value : Nat) (digits : List Char) : value ≤ readDigits value digits := by
  rw [readDigits_eq, Nat.ofDigitChars_eq_ofDigitChars_zero]
  have : value ≤ 10 ^ digits.length * value :=
    Nat.le_mul_of_pos_left value (Nat.pow_pos (by decide))
  omega

namespace Scaled

def value (x : Scaled) : ℚ := (if x.negative then -1 else 1) * (x.mantissa / 10 ^ x.scale)

/-! ### Reading -/

namespace Progress

/-- What was read when these digits follow. -/
def after (p : Progress) (digits : List Char) : Progress where
  mantissa := readDigits p.mantissa digits
  scale := if p.point then p.scale + digits.length else p.scale
  point := p.point
  digits := p.digits || !digits.isEmpty

/-- Digits that fit are read one after the other. -/
theorem read_digits (negative : Bool) {p : Progress} {digits : List Char}
    (areDigits : ∀ c ∈ digits, c.isDigit) (fits : readDigits p.mantissa digits < bound)
    (places : p.point → p.scale + digits.length ≤ maxScale) (start : p.point = false → p.scale = 0)
    (rest : List Char) :
    p.read negative (digits ++ rest) = (p.after digits).read negative rest := by
  induction digits generalizing p with
  | nil => simp [after, readDigits]
  | cons c digits ih =>
    have isDigit : c.isDigit := areDigits c List.mem_cons_self
    have next : readDigits p.mantissa (c :: digits) =
        readDigits (p.mantissa * 10 + (c.toNat - 48)) digits := rfl
    rw [next] at fits
    have small : ¬bound ≤ p.mantissa * 10 + (c.toNat - 48) :=
      Nat.not_le.2 (Nat.lt_of_le_of_lt (le_readDigits _ digits) fits)
    have room : p.isFull = false := by
      rw [isFull]
      cases point : p.point with
      | false => rfl
      | true =>
        have := places point
        rw [List.length_cons] at this
        simp only [Bool.true_and, beq_eq_false_iff_ne]
        omega
    rw [List.cons_append, read, if_pos isDigit]
    simp only [room, Bool.false_eq_true, if_false, if_neg small]
    rw [ih (fun d mem => areDigits d (List.mem_cons_of_mem c mem)) fits]
    · unfold after
      rw [next]
      cases point : p.point with
      | false => simp [start point]
      | true => simp [Nat.add_assoc, Nat.add_comm 1]
    · intro (point : p.point = true)
      have := places point
      rw [List.length_cons] at this
      simp only [point, if_true]
      omega
    · intro (point : p.point = false)
      simp [point]

/-- The first point starts the places. -/
theorem read_point (negative : Bool) {p : Progress} (first : p.point = false) (rest : List Char) :
    p.read negative ('.' :: rest) = { p with point := true }.read negative rest := by
  rw [read]
  simp [first]

end Progress

/-- Digits on both sides of a point are read as they are. -/
theorem read_unsigned (negative : Bool) (n : Numeral) (places : n.fraction.length ≤ maxScale)
    (fits : n.mantissa < bound) :
    Progress.read negative {} n.unsigned = some ⟨negative, n.mantissa, n.fraction.length⟩ := by
  have whole : ∀ c ∈ n.whole, c.isDigit := fun c mem => n.digits c (List.mem_append_left _ mem)
  have nonempty := n.nonempty
  have mantissa : n.mantissa = readDigits 0 (n.whole ++ n.fraction) := (readDigits_eq ..).symm
  rw [mantissa] at fits ⊢
  have front : readDigits 0 n.whole < bound := by
    rw [readDigits_append] at fits
    exact Nat.lt_of_le_of_lt (le_readDigits _ _) fits
  unfold Numeral.unsigned Numeral.fraction at *
  rw [Progress.read_digits negative whole front (fun point => absurd point (by decide))
    fun _ => rfl]
  cases point : n.places with
  | none =>
    rw [point] at nonempty
    simp only [Option.getD_none, List.append_nil] at nonempty
    simp [Progress.after, Progress.read, Progress.finish?, nonempty]
  | some digits =>
    have fraction : ∀ c ∈ digits, c.isDigit := fun c mem =>
      n.digits c (List.mem_append_right _ (by rwa [point]))
    simp only [point, Option.getD_some, readDigits_append] at places fits nonempty
    rw [Option.map_some, Option.getD_some, Progress.read_point negative rfl,
      ← List.append_nil digits, Progress.read_digits negative fraction]
    · simpa [Progress.after, Progress.read, Progress.finish?, readDigits_append] using nonempty
    · exact fits
    · intro _
      simpa [Progress.after] using places
    · intro first
      cases first

/-- Without its sign, a number starts with a digit or a point. -/
theorem unsigned_numeral (n : Numeral) : Unsigned n.unsigned := by
  refine unsigned_append (fun c mem => n.digits c (List.mem_append_left _ mem)) ?_
  cases n.places <;> simp [Unsigned]

/-- A plus sign is passed over, and a minus sign is kept. -/
theorem ofDigits?_numeral (n : Numeral) (places : n.fraction.length ≤ maxScale)
    (fits : n.mantissa < bound) :
    ofDigits? (n.chars.dropWhile (· == '+')) =
      some ⟨n.isNegative, n.mantissa, n.fraction.length⟩ := by
  have read := fun negative => read_unsigned negative n places fits
  have kept := dropWhile_of_unsigned (unsigned_numeral n)
  have unsigned := takeSign_of_unsigned (unsigned_numeral n)
  unfold Numeral.chars Numeral.isNegative ofDigits?
  rcases n.isSign with none | plus | minus
  · simp [none, kept, unsigned, read]
  · simp [plus, kept, unsigned, read]
  · simp [minus, takeSign, read]

/-! ### Dividing and writing -/

/-- With two places left, a percentage is a hundredth. -/
theorem value_percent {x : Scaled} (room : x.scale + 2 ≤ maxScale) :
    x.percent.value = x.value / 100 := by
  unfold percent
  rw [if_pos room]
  simp only [value]
  rw [pow_add]
  field_simp
  norm_num

/-- Dropping zeros drops as many places. -/
theorem normalize_eq (mantissa scale : Nat) :
    ∃ zeros, mantissa = (normalize mantissa scale).1 * 10 ^ zeros ∧
      scale = (normalize mantissa scale).2 + zeros := by
  induction scale generalizing mantissa with
  | zero => exact ⟨0, by simp [normalize]⟩
  | succ scale ih =>
    rw [normalize]
    split
    next last =>
      obtain ⟨zeros, digits, places⟩ := ih (mantissa / 10)
      refine ⟨zeros + 1, ?_, by omega⟩
      rw [pow_succ, ← Nat.mul_assoc, ← digits]
      omega
    next => exact ⟨0, by simp⟩

/-- Dropping zeros keeps the value. -/
theorem value_normalize (x : Scaled) :
    x.value = (⟨x.negative, (normalize x.mantissa x.scale).1, (normalize x.mantissa x.scale).2⟩ :
      Scaled).value := by
  obtain ⟨zeros, digits, places⟩ := normalize_eq x.mantissa x.scale
  unfold value
  dsimp only
  generalize normalize x.mantissa x.scale = normal at digits places
  rw [digits, places, pow_add]
  push_cast
  field_simp

/-- The digits of a mantissa, with zeros in front if it has fewer than the places ask for. -/
def digitChars (mantissa scale : Nat) : List Char :=
  zeros (scale + 1 - (Nat.toDigits 10 mantissa).length) ++ Nat.toDigits 10 mantissa

/-- Zeros in front do not count. -/
theorem ofDigitChars_digitChars (mantissa scale : Nat) :
    Nat.ofDigitChars 10 (digitChars mantissa scale) 0 = mantissa := by
  rw [digitChars, zeros, Nat.ofDigitChars_append, Nat.ofDigitChars_replicate_zero,
    Nat.mul_zero, Nat.ofDigitChars_ten_toDigits]

theorem isDigit_of_mem_digitChars {mantissa scale : Nat} {c : Char}
    (mem : c ∈ digitChars mantissa scale) : c.isDigit :=
  (List.mem_append.1 mem).elim (isDigit_zeros _ c) (isDigit_toDigits _ c)

/-- At least one digit stands before the point. -/
theorem lt_length_digitChars (mantissa scale : Nat) :
    scale < (digitChars mantissa scale).length := by
  simp only [digitChars, zeros, List.length_append, List.length_replicate]
  omega

/-- What follows the point: at least one digit. -/
def placeChars (mantissa scale : Nat) : List Char :=
  if scale = 0 then ['0']
  else (digitChars mantissa scale).drop ((digitChars mantissa scale).length - scale)

/-- A number as it is written, when no zeros are left to drop. -/
def numeral (x : Scaled) : Numeral where
  sign := if x.negative && x.mantissa != 0 then ['-'] else []
  whole := (digitChars x.mantissa x.scale).take ((digitChars x.mantissa x.scale).length - x.scale)
  places := some (placeChars x.mantissa x.scale)
  isSign := by
    split
    · exact .inr (.inr rfl)
    · exact .inl rfl
  digits := by
    intro c mem
    rcases List.mem_append.1 mem with front | back
    · exact isDigit_of_mem_digitChars (List.mem_of_mem_take front)
    · rw [Option.getD_some, placeChars] at back
      split at back
      · rw [List.mem_singleton.1 back]
        decide
      · exact isDigit_of_mem_digitChars (List.mem_of_mem_drop back)
  nonempty := by
    have := lt_length_digitChars x.mantissa x.scale
    intro empty
    have front := congrArg List.length (List.append_eq_nil_iff.1 empty).1
    rw [List.length_take, List.length_nil] at front
    omega

/-- A number is written with digits on both sides of a point, and with a minus or no sign. -/
theorem isPlain_numeral (x : Scaled) : x.numeral.IsPlain := by
  have long := lt_length_digitChars x.mantissa x.scale
  refine ⟨?_, ?_, ?_⟩
  · unfold numeral
    dsimp only
    split
    · exact .inr rfl
    · exact .inl rfl
  · intro empty
    have front := congrArg List.length empty
    simp only [numeral, List.length_take, List.length_nil] at front
    omega
  · have some : placeChars x.mantissa x.scale ≠ [] := by
      unfold placeChars
      split
      · exact List.cons_ne_nil _ _
      · intro empty
        have back := congrArg List.length empty
        rw [List.length_drop, List.length_nil] at back
        omega
    obtain ⟨digit, rest, eq⟩ := List.exists_cons_of_ne_nil some
    exact ⟨digit, rest, congrArg Option.some eq⟩

/-- The digits on both sides of the point make up the mantissa. -/
theorem mantissa_numeral (x : Scaled) :
    x.numeral.mantissa * 10 ^ x.scale = x.mantissa * 10 ^ x.numeral.fraction.length := by
  have long := lt_length_digitChars x.mantissa x.scale
  have read := ofDigitChars_digitChars x.mantissa x.scale
  unfold Numeral.mantissa Numeral.fraction numeral
  dsimp only [Option.getD_some]
  unfold placeChars
  split
  next whole =>
    rw [whole] at read ⊢
    rw [Nat.sub_zero, List.take_length, Nat.ofDigitChars_append, read]
    simp [Nat.ofDigitChars, Nat.mul_comm]
  next =>
    rw [List.take_append_drop, read, List.length_drop]
    congr 2
    omega

/-- A number is written as its value; that of zero has no sign. -/
theorem value_numeral (x : Scaled) : x.numeral.value = x.value := by
  have digits := congrArg (Nat.cast (R := ℚ)) x.mantissa_numeral
  push_cast at digits
  have quotient : (x.numeral.mantissa : ℚ) / 10 ^ x.numeral.fraction.length =
      x.mantissa / 10 ^ x.scale := by
    rw [div_eq_div_iff (pow_ne_zero _ (by norm_num)) (pow_ne_zero _ (by norm_num)), digits]
  unfold Numeral.value value
  rw [quotient]
  by_cases zero : x.mantissa = 0
  · simp [zero]
  · have sign : x.numeral.isNegative = x.negative := by
      cases negative : x.negative <;> simp [Numeral.isNegative, numeral, negative, zero]
    rw [sign]

/-- A scaled decimal is written as a plain number with its value. -/
theorem exists_numeral (x : Scaled) :
    ∃ n : Numeral, n.chars = x.toChars ∧ n.IsPlain ∧ n.value = x.value :=
  ⟨numeral ⟨x.negative, (normalize x.mantissa x.scale).1, (normalize x.mantissa x.scale).2⟩,
    by simp [toChars, Numeral.chars, Numeral.unsigned, numeral, placeChars, digitChars, zeros],
    isPlain_numeral _, (value_numeral _).trans x.value_normalize.symm⟩

end Scaled

end Number

namespace Python

open Number

/-- **Percentages are exact.** A number without an exponent that has at most 26 places, and whose
digits together are less than `2 ^ 96`, is written as a percentage by a plain decimal, whose value
is exactly a hundredth of the number. -/
theorem percent_literals_exact (n : Numeral) (places : n.fraction.length ≤ 26)
    (fits : n.mantissa < 2 ^ 96) :
    ∃ m : Numeral, numberLiteral (String.ofList n.chars) true = String.ofList m.chars ∧
      m.IsPlain ∧ m.value = n.value / 100 := by
  have read := Scaled.ofDigits?_numeral n (Nat.le_trans places (by decide)) fits
  have divided := Scaled.value_percent (x := ⟨n.isNegative, n.mantissa, n.fraction.length⟩)
    (Nat.add_le_add_right places 2)
  obtain ⟨m, chars, plain, value⟩ :=
    Scaled.exists_numeral (Scaled.percent ⟨n.isNegative, n.mantissa, n.fraction.length⟩)
  refine ⟨m, ?_, plain, value.trans divided⟩
  simp [numberLiteral, Scaled.ofChars?, read, chars]

/-- The largest mantissa, with as many places as there may be. -/
def mostDigits : Numeral where
  sign := ['-']
  whole := "792".toList
  places := some "28162514264337593543950335".toList
  isSign := .inr (.inr rfl)
  digits := List.all_eq_true.1 (by decide)
  nonempty := by decide

/-- The point moves by two places, and no digit is lost. -/
theorem percent_literals_exact_mostDigits :
    mostDigits.fraction.length = 26 ∧ mostDigits.mantissa + 1 = 2 ^ 96 ∧
    numberLiteral "-792.28162514264337593543950335" true = "-7.9228162514264337593543950335" ∧
    ∃ m : Numeral, "-7.9228162514264337593543950335" = String.ofList m.chars ∧ m.IsPlain ∧
      m.value = mostDigits.value / 100 := by
  have places : mostDigits.fraction.length = 26 := by decide
  have digits : mostDigits.mantissa + 1 = 2 ^ 96 := by decide +kernel
  have literal : numberLiteral (String.ofList mostDigits.chars) true =
      "-7.9228162514264337593543950335" := by decide +kernel
  have text : String.ofList mostDigits.chars = "-792.28162514264337593543950335" := by decide
  obtain ⟨m, written, plain, value⟩ := percent_literals_exact mostDigits (Nat.le_of_eq places)
    (Nat.lt_of_succ_le (Nat.le_of_eq digits))
  exact ⟨places, digits, text ▸ literal, m, literal.symm.trans written, plain, value⟩

end Python

end SheetCompiler
