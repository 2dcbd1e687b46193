import Mathlib.Algebra.Group.Nat.Defs
import SheetCompiler.Proofs.Numerals
import SheetCompiler.Python.Literal

/-!
# Numbers without a sign

A number that is read without a sign is written without one. Where it is a percentage, this takes
a way through scaled decimals, which keep the sign they have read, or through doubles, where it is a
matter of the sign bit: reading leaves it unset, and so does a division by a hundred.
-/

open Float.Model

namespace SheetCompiler.Number

/-! ### The sign bit -/

/-- The sign is positive, if there is one. -/
def Positive : UnpackedFloat → Prop
  | .infinity s | .zero s | .finite s _ _ _ => s = .positive
  | .notANumber => True

theorem positive_dite {c : Prop} [Decidable c] {u : c → UnpackedFloat} {v : ¬c → UnpackedFloat}
    (hu : ∀ h, Positive (u h)) (hv : ∀ h, Positive (v h)) : Positive (dite c u v) := by
  by_cases h : c
  · rw [dif_pos h]
    exact hu h
  · rw [dif_neg h]
    exact hv h

/-- Bits without the sign bit are those of a number without a sign. -/
theorem positive_unpack {b : BitVec Format.binary64.numBits} (h : b.toNat < 2 ^ 63) :
    Positive (UnpackedFloat.unpack Format.binary64 b) := by
  have bit : UnpackedFloat.unpackSign b = 0#1 := by
    apply BitVec.eq_of_toNat_eq
    change (b.toNat >>> 63) % 2 = 0
    rw [Nat.shiftRight_eq_div_pow, Nat.div_eq_of_lt h]
  have sign : UnpackedFloat.Sign.ofBitVec (UnpackedFloat.unpackSign b) = .positive := by
    rw [bit]
    rfl
  refine iteInduction (motive := Positive) (fun _ => ?_) fun _ => ?_
  · exact iteInduction (motive := Positive) (fun _ => sign) fun _ => trivial
  · refine iteInduction (motive := Positive) (fun _ => ?_) fun _ => sign
    exact positive_dite (fun _ => sign) fun _ => sign

/-- The sign bit stays unset if the sign is positive. -/
theorem toNat_packComponents (exponent : BitVec 11) (mantissa : BitVec 52) :
    (UnpackedFloat.packComponents Format.binary64 .positive exponent mantissa).toNat < 2 ^ 63 := by
  have top := exponent.isLt
  have rest := mantissa.isLt
  change (0#1 ++ exponent ++ mantissa).toNat < 2 ^ 63
  have field : (0#1 ++ exponent).toNat = exponent.toNat := by
    rw [BitVec.toNat_append]
    simp
  rw [BitVec.toNat_append, field, Nat.shiftLeft_eq]
  apply Nat.or_lt_two_pow
  · omega
  · omega

/-- A number without a sign is packed without the sign bit. -/
theorem toNat_pack {u : UnpackedFloat} (h : Positive u) :
    (UnpackedFloat.pack Format.binary64 u).toNat < 2 ^ 63 := by
  unfold UnpackedFloat.pack
  split
  · exact toNat_packComponents _ _
  · cases h
    exact toNat_packComponents _ _
  · cases h
    exact toNat_packComponents _ _
  · cases h
    dsimp only
    split
    · exact toNat_packComponents _ _
    · split <;> exact toNat_packComponents _ _

/-- Rounding keeps the sign. -/
theorem positive_roundWithAccuracy (mantissa : Nat) (exponent : Int)
    (accuracy : UnpackedFloat.Accuracy) : Positive (UnpackedFloat.roundWithAccuracy Format.binary64
      .positive mantissa exponent accuracy) := by
  unfold UnpackedFloat.roundWithAccuracy
  dsimp only
  exact positive_dite (fun _ => rfl) fun _ => rfl

/-- A quotient of two numbers without a sign has none. -/
theorem Positive.div {u v : UnpackedFloat} (hu : Positive u) (hv : Positive v) :
    Positive (UnpackedFloat.div Format.binary64 u v) := by
  cases u with
  | notANumber => cases v <;> trivial
  | infinity | zero =>
    cases hu
    cases v <;> first | trivial | (cases hv; rfl)
  | finite =>
    cases hu
    cases v with
    | notANumber => trivial
    | infinity | zero =>
      cases hv
      rfl
    | finite =>
      cases hv
      exact positive_roundWithAccuracy _ _ _

theorem isNegative_eq_false_iff {x : Float} : isNegative x = false ↔ x.toBits.toNat < 2 ^ 63 := by
  unfold isNegative
  exact decide_eq_false_iff_not.trans Nat.not_le

/-- The bits below the sign bit make a number without a sign. -/
theorem isNegative_ofBits {n : Nat} (h : n < 2 ^ 63) :
    isNegative (Float.ofBits (UInt64.ofNat n)) = false := by
  rw [isNegative_eq_false_iff]
  refine toNat_pack (positive_unpack ?_)
  change n % 2 ^ 64 < 2 ^ 63
  omega

/-- So does a division of such numbers. -/
theorem isNegative_div {x y : Float} (hx : isNegative x = false) (hy : isNegative y = false) :
    isNegative (x / y) = false := by
  rw [isNegative_eq_false_iff] at hx hy ⊢
  exact toNat_pack ((positive_unpack hx).div (positive_unpack hy))

theorem isNegative_hundred : isNegative 100.0 = false := by decide +kernel

/-! ### Reading without a sign -/

/-- A fraction scaled down by enough has few bits. -/
theorem scaleDown_lt {num den bits : Nat} {e : Int} (divides : den ≠ 0)
    (enough : (num.log2 : Int) - den.log2 + 1 ≤ e + bits) :
    (scaleDown num den e).1 / (scaleDown num den e).2 < 2 ^ bits := by
  have top := @Nat.lt_log2_self num
  have bottom := Nat.log2_self_le divides
  unfold scaleDown
  split
  next whole =>
    apply Nat.div_lt_of_lt_mul
    calc num < 2 ^ (num.log2 + 1) := top
      _ ≤ 2 ^ (den.log2 + e.toNat + bits) := Nat.pow_le_pow_right (by decide) (by omega)
      _ = 2 ^ den.log2 * 2 ^ e.toNat * 2 ^ bits := by rw [Nat.pow_add, Nat.pow_add]
      _ ≤ den * 2 ^ e.toNat * 2 ^ bits :=
        Nat.mul_le_mul_right _ (Nat.mul_le_mul_right _ bottom)
  next =>
    apply Nat.div_lt_of_lt_mul
    calc num * 2 ^ (-e).toNat < 2 ^ (num.log2 + 1) * 2 ^ (-e).toNat :=
        Nat.mul_lt_mul_of_pos_right top (Nat.two_pow_pos _)
      _ = 2 ^ (num.log2 + 1 + (-e).toNat) := (Nat.pow_add ..).symm
      _ ≤ 2 ^ (den.log2 + bits) := Nat.pow_le_pow_right (by decide) (by omega)
      _ = 2 ^ den.log2 * 2 ^ bits := Nat.pow_add ..
      _ ≤ den * 2 ^ bits := Nat.mul_le_mul_right _ bottom

/-- Scaled down for its mantissa, a fraction has 53 bits at most. -/
theorem scaleDown_mantissaExponent_lt (num : Nat) {den : Nat} (divides : den ≠ 0) :
    (scaleDown num den (mantissaExponent num den)).1 /
      (scaleDown num den (mantissaExponent num den)).2 < 2 ^ 53 := by
  unfold mantissaExponent
  dsimp only
  split
  next => exact scaleDown_lt divides (by omega)
  next few => exact Nat.lt_of_not_le few

/-- Rounding goes up by one at most. -/
theorem roundHalfEven_le (num den : Nat) : roundHalfEven num den ≤ num / den + 1 := by
  unfold roundHalfEven
  dsimp only
  split
  · omega
  · split <;> omega

/-- The bits of a fraction leave the sign bit unset: too large a fraction is infinite, and the
others have exponents in range. -/
theorem bitsOfRatio_lt (num : Nat) {den : Nat} (divides : den ≠ 0) :
    bitsOfRatio num den < 2 ^ 63 := by
  have few := scaleDown_mantissaExponent_lt num divides
  have near := roundHalfEven_le (scaleDown num den (mantissaExponent num den)).1
    (scaleDown num den (mantissaExponent num den)).2
  unfold bitsOfRatio
  simp only [Nat.pow_eq]
  generalize roundHalfEven _ _ = m at near ⊢
  generalize mantissaExponent num den = e at few near ⊢
  split
  · dsimp only
    split
    · decide
    · split <;> omega
  · dsimp only
    split
    · decide
    · split <;> omega

theorem isNegative_ofRatio {num den : Nat} (divides : den ≠ 0) :
    isNegative (ofRatio false num den) = false := by
  apply isNegative_ofBits
  rw [if_neg (by decide)]
  split
  · decide
  · exact bitsOfRatio_lt num divides

/-- A decimal is read without a sign, whatever its exponent. -/
theorem isNegative_ofDecimal (digits : Nat) (exponent : Int) :
    isNegative (ofDecimal false digits exponent) = false := by
  have power (n : Nat) : Nat.pow 10 n ≠ 0 := Nat.pos_iff_ne_zero.1 (Nat.pow_pos (by decide))
  unfold ofDecimal
  dsimp only
  split
  · exact isNegative_ofRatio (by decide)
  · split
    · exact isNegative_ofRatio (by decide)
    · split
      · exact isNegative_ofRatio (by decide)
      · exact isNegative_ofRatio (power _)

/-- The text does not start with a sign. -/
def Unsigned (cs : List Char) : Prop := ∀ c ∈ cs.head?, c ≠ '+' ∧ c ≠ '-'

theorem takeSign_of_unsigned {cs : List Char} (h : Unsigned cs) : takeSign cs = (false, cs) := by
  unfold takeSign
  split
  · exact absurd rfl (h _ rfl).2
  · exact absurd rfl (h _ rfl).1
  · rfl

theorem dropWhile_of_unsigned {cs : List Char} (h : Unsigned cs) : cs.dropWhile (· == '+') = cs := by
  cases cs with
  | nil => rfl
  | cons c cs => simp [(h c rfl).1]

/-- Without a sign in front, the double that is read has none. -/
theorem isNegative_readFloat {cs : List Char} {x : Float} (h : Unsigned cs)
    (read : readFloat cs = some x) : isNegative x = false := by
  simp only [readFloat, takeSign_of_unsigned h, Bool.false_eq_true, if_false] at read
  split at read
  · cases read
    exact isNegative_ofBits (by decide)
  · split at read
    · cases read
      exact isNegative_ofBits (by decide)
    · simp only [readUnsigned] at read
      split at read
      · cases read
      · obtain ⟨exponent, -, read⟩ := Option.bind_eq_some_iff.1 read
        cases read
        exact isNegative_ofDecimal _ _

namespace Scaled

theorem negative_read {p : Progress} {cs : List Char} {x : Scaled}
    (h : Progress.read false p cs = some x) : x.negative = false := by
  fun_induction Progress.read with
  | _ => grind [Progress.finish?, Progress.cut?]

/-- Without a sign in front, the scaled decimal that is read has none. -/
theorem negative_ofDigits {cs : List Char} {x : Scaled} (unsigned : Unsigned cs)
    (h : ofDigits? cs = some x) : x.negative = false := by
  rw [ofDigits?, takeSign_of_unsigned unsigned] at h
  exact negative_read h

theorem negative_shiftUp {x y : Scaled} {n : Nat} (h : x.shiftUp? n = some y) :
    y.negative = x.negative := by
  grind [shiftUp?]

theorem negative_shiftDown {x y : Scaled} {n : Nat} (h : x.shiftDown? n = some y) :
    y.negative = x.negative := by
  grind [shiftDown?]

/-- An exponent moves the point and leaves the sign. -/
theorem negative_ofScientific {cs : List Char} {x : Scaled} (unsigned : Unsigned cs)
    (h : ofScientific? cs = some x) : x.negative = false := by
  have front : Unsigned (cs.takeWhile (!isPowerMark ·)) := by
    cases cs with
    | nil => exact unsigned
    | cons c cs =>
      intro d hd
      rw [List.takeWhile_cons] at hd
      split at hd
      · exact unsigned d hd
      · cases hd
  unfold ofScientific? at h
  split at h
  · cases h
  · obtain ⟨y, hy, h⟩ := Option.bind_eq_some_iff.1 h
    have plain := negative_ofDigits front hy
    split at h
    · obtain ⟨n, -, h⟩ := Option.bind_eq_some_iff.1 h
      rw [negative_shiftDown h, plain]
    · obtain ⟨n, -, h⟩ := Option.bind_eq_some_iff.1 h
      rw [negative_shiftUp h, plain]

/-- This holds for both ways to read a scaled decimal. -/
theorem negative_ofChars {cs : List Char} {x : Scaled} (unsigned : Unsigned cs)
    (h : ofChars? cs = some x) : x.negative = false := by
  unfold ofChars? at h
  cases plain : ofDigits? cs with
  | some y =>
    rw [plain] at h
    cases h
    exact negative_ofDigits unsigned plain
  | none =>
    rw [plain] at h
    exact negative_ofScientific unsigned h

theorem negative_percent (x : Scaled) : x.percent.negative = x.negative := by
  unfold percent
  split <;> rfl

end Scaled

/-! ### Writing without a sign -/

theorem unsigned_of_isDigit {c : Char} (h : c.isDigit) (rest : List Char) :
    Unsigned (c :: rest) := by
  rintro d ⟨⟩
  constructor
  all_goals
    rintro rfl
    exact absurd h (by decide)

/-- Digits in front leave a text without a sign. -/
theorem unsigned_append {digits rest : List Char} (h : ∀ c ∈ digits, c.isDigit)
    (unsigned : Unsigned rest) : Unsigned (digits ++ rest) := by
  cases digits with
  | nil => exact unsigned
  | cons d digits => exact unsigned_of_isDigit (h d List.mem_cons_self) _

/-- A scaled decimal without a sign is written without one. -/
theorem unsigned_toChars {x : Scaled} (h : x.negative = false) : Unsigned x.toChars := by
  have digits (n m : Nat) : ∀ c ∈ zeros n ++ Nat.toDigits 10 m, c.isDigit := fun c mem =>
    (List.mem_append.1 mem).elim (isDigit_zeros n c) (isDigit_toDigits m c)
  unfold Scaled.toChars
  simp only [h, Bool.false_and, Bool.false_eq_true, if_false, List.nil_append]
  apply unsigned_append
  · exact fun c mem => digits _ _ c (List.mem_of_mem_take mem)
  · simp [Unsigned]

/-- Digits with a point start with a digit, if only a zero. -/
theorem unsigned_positional (pointZero : Bool) (d : Decimal) : Unsigned (positional pointZero d) := by
  unfold positional
  dsimp only
  split
  · apply unsigned_append
    · exact fun c mem => (List.mem_append.1 mem).elim (isDigit_toDigits _ c) (isDigit_zeros _ c)
    · split <;> simp [Unsigned]
  · split
    · apply unsigned_append
      · exact fun c mem => isDigit_toDigits _ c (List.mem_of_mem_take mem)
      · simp [Unsigned]
    · simp [Unsigned]

/-- Digits with an exponent start with a digit. -/
theorem unsigned_scientific (plusSign : Bool) (d : Decimal) : Unsigned (scientific plusSign d) := by
  have digits := isDigit_toDigits d.digits
  unfold scientific
  dsimp only
  split
  next => simp [Unsigned]
  next c eq => exact unsigned_of_isDigit (digits c (eq ▸ List.mem_cons_self)) _
  next c cs _ eq => exact unsigned_of_isDigit (digits c (eq ▸ List.mem_cons_self)) _

/-- No layout writes a sign for a double that has none. -/
theorem unsigned_chars (l : Layout) {x : Float} (h : isNegative x = false) :
    Unsigned (l.chars x) := by
  unfold Layout.chars
  split
  · simp [Unsigned]
  · simp only [h, Bool.false_eq_true, if_false]
    split
    · simp [Unsigned]
    · split
      · exact unsigned_positional _ _
      · unfold Layout.decimal
        dsimp only
        split
        · exact unsigned_positional _ _
        · exact unsigned_scientific _ _

/-- A number of a formula that is written without a sign gets none, percentage or not. -/
theorem unsigned_numberLiteral {digits : String} (percent : Bool)
    (h : Unsigned digits.toList) : Unsigned (Python.numberLiteral digits percent).toList := by
  have kept : digits.toList.dropWhile (· == '+') = digits.toList :=
    dropWhile_of_unsigned h
  unfold Python.numberLiteral
  split
  · rw [kept]
    dsimp only
    split
    next x read =>
      rw [String.toList_ofList]
      exact unsigned_toChars ((Scaled.negative_percent x).trans (Scaled.negative_ofChars h read))
    next =>
      split
      next x read =>
        rw [Layout.text, String.toList_ofList]
        exact unsigned_chars _ (isNegative_div (isNegative_readFloat h read) isNegative_hundred)
      next => exact h
  · exact h

end SheetCompiler.Number
