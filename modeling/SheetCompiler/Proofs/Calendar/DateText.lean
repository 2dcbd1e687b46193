import Mathlib.Algebra.Group.Nat.Defs
import SheetCompiler.Calendar.DateTime
import SheetCompiler.Proofs.Json.Scalars

/-!
# Moments are read back

The text of a moment is read as the moment, exactly if the moment is on the calendar and the clock
(`DateTime.parse_documentText_iff`): each field has its own width, so that it ends where the next one
starts, and a second numbered 60 comes back as the 59th with a whole second more.
-/

namespace SheetCompiler.DateTime

/-- On the calendar and the clock, down to the nanosecond. -/
structure Proper (t : DateTime) : Prop where
  valid : t.isValid
  nanos : t.nanos < 1000000000 ∨ t.second = 59 ∧ t.nanos < 2000000000

instance (t : DateTime) : Decidable t.Proper :=
  decidable_of_iff (t.isValid ∧ (t.nanos < 1000000000 ∨ t.second = 59 ∧ t.nanos < 2000000000))
    ⟨fun h => ⟨h.1, h.2⟩, fun h => ⟨h.1, h.2⟩⟩

/-! ### Digits in fields -/

theorem readDigits_eq (digits : List Char) : Number.readDigits 0 digits = Nat.ofDigitChars 10 digits 0 :=
  digitsValue_eq digits

section

variable {width n : Nat}

/-- A field is made of digits. -/
theorem areDigits_padded : Json.AreDigits (padded width n) := by
  have digits := Json.areDigits_toDigits n
  refine ⟨List.append_ne_nil_of_right_ne_nil _ digits.1, fun c mem => ?_⟩
  rcases List.mem_append.1 mem with mem | mem
  · rw [List.eq_of_mem_replicate mem]
    decide
  · exact digits.2 c mem

/-- The zeros in front of a number do not count. -/
theorem readDigits_padded : Number.readDigits 0 (padded width n) = n := by
  rw [readDigits_eq, padded, Nat.ofDigitChars_append, Nat.ofDigitChars_replicate_zero, Nat.mul_zero,
    Nat.ofDigitChars_ten_toDigits]

/-- A number that fits takes the whole width of its field, and no more. -/
theorem length_padded (wide : 0 < width) (fits : n < 10 ^ width) : (padded width n).length = width := by
  have short := (Nat.length_toDigits_le_iff (by decide) wide).2 fits
  rw [padded, List.length_append, List.length_replicate]
  omega

/-- No blanks stand in front of digits. -/
theorem trimLeft_padded (rest : List Char) :
    Text.trimLeft (padded width n ++ rest) = padded width n ++ rest := by
  refine Text.dropWhile_of_head? fun c mem => ?_
  rw [List.head?_append_of_ne_nil _ areDigits_padded.1] at mem
  have isDigit := areDigits_padded.2 c (List.mem_of_mem_head? mem)
  exact Text.isBlank_of_isAlphanum (by simp [Char.isAlphanum, isDigit])

/-- A field of a fixed width ends there, whatever comes next. -/
theorem takeNumber_padded (wide : 0 < width) (fits : n < 10 ^ width) (rest : List Char) :
    takeNumber width (padded width n ++ rest) = some (n, rest) := by
  have length := length_padded wide fits
  have digits : ((padded width n ++ rest).takeWhile Char.isDigit).take width = padded width n := by
    rw [List.takeWhile_append_of_pos areDigits_padded.2, List.take_left' length]
  unfold takeNumber
  dsimp only
  rw [trimLeft_padded, digits, if_neg (by simp [areDigits_padded.1]), readDigits_padded,
    List.drop_left' rfl]

/-- A fraction is as many nanoseconds as its digits say, however many there are. -/
theorem takeFraction_padded {nanos : Nat} (wide : 0 < width) (narrow : width ≤ 9)
    (fits : n < 10 ^ width) (value : n * 10 ^ (9 - width) = nanos) :
    takeFraction ('.' :: padded width n) = some (nanos, []) := by
  have length := length_padded wide fits
  obtain ⟨some, taken, left⟩ := @Json.takeDigits_append [] _ (@areDigits_padded width n) (by simp)
  rw [List.append_nil] at taken left
  rw [takeFraction]
  dsimp only
  rw [taken, left, some, List.take_of_length_le (by omega), readDigits_padded, length, ← value]
  rfl

end

/-- A fraction is written with three, six or nine digits, or not at all, and read back. -/
theorem takeFraction_fractionChars {nanos : Nat} (fits : nanos < 1000000000) :
    takeFraction (fractionChars nanos) = some (nanos, []) := by
  unfold fractionChars
  split
  next none =>
    rw [none]
    rfl
  split
  next millis =>
    exact takeFraction_padded (by decide) (by decide) (by omega)
      (Nat.div_mul_cancel (Nat.dvd_of_mod_eq_zero millis))
  split
  next micros =>
    exact takeFraction_padded (by decide) (by decide) (by omega)
      (Nat.div_mul_cancel (Nat.dvd_of_mod_eq_zero micros))
  next => exact takeFraction_padded (by decide) (by decide) fits (Nat.mul_one nanos)

/-- A year ends at the dash behind it. -/
theorem signed_padded (width n : Nat) (rest : List Char) :
    takeYear.signed (padded width n ++ '-' :: rest) = some ((n : Int), '-' :: rest) := by
  obtain ⟨some, taken, left⟩ := @Json.takeDigits_append ('-' :: rest) _ (@areDigits_padded width n)
    (by rintro c ⟨⟩; decide)
  unfold takeYear.signed
  dsimp only
  rw [taken, left, some, readDigits_padded]
  rfl

/-- A year of four digits has no sign, all others have one; both are read back. -/
theorem takeYear_yearChars (year : Int) (rest : List Char) :
    takeYear (yearChars year ++ '-' :: rest) = some (year, '-' :: rest) := by
  unfold yearChars
  split
  next short =>
    unfold takeYear
    rw [trimLeft_padded]
    split
    next minus => exact absurd minus (areDigits_padded.head_ne (by decide) _)
    next plus => exact absurd plus (areDigits_padded.head_ne (by decide) _)
    next =>
      rw [takeNumber_padded (by decide) (by omega)]
      exact congrArg (fun n => some (n, _)) (Int.toNat_of_nonneg short.1)
  next long =>
    have signed := signed_padded 4 year.natAbs rest
    split
    next negative =>
      have value : -(year.natAbs : Int) = year := by omega
      have year : takeYear ('-' :: padded 4 year.natAbs ++ '-' :: rest) =
          (takeYear.signed (padded 4 year.natAbs ++ '-' :: rest)).map fun p => (-p.1, p.2) := rfl
      rw [year, signed, Option.map_some, value]
    next positive =>
      have value : (year.natAbs : Int) = year := by omega
      have year : takeYear ('+' :: padded 4 year.natAbs ++ '-' :: rest) =
          takeYear.signed (padded 4 year.natAbs ++ '-' :: rest) := rfl
      rw [year, signed, value]

theorem expect_cons {mark : Char} (solid : Text.isBlank mark = false) (cs : List Char) :
    expect mark (mark :: cs) = some cs := by
  rw [expect, Text.trimLeft, List.dropWhile_cons_of_neg (by simp [solid])]
  exact if_pos rfl

theorem daysInMonth_le (year : Int) (month : Nat) : daysInMonth year month ≤ 31 := by
  unfold daysInMonth
  split
  · split <;> decide
  all_goals decide

/-- The fields are read one by one; a second numbered 60 goes into the fraction. -/
theorem ofChars_fields {t : DateTime} (valid : t.isValid) {second fraction : Nat} (hsecond : second < 100)
    (hfraction : fraction < 1000000000) (whole : (if second = 60 then 59 else second) = t.second)
    (nanos : (if second = 60 then fraction + 1000000000 else fraction) = t.nanos) :
    ofChars (yearChars t.year ++ '-' :: (padded 2 t.month ++ '-' :: (padded 2 t.day ++ 'T' ::
      (padded 2 t.hour ++ ':' :: (padded 2 t.minute ++ ':' :: (padded 2 second ++
        fractionChars fraction)))))) = some t := by
  have bounds := valid
  simp only [isValid, Bool.and_eq_true, decide_eq_true_eq] at bounds
  obtain ⟨⟨⟨⟨⟨⟨-, month⟩, -⟩, day⟩, hour⟩, minute⟩, -⟩ := bounds
  have days := daysInMonth_le t.year t.month
  have dash := @expect_cons '-' (by decide)
  have colon := @expect_cons ':' (by decide)
  have divider := @expect_cons 'T' (by decide)
  have field : ∀ {n : Nat}, n < 10 ^ 2 → ∀ rest, takeNumber 2 (padded 2 n ++ rest) = some (n, rest) :=
    takeNumber_padded (by decide)
  refine Json.read_then (takeYear_yearChars _ _) <| Json.read_then (dash _) <|
    Json.read_then (field (by omega) _) <| Json.read_then (dash _) <|
    Json.read_then (field (by omega) _) <| Json.read_then (divider _) <|
    Json.read_then (field (by omega) _) <| Json.read_then (colon _) <|
    Json.read_then (field (by omega) _) <| Json.read_then (colon _) <|
    Json.read_then (field hsecond _) <| Json.read_then (takeFraction_fractionChars hfraction) ?_
  dsimp only
  rw [whole, nanos]
  exact if_pos valid

/-- A moment on the calendar and the clock is read back from its text. -/
theorem parse_documentText_of_proper {t : DateTime} (proper : t.Proper) :
    parse t.documentText = some t := by
  have second : t.second ≤ 59 := by
    have bounds := proper.valid
    simp only [isValid, Bool.and_eq_true, decide_eq_true_eq] at bounds
    exact bounds.2
  rw [parse, documentText, String.toList_ofList, toChars]
  simp only [List.append_assoc, List.cons_append]
  by_cases leap : 1000000000 ≤ t.nanos
  · obtain ⟨last, below⟩ := proper.nanos.resolve_left (Nat.not_lt.2 leap)
    rw [if_pos leap, if_pos leap]
    refine ofChars_fields proper.valid (by omega) (by omega) ?_ ?_
    · rw [if_pos (by omega), last]
    · rw [if_pos (by omega), Nat.sub_add_cancel leap]
  · rw [if_neg leap, if_neg leap]
    exact ofChars_fields proper.valid (by omega) (by omega) (if_neg (by omega)) (if_neg (by omega))

/-- So many digits make a number of so many digits at most. -/
theorem readDigits_lt {digits : List Char} (areDigits : ∀ c ∈ digits, c.isDigit) (value : Nat) :
    Number.readDigits value digits < (value + 1) * 10 ^ digits.length := by
  induction digits generalizing value with
  | nil => simp [Number.readDigits]
  | cons c digits ih =>
    obtain ⟨isDigit, others⟩ := List.forall_mem_cons.1 areDigits
    have small : c.toNat - 48 ≤ 9 := by
      have := Text.isDigit_iff.1 isDigit
      omega
    have rest := ih others (value * 10 + (c.toNat - 48))
    have bound : (value * 10 + (c.toNat - 48) + 1) * 10 ^ digits.length ≤
        (value + 1) * 10 * 10 ^ digits.length := Nat.mul_le_mul_right _ (by omega)
    calc Number.readDigits value (c :: digits)
        < (value * 10 + (c.toNat - 48) + 1) * 10 ^ digits.length := rest
      _ ≤ (value + 1) * 10 * 10 ^ digits.length := bound
      _ = (value + 1) * 10 ^ (c :: digits).length := by
        rw [List.length_cons, Nat.pow_succ', Nat.mul_assoc]

/-- A fraction that is read is less than a second: further digits are dropped, missing ones are
zeros. -/
theorem takeFraction_lt {cs rest : List Char} {n : Nat} (taken : takeFraction cs = some (n, rest)) :
    n < 1000000000 := by
  unfold takeFraction at taken
  split at taken
  next cs =>
    dsimp only at taken
    split at taken
    · cases taken
    · cases taken
      have areDigits : ∀ c ∈ (cs.takeWhile Char.isDigit).take 9, c.isDigit := fun c mem =>
        List.all_eq_true.1 List.all_takeWhile c (List.mem_of_mem_take mem)
      have short : ((cs.takeWhile Char.isDigit).take 9).length ≤ 9 := List.length_take_le 9 _
      generalize (cs.takeWhile Char.isDigit).take 9 = kept at areDigits short
      have below := readDigits_lt areDigits 0
      rw [Nat.zero_add, Nat.one_mul] at below
      calc Number.readDigits 0 kept * 10 ^ (9 - kept.length)
          < 10 ^ kept.length * 10 ^ (9 - kept.length) :=
            Nat.mul_lt_mul_of_pos_right below (Nat.pow_pos (by decide))
        _ = 1000000000 := by rw [← Nat.pow_add, Nat.add_sub_cancel' short]
  next =>
    cases taken
    decide

/-- What is read is on the calendar and the clock. -/
theorem proper_of_parse {s : String} {t : DateTime} (parsed : parse s = some t) : t.Proper := by
  rw [parse, ofChars] at parsed
  -- The fields up to the second do not matter.
  iterate 11 obtain ⟨_, -, parsed⟩ := Option.bind_eq_some_iff.1 parsed
  obtain ⟨⟨fraction, rest⟩, taken, built⟩ := Option.bind_eq_some_iff.1 parsed
  have below := takeFraction_lt taken
  obtain ⟨accepted, rfl⟩ := Option.ite_some_none_eq_some.1 built
  refine ⟨(Bool.and_eq_true_iff.1 accepted).2, ?_⟩
  dsimp only
  split
  next leap => exact .inr ⟨rfl, by omega⟩
  next => exact .inl below

/-- The moments that are read back from their texts. -/
theorem parse_documentText_iff {t : DateTime} : parse t.documentText = some t ↔ t.Proper :=
  ⟨proper_of_parse, parse_documentText_of_proper⟩

end SheetCompiler.DateTime
