import SheetCompiler.Json.Number
import SheetCompiler.Proofs.Json.Scalars
import SheetCompiler.Proofs.Numerals

/-!
# Doubles in JSON texts

Each layout writes finite doubles as numbers (`Number.isNumber_chars`). Zeros in front of the other
digits would spoil this. Decimals that are laid out start with another digit, since the shortest
decimal of a double is zero only if it has no exponent (`Number.Decimal.Plain`).
-/

namespace SheetCompiler.Number

open Json

/-! ### Shortest decimals -/

/-- Zero has no exponent. -/
def Decimal.Plain (d : Decimal) : Prop := d.digits = 0 → d.exponent = 0

/-- No candidate on a grid is zero: the lower one is asked for that, and the upper one is a
successor. -/
theorem Interval.onGrid_ne_zero {i : Interval} {tie : Tie} {p : Int} {c : Nat}
    (found : i.onGrid tie p = some c) : c ≠ 0 := by
  unfold Interval.onGrid at found
  dsimp only at found
  split at found
  next both _ =>
    have positive : _ ≠ 0 := bne_iff_ne.1 (Bool.and_eq_true_iff.1 both).2
    split at found
    · cases found
      exact positive
    split at found
    · cases found
      split
      · exact positive
      · exact Nat.succ_ne_zero _
    · cases found
      exact Nat.succ_ne_zero _
  next left _ =>
    cases found
    exact bne_iff_ne.1 (Bool.and_eq_true_iff.1 left).2
  next =>
    cases found
    exact Nat.succ_ne_zero _
  next => cases found

/-- Whatever the search finds has digits, or it is zero without an exponent. -/
theorem Interval.plain_search (i : Interval) (tie : Tie) (top : Int) (fuel k : Nat) :
    (i.search tie top fuel k).Plain := by
  induction fuel generalizing k with
  | zero => exact fun _ => rfl
  | succ fuel ih =>
    rw [search]
    split
    next c found => exact fun zero => absurd zero (onGrid_ne_zero found)
    next => exact ih (k + 1)

/-- Dropping zeros behind the digits does not make them zero. -/
theorem Decimal.Plain.stripped {d : Decimal} (plain : d.Plain) (fuel : Nat) :
    (d.stripped fuel).Plain := by
  induction fuel generalizing d with
  | zero => exact plain
  | succ fuel ih =>
    rw [Decimal.stripped]
    split
    next zeros =>
      -- A positive number that ends in zero is at least ten.
      simp only [Bool.and_eq_true, decide_eq_true_eq, bne_iff_ne] at zeros
      refine ih fun none => ?_
      have none : d.digits / 10 = 0 := none
      omega
    next => exact plain

theorem plain_shortest (p : Parts) (tie : Tie) : (p.shortest tie).Plain :=
  (p.interval.plain_search tie _ _ _).stripped _

/-! ### Texts -/

section

variable {cs ds : List Char}

theorem areDigits_singleton {c : Char} (isDigit : c.isDigit) : AreDigits [c] :=
  ⟨List.cons_ne_nil _ _, fun _ mem => List.mem_singleton.1 mem ▸ isDigit⟩

theorem isWhole_singleton {c : Char} (isDigit : c.isDigit) : IsWhole [c] :=
  ⟨areDigits_singleton isDigit, fun zero => congrArg (fun c => [c]) (Option.some.inj zero)⟩

theorem areDigits_append (first : ∀ c ∈ cs, c.isDigit) (second : ∀ c ∈ ds, c.isDigit)
    (some : cs ++ ds ≠ []) : AreDigits (cs ++ ds) :=
  ⟨some, fun c mem => (List.mem_append.1 mem).elim (first c) (second c)⟩

/-- Of digits without zeros in front, the first ones have none either. -/
theorem isWhole_take (isWhole : IsWhole cs) {n : Nat} (some : n ≠ 0) : IsWhole (cs.take n) := by
  refine ⟨⟨?_, fun c mem => isWhole.1.2 c (List.mem_of_mem_take mem)⟩, fun zero => ?_⟩
  · simp [some, isWhole.1.1]
  · rw [List.head?_take, if_neg some] at zero
    rw [isWhole.2 zero, List.take_of_length_le (Nat.pos_of_ne_zero some)]

end

/-- Zeros behind the digits of zero would be zeros in front. -/
theorem isWhole_toDigits_zeros {n k : Nat} (plain : n = 0 → k = 0) :
    IsWhole (Nat.toDigits 10 n ++ zeros k) := by
  have digits := areDigits_toDigits n
  refine ⟨areDigits_append digits.2 (isDigit_zeros _)
    (List.append_ne_nil_of_left_ne_nil digits.1 _), fun zero => ?_⟩
  rw [List.head?_append_of_ne_nil _ digits.1] at zero
  have single := (isWhole_toDigits n).2 zero
  have value := congrArg (Nat.ofDigitChars 10 · 0) single
  have none : n = 0 := Nat.ofDigitChars_ten_toDigits.symm.trans value
  rw [single, plain none]
  rfl

/-- Digits with a point are a number, wherever the point stands. -/
theorem isUnsigned_positional {d : Decimal} (plain : d.Plain) (pointZero : Bool) :
    IsUnsigned (positional pointZero d) := by
  have digits := areDigits_toDigits d.digits
  unfold positional
  dsimp only
  split
  next whole =>
    refine ⟨_, _, [], isWhole_toDigits_zeros fun none => ?_, ?_, .inl rfl, (List.append_nil _).symm⟩
    · rw [plain none]
      rfl
    · split
      · exact .inr ⟨['0'], areDigits_singleton (by decide), rfl⟩
      · exact .inl rfl
  next negative =>
    split
    next inside =>
      refine ⟨_, _, [], isWhole_take (isWhole_toDigits _) (by omega), .inr ⟨_, ⟨?_, ?_⟩, rfl⟩, .inl rfl,
        (List.append_nil _).symm⟩
      · rw [Ne, List.drop_eq_nil_iff]
        omega
      · exact fun c mem => digits.2 c (List.mem_of_mem_drop mem)
    next =>
      refine ⟨['0'], _, [], isWhole_singleton (by decide), .inr ⟨_, ?_, rfl⟩, .inl rfl,
        (List.append_nil _).symm⟩
      exact areDigits_append (isDigit_zeros _) digits.2
        (List.append_ne_nil_of_right_ne_nil _ digits.1)

/-- An exponent is written as one, with a plus or without. -/
theorem isPower_integerChars (n : Int) (plusSign : Bool) : IsPower ('e' :: integerChars n plusSign) := by
  have digits := areDigits_toDigits n.natAbs
  unfold integerChars
  refine .inr ?_
  split
  · exact ⟨'e', ['-'], _, .inl rfl, .inr (.inr rfl), digits, rfl⟩
  split
  · exact ⟨'e', ['+'], _, .inl rfl, .inr (.inl rfl), digits, rfl⟩
  · exact ⟨'e', [], _, .inl rfl, .inl rfl, digits, rfl⟩

/-- Digits with an exponent are a number. -/
theorem isUnsigned_scientific (d : Decimal) (plusSign : Bool) :
    IsUnsigned (scientific plusSign d) := by
  have digits := areDigits_toDigits d.digits
  have power := isPower_integerChars (d.exponent + (Nat.toDigits 10 d.digits).length - 1) plusSign
  unfold scientific
  dsimp only
  split
  next none => exact absurd none digits.1
  next c eq =>
    have isDigit := digits.2 c (eq ▸ List.mem_cons_self)
    exact ⟨[c], [], _, isWhole_singleton isDigit, .inl rfl, power, rfl⟩
  next c cs more eq =>
    have isDigit := digits.2 c (eq ▸ List.mem_cons_self)
    have others : AreDigits cs := ⟨more, fun e mem => digits.2 e (eq ▸ List.mem_cons_of_mem _ mem)⟩
    exact ⟨[c], '.' :: cs, _, isWhole_singleton isDigit, .inr ⟨cs, others, rfl⟩, power, rfl⟩

/-- A finite double is a number, and not an infinite one. -/
theorem isNaN_and_isInf_of_isFinite {x : Float} (finite : x.isFinite) :
    x.isNaN = false ∧ x.isInf = false := by
  unfold Float.isFinite Float.Model.isFinite at finite
  unfold Float.isNaN Float.isInf Float.Model.isNaN Float.Model.isInf
  cases h : x.toModel.unpack with
  | infinity s => rw [h] at finite; cases finite
  | notANumber => rw [h] at finite; cases finite
  | zero s => exact ⟨rfl, rfl⟩
  | finite s m e p => exact ⟨rfl, rfl⟩

/-- Each layout writes finite doubles as numbers. -/
theorem isNumber_chars (l : Layout) {x : Float} (finite : x.isFinite) : IsNumber (l.chars x) := by
  obtain ⟨notNaN, notInf⟩ := isNaN_and_isInf_of_isFinite finite
  have magnitude : IsUnsigned (if (parts x).mantissa = 0 then positional l.pointZero ⟨0, 0⟩
      else l.decimal ((parts x).shortest l.tie)) := by
    split
    · exact isUnsigned_positional (fun _ => rfl) _
    · rw [Layout.decimal]
      split
      · exact isUnsigned_positional (plain_shortest _ _) _
      · exact isUnsigned_scientific _ _
  rw [Layout.chars, if_neg (Bool.eq_false_iff.1 notNaN)]
  simp only [notInf, Bool.false_eq_true, if_false]
  split
  · exact ⟨['-'], _, .inr rfl, magnitude, rfl⟩
  · exact ⟨[], _, .inl rfl, magnitude, rfl⟩

end SheetCompiler.Number
