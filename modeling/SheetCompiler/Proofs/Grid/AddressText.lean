import Mathlib.Algebra.Group.Nat.Defs
import Mathlib.Data.List.Induction
import SheetCompiler.Grid.Address
import SheetCompiler.Proofs.Fallible

/-!
# Which texts are addresses

`Address.Spelling` is what the text of an address looks like: marks, letters that number a column
without a digit for zero (`lettersValue`), and the digits of a row. The reader takes exactly these
texts (`Address.ofTrimmed_eq_ok_iff`): a run of letters is read to the end only if its whole value
lies on the sheet, since a longer run is worth more (`readLetters_eq_ok_iff`). Written again, the
address shows its letters in capitals and its row without leading zeros
(`Address.Spelling.toChars_address`).
-/

namespace SheetCompiler

open Fallible

namespace Text

/-- No blank stands at an end. -/
def Tight (cs : List Char) : Prop :=
  (∀ c ∈ cs.head?, isBlank c = false) ∧ ∀ c ∈ cs.getLast?, isBlank c = false

theorem dropWhile_of_head? {p : Char → Bool} {cs : List Char} (h : ∀ c ∈ cs.head?, p c = false) :
    cs.dropWhile p = cs := by
  cases cs with
  | nil => rfl
  | cons c cs => simp [h c (by simp)]

/-- A run of characters ends where the class does. -/
theorem span_append {p : Char → Bool} {run rest : List Char} (all : ∀ c ∈ run, p c)
    (stop : ∀ c ∈ rest.head?, p c = false) :
    (run ++ rest).takeWhile p = run ∧ (run ++ rest).dropWhile p = rest := by
  have drop : (run ++ rest).dropWhile p = rest := by
    rw [List.dropWhile_append_of_pos all, dropWhile_of_head? stop]
  have both := List.takeWhile_append_dropWhile (p := p) (l := run ++ rest)
  rw [drop] at both
  exact ⟨List.append_cancel_right both, drop⟩

/-- Nothing is trimmed where no blank stands. -/
theorem trim_of_tight {cs : List Char} (h : Tight cs) : trim cs = cs := by
  have reversed : ∀ c ∈ cs.reverse.head?, isBlank c = false := by simpa using h.2
  rw [trim, trimLeft, dropWhile_of_head? h.1, trimRight, dropWhile_of_head? reversed,
    List.reverse_reverse]

theorem tight_of_forall {cs : List Char} (h : ∀ c ∈ cs, isBlank c = false) : Tight cs :=
  ⟨fun c hc => h c (List.mem_of_mem_head? hc), fun c hc => h c (List.mem_of_mem_getLast? hc)⟩

/-- Letters by their numbers. -/
theorem isAlpha_iff {c : Char} :
    c.isAlpha ↔ (65 ≤ c.toNat ∧ c.toNat ≤ 90) ∨ (97 ≤ c.toNat ∧ c.toNat ≤ 122) := by
  change (decide ('A'.val ≤ c.val ∧ c.val ≤ 'Z'.val) ||
    decide ('a'.val ≤ c.val) && decide (c.val ≤ 'z'.val)) = true ↔ _
  simp only [Bool.or_eq_true, Bool.and_eq_true, decide_eq_true_eq, UInt32.le_iff_toNat_le]
  exact .rfl

theorem isDigit_iff {c : Char} : c.isDigit ↔ 48 ≤ c.toNat ∧ c.toNat ≤ 57 := by
  simp only [Char.isDigit, Bool.and_eq_true, decide_eq_true_eq, ge_iff_le,
    UInt32.le_iff_toNat_le]
  exact .rfl

/-- What holds of the first 128 characters holds of all letters and digits. -/
theorem of_ascii {P : Char → Prop} (ascii : ∀ n : Fin 128, P (Char.ofNat n)) {c : Char}
    (h : c.isAlpha ∨ c.isDigit) : P c := by
  have small : c.toNat < 128 := by
    rw [isAlpha_iff, isDigit_iff] at h
    omega
  have found := ascii ⟨c.toNat, small⟩
  rwa [Char.ofNat_toNat] at found

theorem toNat_of_isAlphanum {c : Char} (h : c.isAlphanum) :
    (65 ≤ c.toNat ∧ c.toNat ≤ 90) ∨ (97 ≤ c.toNat ∧ c.toNat ≤ 122) ∨
      (48 ≤ c.toNat ∧ c.toNat ≤ 57) := by
  rw [Char.isAlphanum, Bool.or_eq_true, isAlpha_iff, isDigit_iff, or_assoc] at h
  exact h

theorem isBlank_of_isAlphanum {c : Char} (h : c.isAlphanum) : isBlank c = false := by
  have := toNat_of_isAlphanum h
  simp only [isBlank, Bool.or_eq_false_iff, Bool.and_eq_false_iff, decide_eq_false_iff_not,
    beq_eq_false_iff_ne]
  omega

end Text

/-! ### Column letters -/

theorem isAlpha_letter {k : Nat} (h : k < 26) : (Char.ofNat (65 + k)).isAlpha := by
  have : ∀ k : Fin 26, (Char.ofNat (65 + k)).isAlpha := by decide
  exact this ⟨k, h⟩

theorem letterValue_letter {k : Nat} (h : k < 26) : letterValue (Char.ofNat (65 + k)) = k + 1 := by
  have : ∀ k : Fin 26, letterValue (Char.ofNat (65 + k)) = k + 1 := by decide
  exact this ⟨k, h⟩

/-- The capital of a letter, and the letter's value. -/
theorem exists_letter {c : Char} (h : c.isAlpha) :
    ∃ k, k < 26 ∧ c.toUpper = Char.ofNat (65 + k) ∧ letterValue c = k + 1 := by
  have letter : ∀ n : Fin 128, (Char.ofNat n).isAlpha → letterValue (Char.ofNat n) - 1 < 26 ∧
      (Char.ofNat n).toUpper = Char.ofNat (65 + (letterValue (Char.ofNat n) - 1)) ∧
      letterValue (Char.ofNat n) = letterValue (Char.ofNat n) - 1 + 1 := by
    decide
  exact ⟨letterValue c - 1, Text.of_ascii
    (P := fun c => c.isAlpha → letterValue c - 1 < 26 ∧
      c.toUpper = Char.ofNat (65 + (letterValue c - 1)) ∧ letterValue c = letterValue c - 1 + 1)
    letter (.inl h) h⟩

/-- What holds of `A` to `Z` holds of all column letters. -/
theorem forall_mem_columnLetters {P : Char → Prop} (letter : ∀ k < 26, P (Char.ofNat (65 + k)))
    (col : Nat) : ∀ c ∈ columnLetters col, P c := by
  intro c h
  fun_induction columnLetters col with
  | case1 col _ small =>
    obtain rfl := List.mem_singleton.1 h
    exact letter _ (Nat.mod_lt _ (by decide))
  | case2 col _ large ih =>
    rcases List.mem_append.1 h with h | h
    · exact ih h
    · obtain rfl := List.mem_singleton.1 h
      exact letter _ (Nat.mod_lt _ (by decide))

theorem isAlpha_of_mem_columnLetters {col : Nat} {c : Char} (h : c ∈ columnLetters col) :
    c.isAlpha :=
  forall_mem_columnLetters (P := fun c => c.isAlpha) (fun _ => isAlpha_letter) col c h

theorem isUpper_of_mem_columnLetters {col : Nat} {c : Char} (h : c ∈ columnLetters col) :
    c.isUpper := by
  have upper : ∀ k : Fin 26, (Char.ofNat (65 + k)).isUpper := by decide
  exact forall_mem_columnLetters (P := fun c => c.isUpper) (fun k small => upper ⟨k, small⟩) col c h

theorem columnLetters_ne_nil (col : Nat) : columnLetters col ≠ [] := by
  unfold columnLetters
  dsimp only
  split <;> simp

/-- The value of letters as a numeral with 26 digits and no zero: `A` is 1, `Z` 26, `AA` 27. -/
def lettersValue : List Char → Nat
  | [] => 0
  | c :: cs => letterValue c * 26 ^ cs.length + lettersValue cs

/-- One more letter makes the value of the others count 26 times. -/
theorem lettersValue_concat (letters : List Char) (c : Char) :
    lettersValue (letters ++ [c]) = lettersValue letters * 26 + letterValue c := by
  induction letters with
  | nil => simp [lettersValue]
  | cons d letters ih =>
    simp only [List.cons_append, lettersValue, ih, List.length_append, List.length_singleton,
      pow_succ, ← Nat.mul_assoc]
    omega

/-- There is no zero among letters. -/
theorem lettersValue_pos {letters : List Char} (some : letters ≠ [])
    (alpha : ∀ c ∈ letters, c.isAlpha) : 1 ≤ lettersValue letters := by
  induction letters using List.reverseRecOn with
  | nil => exact absurd rfl some
  | append_singleton letters c =>
    obtain ⟨k, -, -, value⟩ := exists_letter (alpha c (by simp))
    rw [lettersValue_concat, value]
    omega

/-- The letters of a column number it, counting from one. -/
theorem lettersValue_columnLetters (col : Nat) : lettersValue (columnLetters col) = col + 1 := by
  fun_induction columnLetters col with
  | case1 col letter small =>
    simp [lettersValue, letter, Nat.mod_eq_of_lt small, letterValue_letter small]
  | case2 col letter large ih =>
    have value := letterValue_letter (Nat.mod_lt col (by decide : 26 > 0))
    rw [lettersValue_concat, ih, value]
    omega

/-- Letters are those of the column they number, in capitals. -/
theorem columnLetters_lettersValue {letters : List Char} (some : letters ≠ [])
    (alpha : ∀ c ∈ letters, c.isAlpha) :
    columnLetters (lettersValue letters - 1) = letters.map Char.toUpper := by
  induction letters using List.reverseRecOn with
  | nil => exact absurd rfl some
  | append_singleton letters c ih =>
    obtain ⟨k, small, upper, value⟩ := exists_letter (alpha c (by simp))
    have front : ∀ d ∈ letters, d.isAlpha := fun d mem => alpha d (List.mem_append_left _ mem)
    have last : (lettersValue letters * 26 + k) % 26 = k := by omega
    have others : (lettersValue letters * 26 + k) / 26 = lettersValue letters := by omega
    rw [lettersValue_concat, value, ← Nat.add_assoc, Nat.add_sub_cancel, columnLetters, last, others,
      List.map_append, List.map_singleton, upper]
    by_cases first : letters = []
    · subst first
      rw [if_pos (by simpa [lettersValue] using small)]
      rfl
    · have positive := lettersValue_pos first front
      rw [if_neg (by omega), ih first front]

/-- Letters are read if their whole value lies on the sheet, and then as that value. -/
theorem readLetters_eq_ok_iff {all letters : List Char} {value n : Nat}
    (alpha : ∀ c ∈ letters, c.isAlpha) (start : value ≤ maxCols) :
    readLetters all value letters = .ok n ↔
      value * 26 ^ letters.length + lettersValue letters = n ∧ n ≤ maxCols := by
  induction letters generalizing value with
  | nil =>
    simp only [readLetters, Except.ok.injEq, List.length_nil, pow_zero, Nat.mul_one, lettersValue,
      Nat.add_zero]
    exact ⟨fun same => ⟨same, same ▸ start⟩, fun same => same.1⟩
  | cons c letters ih =>
    have shifted : value * 26 ^ (c :: letters).length + lettersValue (c :: letters) =
        (value * 26 + letterValue c) * 26 ^ letters.length + lettersValue letters := by
      rw [List.length_cons, lettersValue, pow_succ, Nat.add_mul, Nat.mul_assoc, Nat.mul_comm 26,
        Nat.add_assoc]
    have grows := Nat.le_mul_of_pos_right (value * 26 + letterValue c)
      (Nat.pow_pos (n := letters.length) (by decide : 0 < 26))
    rw [readLetters, if_pos (alpha c List.mem_cons_self), shifted]
    dsimp only
    split
    next outside =>
      -- The letters to come only add to a value that is too large already.
      refine iff_of_false (by simp) fun total => ?_
      omega
    next inside =>
      exact ih (fun d mem => alpha d (List.mem_cons_of_mem c mem)) (by omega)

/-- Letters name a column if their value lies on the sheet. -/
theorem columnOfLetters_eq_ok_iff {letters : List Char} {col : Nat}
    (alpha : ∀ c ∈ letters, c.isAlpha) :
    columnOfLetters letters = .ok col ↔
      letters ≠ [] ∧ lettersValue letters ≤ maxCols ∧ lettersValue letters - 1 = col := by
  cases letters with
  | nil => simp [columnOfLetters]
  | cons c letters =>
    simp only [columnOfLetters, map_eq_ok_iff, readLetters_eq_ok_iff alpha (Nat.zero_le _),
      Nat.zero_mul, Nat.zero_add, ne_eq, reduceCtorEq, not_false_eq_true, true_and]
    constructor
    · rintro ⟨n, ⟨rfl, inside⟩, same⟩
      exact ⟨inside, same⟩
    · rintro ⟨inside, same⟩
      exact ⟨_, ⟨rfl, inside⟩, same⟩

/-! ### Row digits -/

/-- The value of digits is that of the numeral they are. -/
theorem digitsValue_eq (digits : List Char) : digitsValue digits = Nat.ofDigitChars 10 digits 0 := by
  have same : ∀ value : Nat,
      digits.foldl (fun n c => n * 10 + (c.toNat - 48)) value = Nat.ofDigitChars 10 digits value := by
    induction digits with
    | nil => exact fun value => rfl
    | cons c digits ih => exact fun value => by simp [Nat.ofDigitChars_cons, ih, Nat.mul_comm]
  exact same 0

theorem digitChar_of_isDigit {c : Char} (h : c.isDigit) : Nat.digitChar (c.toNat - 48) = c := by
  have digit : ∀ n : Fin 128, (Char.ofNat n).isDigit →
      Nat.digitChar ((Char.ofNat n).toNat - 48) = Char.ofNat n := by decide
  exact Text.of_ascii (P := fun c => c.isDigit → Nat.digitChar (c.toNat - 48) = c) digit (.inr h) h

theorem toUpper_of_isDigit {c : Char} (h : c.isDigit) : c.toUpper = c := by
  have digit : ∀ n : Fin 128, (Char.ofNat n).isDigit → (Char.ofNat n).toUpper = Char.ofNat n := by
    decide
  exact Text.of_ascii (P := fun c => c.isDigit → c.toUpper = c) digit (.inr h) h

/-- Digits are those of their number, after some zeros. -/
theorem toDigits_ofDigitChars {digits : List Char} (digit : ∀ c ∈ digits, c.isDigit) :
    digits.dropWhile (· == '0') =
      if Nat.ofDigitChars 10 digits 0 = 0 then [] else Nat.toDigits 10 (Nat.ofDigitChars 10 digits 0) := by
  induction digits using List.reverseRecOn with
  | nil => rfl
  | append_singleton digits d ih =>
    have char := digitChar_of_isDigit (digit d (by simp))
    have range := Text.isDigit_iff.1 (digit d (by simp))
    have zero : d = '0' ↔ d.toNat - 48 = 0 := by
      rw [← Char.toNat_inj]
      change d.toNat = 48 ↔ _
      omega
    have ih := ih fun c mem => digit c (List.mem_append_left _ mem)
    have value : Nat.ofDigitChars 10 (digits ++ [d]) 0 =
        10 * Nat.ofDigitChars 10 digits 0 + (d.toNat - 48) := by
      simp [Nat.ofDigitChars_append, Nat.ofDigitChars_cons]
    rw [value, List.dropWhile_append, ih]
    by_cases front : Nat.ofDigitChars 10 digits 0 = 0
    · by_cases last : d.toNat - 48 = 0
      · simp [front, zero.2 last]
      · have small : d.toNat - 48 < 10 := by omega
        have other : (d == '0') = false := by simpa [zero] using last
        simp [front, last, other, Nat.toDigits_of_lt_base small, char]
    · have large : 10 ≤ 10 * Nat.ofDigitChars 10 digits 0 + (d.toNat - 48) := by omega
      have quotient : (10 * Nat.ofDigitChars 10 digits 0 + (d.toNat - 48)) / 10 =
          Nat.ofDigitChars 10 digits 0 := by omega
      have remainder : (10 * Nat.ofDigitChars 10 digits 0 + (d.toNat - 48)) % 10 = d.toNat - 48 := by
        omega
      rw [if_neg front, if_neg (by simp), if_neg (by omega), Nat.toDigits_of_base_le (by decide) large,
        quotient, remainder, char]

namespace Address

/-- A row is read from digits whose number lies on the sheet, and from nothing else. -/
theorem readRow_eq_ok_iff {text : String} {digits : List Char} {row : Nat} :
    readRow text digits = .ok row ↔ digits ≠ [] ∧ (∀ c ∈ digits, c.isDigit) ∧
      1 ≤ Nat.ofDigitChars 10 digits 0 ∧ Nat.ofDigitChars 10 digits 0 ≤ maxRows ∧
      Nat.ofDigitChars 10 digits 0 - 1 = row := by
  have limit : Nat.pow 2 32 = 4294967296 := rfl
  have rows : maxRows = 1048576 := rfl
  rw [readRow, digitsValue_eq, limit, rows, ← List.all_eq_true]
  dsimp only
  split
  next none => simp [List.isEmpty_iff.1 none]
  next some =>
    split
    next digit =>
      rw [and_iff_right (by simpa using some), and_iff_right digit]
      split
      · exact iff_of_false (by simp) fun h => by omega
      · split
        · exact iff_of_false (by simp) fun h => by omega
        · split
          · exact iff_of_false (by simp) fun h => by omega
          · rw [Except.ok.injEq]
            exact ⟨fun same => ⟨by omega, by omega, same⟩, fun h => h.2.2⟩
    next other => exact iff_of_false (by simp) fun h => other h.2.1

/-! ### Spellings -/

/-- A mark is taken off, and nothing where there is none. -/
theorem takeMark_mark (fixed : Bool) {c : Char} (h : c ≠ '$') (cs : List Char) :
    takeMark (mark fixed ++ c :: cs) = (fixed, c :: cs) := by
  cases fixed with
  | true => rfl
  | false =>
    unfold takeMark
    split
    next eq => exact absurd (List.cons.inj eq).1 h
    next => rfl

theorem mark_takeMark (cs : List Char) : mark (takeMark cs).1 ++ (takeMark cs).2 = cs := by
  unfold takeMark
  split <;> rfl

theorem isAlpha_of_isDigit {c : Char} (h : c.isDigit) : c.isAlpha = false := by
  have range := Text.isDigit_iff.1 h
  rw [← Bool.not_eq_true, Text.isAlpha_iff]
  omega

/-- The text of an address, without blanks around it: letters of a column and digits of a row of the
sheet, each after a mark or none. -/
structure Spelling where
  colFixed : Bool
  letters : List Char
  rowFixed : Bool
  digits : List Char
  letters_ne_nil : letters ≠ []
  isAlpha : ∀ c ∈ letters, c.isAlpha
  column_le : lettersValue letters ≤ 16384
  digits_ne_nil : digits ≠ []
  isDigit : ∀ c ∈ digits, c.isDigit
  one_le_row : 1 ≤ Nat.ofDigitChars 10 digits 0
  row_le : Nat.ofDigitChars 10 digits 0 ≤ 1048576

namespace Spelling

variable (w : Spelling)

def chars : List Char := mark w.colFixed ++ w.letters ++ mark w.rowFixed ++ w.digits

/-- The cell that is named. -/
def address : Address where
  row := Nat.ofDigitChars 10 w.digits 0 - 1
  col := lettersValue w.letters - 1
  rowFixed := w.rowFixed
  colFixed := w.colFixed

/-- A spelling names a cell of the sheet. -/
theorem inSheet_address : w.address.InSheet := by
  have rowPos := w.one_le_row
  have colPos := lettersValue_pos w.letters_ne_nil w.isAlpha
  have row := w.row_le
  have col := w.column_le
  constructor
  · change Nat.ofDigitChars 10 w.digits 0 - 1 < 1048576
    omega
  · change lettersValue w.letters - 1 < 16384
    omega

/-- The address is written with capital letters and without leading zeros. -/
theorem toChars_address : w.address.toChars =
    mark w.colFixed ++ w.letters.map Char.toUpper ++ mark w.rowFixed ++
      w.digits.dropWhile (· == '0') := by
  have positive := w.one_le_row
  have row : Nat.toDigits 10 (w.address.row + 1) = w.digits.dropWhile (· == '0') := by
    rw [toDigits_ofDigitChars w.isDigit, if_neg (by omega), address, Nat.sub_add_cancel positive]
  have col : columnLetters w.address.col = w.letters.map Char.toUpper :=
    columnLetters_lettersValue w.letters_ne_nil w.isAlpha
  rw [toChars, row, col]
  rfl

/-- A spelling is read as its cell: the letters end at the mark or the first digit of the row. -/
theorem ofTrimmed_chars : ofTrimmed w.chars = .ok w.address := by
  obtain ⟨c, letters, hletters⟩ := List.exists_cons_of_ne_nil w.letters_ne_nil
  obtain ⟨d, digits, hdigits⟩ := List.exists_cons_of_ne_nil w.digits_ne_nil
  have digit : d.isDigit := w.isDigit d (hdigits ▸ List.mem_cons_self)
  have hc : c ≠ '$' := by
    rintro rfl
    exact absurd (w.isAlpha '$' (hletters ▸ List.mem_cons_self)) (by decide)
  have hd : d ≠ '$' := by
    rintro rfl
    exact absurd digit (by decide)
  have column : takeMark w.chars = (w.colFixed, w.letters ++ (mark w.rowFixed ++ d :: digits)) := by
    have taken := takeMark_mark w.colFixed hc (letters ++ (mark w.rowFixed ++ d :: digits))
    simpa [chars, hletters, hdigits] using taken
  -- The letters end at the mark of the row or at its first digit.
  have stop : ∀ x ∈ (mark w.rowFixed ++ d :: digits).head?, x.isAlpha = false := by
    cases w.rowFixed <;> simp [mark, isAlpha_of_isDigit digit]
  obtain ⟨front, rest⟩ := Text.span_append w.isAlpha stop
  have nonempty : w.chars.isEmpty = false := by simp [chars, hletters]
  have col := (columnOfLetters_eq_ok_iff w.isAlpha).2 ⟨w.letters_ne_nil, w.column_le, rfl⟩
  have row := (@readRow_eq_ok_iff (String.ofList w.chars) _ _).2
    ⟨w.digits_ne_nil, w.isDigit, w.one_le_row, w.row_le, rfl⟩
  rw [hdigits] at row
  simp only [ofTrimmed, nonempty, column, front, rest, List.isEmpty_iff, w.letters_ne_nil,
    takeMark_mark w.rowFixed hd, col, row]
  rw [← hdigits]
  rfl

end Spelling

/-- The spellings are the texts that are read, each as its own address. -/
theorem ofTrimmed_eq_ok_iff {cs : List Char} {a : Address} :
    ofTrimmed cs = .ok a ↔ ∃ w : Spelling, w.chars = cs ∧ w.address = a := by
  constructor
  · intro h
    unfold ofTrimmed at h
    dsimp only at h
    split at h
    · cases h
    split at h
    · cases h
    simp only [bind_eq_ok_iff] at h
    obtain ⟨col, hcol, row, hrow, h⟩ := h
    cases h
    have alpha : ∀ c ∈ (takeMark cs).2.takeWhile Char.isAlpha, c.isAlpha :=
      List.all_eq_true.1 List.all_takeWhile
    obtain ⟨letters, inside, rfl⟩ := (columnOfLetters_eq_ok_iff alpha).1 hcol
    obtain ⟨digits, digit, positive, small, rfl⟩ := readRow_eq_ok_iff.1 hrow
    refine ⟨⟨_, _, _, _, letters, alpha, inside, digits, digit, positive, small⟩, ?_, rfl⟩
    rw [Spelling.chars, List.append_assoc, mark_takeMark, List.append_assoc,
      List.takeWhile_append_dropWhile, mark_takeMark]
  · rintro ⟨w, rfl, rfl⟩
    exact w.ofTrimmed_chars

/-! ### Written addresses -/

/-- An address is written with marks, letters and digits. -/
theorem mem_toChars {a : Address} {c : Char} (h : c ∈ a.toChars) : c = '$' ∨ c.isAlphanum := by
  have marked : ∀ {fixed : Bool}, c ∈ mark fixed → c = '$' := by
    intro fixed hc
    cases fixed with
    | true => simpa [mark] using hc
    | false => simp [mark] at hc
  simp only [toChars, List.mem_append] at h
  rcases h with ((h | h) | h) | h
  · exact .inl (marked h)
  · exact .inr (by simp [Char.isAlphanum, isAlpha_of_mem_columnLetters h])
  · exact .inl (marked h)
  · have digit := Nat.isDigit_of_mem_toDigits (by decide) (by decide) h
    exact .inr (by simp [Char.isAlphanum, digit])

/-- Addresses hold no blanks and nothing that divides ranges or references. -/
theorem plain_of_mem_toChars {a : Address} {c : Char} (h : c ∈ a.toChars) :
    Text.isBlank c = false ∧ c ≠ ':' ∧ c ≠ '!' ∧ c ≠ '=' := by
  rcases mem_toChars h with rfl | h
  · decide
  · refine ⟨Text.isBlank_of_isAlphanum h, ?_, ?_, ?_⟩
    all_goals
      rintro rfl
      exact absurd h (by decide)

theorem toChars_ne_nil (a : Address) : a.toChars ≠ [] := by
  simp [toChars, columnLetters_ne_nil]

/-- The text of an address of the sheet. -/
def spelling (a : Address) (h : a.InSheet) : Spelling where
  colFixed := a.colFixed
  letters := columnLetters a.col
  rowFixed := a.rowFixed
  digits := Nat.toDigits 10 (a.row + 1)
  letters_ne_nil := columnLetters_ne_nil a.col
  isAlpha _ mem := isAlpha_of_mem_columnLetters mem
  column_le := by
    rw [lettersValue_columnLetters]
    exact h.2
  digits_ne_nil := Nat.toDigits_ne_nil
  isDigit _ mem := Nat.isDigit_of_mem_toDigits (by decide) (by decide) mem
  one_le_row := by
    rw [Nat.ofDigitChars_ten_toDigits]
    exact Nat.le_add_left 1 a.row
  row_le := by
    rw [Nat.ofDigitChars_ten_toDigits]
    exact h.1

/-- The text of an address spells it. -/
theorem address_spelling {a : Address} (h : a.InSheet) : (a.spelling h).address = a := by
  simp only [spelling, Spelling.address, lettersValue_columnLetters, Nat.ofDigitChars_ten_toDigits,
    Nat.add_sub_cancel]

/-- An address of the sheet is read as it was written. -/
theorem ofChars_toChars {a : Address} (h : a.InSheet) : ofChars a.toChars = .ok a := by
  have tight := Text.tight_of_forall fun c hc => (plain_of_mem_toChars (a := a) hc).1
  rw [ofChars, Text.trim_of_tight tight]
  exact ofTrimmed_eq_ok_iff.2 ⟨a.spelling h, rfl, address_spelling h⟩

/-- What is read as an address lies on the sheet. -/
theorem inSheet_of_ofChars {cs : List Char} {a : Address} (h : ofChars cs = .ok a) : a.InSheet := by
  obtain ⟨w, -, rfl⟩ := ofTrimmed_eq_ok_iff.1 h
  exact w.inSheet_address

theorem parse_text {a : Address} (h : a.InSheet) : parse a.text = .ok a := by
  rw [parse, text, String.toList_ofList, ofChars_toChars h]

/-! ### Reading is exact -/

/-- Letters that are read stay on the sheet, one by one. -/
theorem le_maxCols_of_readLetters {all letters : List Char} {value n : Nat} (start : value ≤ maxCols)
    (h : readLetters all value letters = .ok n) : n ≤ maxCols := by
  induction letters generalizing value with
  | nil =>
    cases h
    exact start
  | cons c letters ih =>
    simp only [readLetters] at h
    split at h
    · split at h
      · cases h
      · exact ih (by omega) h
    · cases h

/-- One more letter after letters that were read does not leave 32 bits. -/
theorem readLetters_fits {all read : List Char} {value : Nat} (h : readLetters all 0 read = .ok value)
    {c : Char} (alpha : c.isAlpha) : value * 26 + letterValue c < 2 ^ 32 := by
  have inside : value ≤ 16384 := le_maxCols_of_readLetters (Nat.zero_le _) h
  obtain ⟨k, small, -, letter⟩ := exists_letter alpha
  omega

/-- A row that does not fit in 32 bits is no row. -/
theorem readRow_of_large {text : String} {digits : List Char} (digit : ∀ c ∈ digits, c.isDigit)
    (large : 2 ^ 32 ≤ Nat.ofDigitChars 10 digits 0) : readRow text digits = .error (.badRow text) := by
  have some : digits.isEmpty = false := by
    cases digits with
    | nil => exact absurd large (by decide)
    | cons c digits => rfl
  rw [readRow, some, List.all_eq_true.2 digit, digitsValue_eq]
  exact if_pos large

/-- A text without the zeros in front of its digits. -/
def withoutRowZeros (cs : List Char) : List Char :=
  cs.takeWhile (fun c => !c.isDigit) ++ (cs.dropWhile fun c => !c.isDigit).dropWhile (· == '0')

/-- An address is written like its spelling, in capitals and without leading zeros. -/
theorem Spelling.toChars_eq (w : Spelling) :
    w.address.toChars = withoutRowZeros (w.chars.map Char.toUpper) := by
  have capital : ∀ k : Fin 26, (Char.ofNat (65 + k)).isDigit = false := by decide
  have marks : ∀ fixed, (mark fixed).map Char.toUpper = mark fixed := by decide
  have noMark : ∀ fixed, ∀ c ∈ mark fixed, c.isDigit = false := by
    intro fixed c mem
    cases fixed with
    | true =>
      obtain rfl := List.mem_singleton.1 mem
      decide
    | false => cases mem
  have digits : w.digits.map Char.toUpper = w.digits := by
    rw [List.map_congr_left fun c mem => toUpper_of_isDigit (w.isDigit c mem), List.map_id']
  have front : ∀ c ∈ mark w.colFixed ++ w.letters.map Char.toUpper ++ mark w.rowFixed,
      (!c.isDigit) = true := by
    intro c mem
    rw [Bool.not_eq_true']
    rcases List.mem_append.1 mem with mem | mem
    · rcases List.mem_append.1 mem with mem | mem
      · exact noMark _ c mem
      · obtain ⟨d, letter, rfl⟩ := List.mem_map.1 mem
        obtain ⟨k, small, upper, -⟩ := exists_letter (w.isAlpha d letter)
        rw [upper]
        exact capital ⟨k, small⟩
    · exact noMark _ c mem
  have stop : ∀ c ∈ w.digits.head?, (!c.isDigit) = false := fun c mem => by
    simp [w.isDigit c (List.mem_of_mem_head? mem)]
  obtain ⟨before, after⟩ := Text.span_append front stop
  rw [toChars_address, withoutRowZeros, chars]
  simp only [List.map_append, marks, digits, before, after]

/-- The spellings, with blanks around them or not, are the texts that are read, and the address is
written like its spelling. Numbers stay in 32 bits while letters are read, and a row that does not is
refused. What is written is read again, with its marks and with all marks. -/
theorem parsed_exactly :
    (∀ s : String,
      ((∃ a, parse s = .ok a) ↔ ∃ w : Spelling, w.chars = Text.trim s.toList) ∧
      (∀ w : Spelling, w.chars = Text.trim s.toList → parse s = .ok w.address) ∧
      ∀ a, parse s = .ok a →
        a.text = String.ofList (withoutRowZeros ((Text.trim s.toList).map Char.toUpper))) ∧
    (∀ (all read : List Char) (value : Nat) (c : Char), readLetters all 0 read = .ok value →
      c.isAlpha → value * 26 + letterValue c < 2 ^ 32) ∧
    (∀ (text : String) (digits : List Char), (∀ c ∈ digits, c.isDigit) →
      2 ^ 32 ≤ Nat.ofDigitChars 10 digits 0 → readRow text digits = .error (.badRow text)) ∧
    ∀ a : Address, a.InSheet → parse a.text = .ok a ∧
      ∃ b, parse a.absoluteText = .ok b ∧ b.sameCell a := by
  refine ⟨fun s => ⟨?_, ?_, ?_⟩, fun _ _ _ _ read alpha => readLetters_fits read alpha,
    fun _ _ digit large => readRow_of_large digit large, fun a here => ⟨parse_text here, ?_⟩⟩
  · constructor
    · rintro ⟨a, read⟩
      obtain ⟨w, spelled, -⟩ := ofTrimmed_eq_ok_iff.1 read
      exact ⟨w, spelled⟩
    · rintro ⟨w, spelled⟩
      exact ⟨w.address, ofTrimmed_eq_ok_iff.2 ⟨w, spelled, rfl⟩⟩
  · exact fun w spelled => ofTrimmed_eq_ok_iff.2 ⟨w, spelled, rfl⟩
  · intro a read
    obtain ⟨w, spelled, rfl⟩ := ofTrimmed_eq_ok_iff.1 read
    rw [text, w.toChars_eq, spelled]
  · exact ⟨a.pinned, parse_text (a := a.pinned) here, by simp [sameCell, pinned]⟩

/-- The last cell of a sheet in small letters and with zeros. -/
def Spelling.lastCell : Spelling where
  colFixed := true
  letters := ['x', 'F', 'd']
  rowFixed := true
  digits := "0001048576".toList
  letters_ne_nil := by decide
  isAlpha := List.all_eq_true.1 (by decide)
  column_le := by decide
  digits_ne_nil := by decide
  isDigit := List.all_eq_true.1 (by decide)
  one_le_row := by decide
  row_le := by decide

/-- The last cell with blanks around it; a letter after its column; a row of eleven digits. -/
theorem parsed_exactly_lastCell :
    parse " $xFd$0001048576\n" = .ok ⟨1048575, 16383, true, true⟩ ∧
    text ⟨1048575, 16383, true, true⟩ = "$XFD$1048576" ∧
    readLetters [] 0 ['X', 'F', 'D'] = .ok 16384 ∧ 16384 * 26 + letterValue 'z' < 2 ^ 32 ∧
    readRow "A42949672960" "42949672960".toList = .error (.badRow "A42949672960") ∧
    parse (text ⟨1048575, 16383, true, false⟩) = .ok ⟨1048575, 16383, true, false⟩ := by
  obtain ⟨texts, letters, rows, cells⟩ := parsed_exactly
  have named : Spelling.lastCell.address = ⟨1048575, 16383, true, true⟩ := by decide
  have read := (texts " $xFd$0001048576\n").2.1 .lastCell (by decide)
  have column : readLetters [] 0 ['X', 'F', 'D'] = .ok 16384 := by decide
  rw [named] at read
  refine ⟨read, ?_, column, letters _ _ _ 'z' column (by decide),
    rows _ _ (List.all_eq_true.1 (by decide)) (by decide), (cells _ (by decide)).1⟩
  rw [(texts _).2.2 _ read]
  decide

end Address

end SheetCompiler
