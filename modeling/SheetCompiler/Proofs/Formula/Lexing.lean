import SheetCompiler.Proofs.Formula.WellFormed

/-!
# Cutting what was written

`Token.chars` spells a token. A spelled token is cut off again whatever follows, as long as that
does not go on with it (`Token.Ends`, `Scan.takeToken_chars`); blanks before it are passed over.
`Cut` says which tokens are cut from what is left of a text, and so lets a text be read token by
token.
-/

namespace SheetCompiler

/-- Only blanks. -/
def Text.Blanks (gap : List Char) : Prop := ∀ c ∈ gap, isBlank c

theorem Text.blanks_nil : Blanks [] := by simp [Blanks]

namespace Scan

/-! ### Quotes -/

/-- Writes a quote twice wherever it stands. -/
def doubled (quote : Char) : List Char → List Char
  | [] => []
  | c :: cs => if c = quote then quote :: quote :: doubled quote cs else c :: doubled quote cs

/-- Sheet names double their quotes as texts do. -/
theorem doubled_apostrophe (cs : List Char) : doubled '\'' cs = SheetName.doubleQuotes cs := by
  induction cs with
  | nil => rfl
  | cons c cs ih => simp [doubled, SheetName.doubleQuotes, ih]

/-- A doubled text is read up to the quote that stands alone. -/
theorem takeQuoted_doubled {quote : Char} {rest : List Char} (alone : ∀ c ∈ rest.head?, c ≠ quote)
    (cs : List Char) : takeQuoted quote (doubled quote cs ++ quote :: rest) = some (cs, rest) := by
  induction cs with
  | nil =>
    cases rest with
    | nil => simp [doubled, takeQuoted]
    | cons d rest =>
      have other : d ≠ quote := alone d (by simp)
      simp [doubled, takeQuoted, other]
  | cons c cs ih =>
    by_cases same : c = quote
    · simp [doubled, takeQuoted, same, ih]
    · rw [doubled, if_neg same, List.cons_append, takeQuoted.eq_def]
      simp [same, ih]

/-! ### What ends a word -/

/-- The characters of operators and punctuation. -/
def symbolChars : List Char :=
  ['<', '>', '+', '-', '*', '/', '^', '&', '=', ':', ',', '(', ')']

/-- What follows is nothing, a blank, an operator or punctuation. -/
def Breaks (rest : List Char) : Prop := ∀ c ∈ rest.head?, Text.isBlank c ∨ c ∈ symbolChars

/-- A sign breaks a word, also behind blanks. -/
theorem breaks_append {gap : List Char} (blank : Text.Blanks gap) {c : Char}
    (symbol : c ∈ symbolChars) (cs : List Char) : Breaks (gap ++ c :: cs) := by
  intro d hd
  cases gap with
  | nil =>
    obtain rfl : c = d := by simpa using hd
    exact .inr symbol
  | cons g gap =>
    obtain rfl : g = d := by simpa using hd
    exact .inl (blank g List.mem_cons_self)

/-- A character that ends words is in none. -/
theorem Breaks.outside {rest : List Char} (breaks : Breaks rest) {c : Char} (h : c ∈ rest.head?) :
    isWordChar c = false ∧ c ≠ '!' ∧ c ≠ '%' ∧ c ≠ '"' := by
  rcases breaks c h with blank | symbol
  · have plain : c.isAlphanum = false := by
      by_contra alphanum
      simp [Text.isBlank_of_isAlphanum (by simpa using alphanum)] at blank
    have other : ∀ d, Text.isBlank d = false → c ≠ d := by
      rintro d h rfl
      simp [h] at blank
    refine ⟨?_, other _ (by decide), other _ (by decide), other _ (by decide)⟩
    simp [isWordChar, plain, other '_' (by decide), other '$' (by decide), other '.' (by decide)]
  · have apart : symbolChars.all fun c => isWordChar c = false ∧ c ≠ '!' ∧ c ≠ '%' ∧ c ≠ '"' := by
      decide
    exact of_decide_eq_true (List.all_eq_true.1 apart c symbol)

theorem isWordChar_of_isDigit {c : Char} (h : c.isDigit) : isWordChar c := by
  simp [isWordChar, Char.isAlphanum, h]

theorem Breaks.noDigit {rest : List Char} (breaks : Breaks rest) {c : Char} (h : c ∈ rest.head?) :
    c.isDigit = false := by
  by_contra digit
  have := (breaks.outside h).1
  rw [isWordChar_of_isDigit (by simpa using digit)] at this
  cases this

/-! ### Numbers -/

/-- The sign of a percentage. -/
def percentSign (percent : Bool) : List Char := if percent then ['%'] else []

section

variable {rest : List Char}

/-- Digits are taken up to what is none. -/
theorem takeDigits_append {digits : List Char} (all : ∀ c ∈ digits, c.isDigit)
    (stop : ∀ c ∈ rest.head?, c.isDigit = false) : takeDigits (digits ++ rest) = (digits, rest) := by
  obtain ⟨front, back⟩ := Text.span_append all stop
  rw [takeDigits, front, back]

/-- What ends a number goes on with none of its parts, with a percent sign or without one. -/
theorem head?_percentSign (breaks : Breaks rest) (percent : Bool) {c : Char}
    (h : c ∈ (percentSign percent ++ rest).head?) :
    c.isDigit = false ∧ c ≠ '.' ∧ c ≠ 'e' ∧ c ≠ 'E' := by
  cases percent with
  | true =>
    obtain rfl : '%' = c := by simpa [percentSign] using h
    decide
  | false =>
    have h : c ∈ rest.head? := h
    have outside := (breaks.outside h).1
    refine ⟨breaks.noDigit h, ?_, ?_, ?_⟩
    all_goals
      rintro rfl
      exact absurd outside (by decide)

/-- An exponent is taken as a whole. If there is none, what follows is not taken for one. -/
theorem takeExponent_append {exponent : List Char} (h : IsExponent exponent)
    (stop : ∀ c ∈ rest.head?, c.isDigit = false ∧ c ≠ '.' ∧ c ≠ 'e' ∧ c ≠ 'E') :
    takeExponent (exponent ++ rest) = (exponent, rest) := by
  have noDigit : ∀ c ∈ rest.head?, c.isDigit = false := fun c hc => (stop c hc).1
  rcases h with rfl | ⟨mark, sign, digits, rfl, hmark, hsign, some, digit⟩
  · cases rest with
    | nil => rfl
    | cons c rest =>
      obtain ⟨-, -, noMark, noMark'⟩ := stop c (by simp)
      simp [takeExponent, noMark, noMark']
  · obtain ⟨d, digits, rfl⟩ := List.exists_cons_of_ne_nil some
    have first : d.isDigit := digit d List.mem_cons_self
    have taken : takeDigits (d :: digits ++ rest) = (d :: digits, rest) :=
      takeDigits_append digit noDigit
    rw [List.cons_append] at taken
    rcases hsign with rfl | hsign
    · -- Without a sign, a digit alone at the end is a case of its own.
      have unsigned : ¬(d = '+' ∨ d = '-') := by
        rintro (rfl | rfl) <;> exact absurd first (by decide)
      cases tail : digits ++ rest with
      | nil =>
        obtain ⟨rfl, rfl⟩ := List.append_eq_nil_iff.1 tail
        simp [takeExponent, hmark, first]
      | cons d' others =>
        rw [tail] at taken
        simp [takeExponent, hmark, unsigned, first, tail, taken]
    · obtain ⟨s, rfl, hs⟩ : ∃ s, sign = [s] ∧ (s = '+' ∨ s = '-') := by
        rcases hsign with rfl | rfl <;> simp
      simp [takeExponent, hmark, hs, first, taken]

theorem head?_append_exponent {exponent : List Char} (h : IsExponent exponent)
    (stop : ∀ c ∈ rest.head?, c.isDigit = false ∧ c ≠ '.' ∧ c ≠ 'e' ∧ c ≠ 'E') {c : Char}
    (hc : c ∈ (exponent ++ rest).head?) : c.isDigit = false ∧ c ≠ '.' := by
  rcases h with rfl | ⟨mark, sign, digits, rfl, hmark, -⟩
  · exact ⟨(stop c hc).1, (stop c hc).2.1⟩
  · obtain rfl : mark = c := by simpa using hc
    rcases hmark with rfl | rfl <;> decide

/-- A fraction is taken as a whole. -/
theorem takeFraction_append {fraction : List Char} (h : IsFraction fraction)
    (stop : ∀ c ∈ rest.head?, c.isDigit = false ∧ c ≠ '.') :
    takeFraction (fraction ++ rest) = (fraction, rest) := by
  rcases h with rfl | ⟨digits, rfl, digit⟩
  · cases rest with
    | nil => rfl
    | cons c rest => simp [takeFraction, (stop c (by simp)).2]
  · rw [List.cons_append, takeFraction, takeDigits_append digit fun c hc => (stop c hc).1]

theorem head?_append_fraction {fraction : List Char} (h : IsFraction fraction)
    (stop : ∀ c ∈ rest.head?, c.isDigit = false ∧ c ≠ '.') {c : Char}
    (hc : c ∈ (fraction ++ rest).head?) : c.isDigit = false := by
  rcases h with rfl | ⟨digits, rfl, -⟩
  · exact (stop c hc).1
  · obtain rfl : '.' = c := by simpa using hc
    decide

/-- A number is cut off part by part: each part ends where the next one starts. -/
theorem takeNumber_append {digits : List Char} (h : IsNumeral digits) (breaks : Breaks rest)
    (percent : Bool) :
    takeNumber (digits ++ (percentSign percent ++ rest)) =
      (.number (String.ofList digits) percent, rest) := by
  obtain ⟨whole, fraction, exponent, rfl, hwhole, hfraction, hexponent⟩ := h
  have last := fun c => head?_percentSign breaks percent (c := c)
  have middle := fun c => head?_append_exponent hexponent last (c := c)
  have first := fun c => head?_append_fraction hfraction middle (c := c)
  have text : whole ++ (fraction ++ exponent) ++ (percentSign percent ++ rest) =
      whole ++ (fraction ++ (exponent ++ (percentSign percent ++ rest))) := by simp
  rw [text, takeNumber, takeDigits_append hwhole.2 first]
  dsimp only
  rw [takeFraction_append hfraction middle]
  dsimp only
  rw [takeExponent_append hexponent last]
  dsimp only
  cases percent with
  | true => simp [percentSign]
  | false =>
    split
    next cs eq =>
      have : '%' ∈ rest.head? := by
        rw [show rest = '%' :: cs from eq]
        rfl
      exact absurd rfl (breaks.outside this).2.2.1
    next => simp [percentSign]

end

/-! ### Words and symbols -/

section

variable {total : Nat} {rest : List Char}

/-- No other character starts an operator or punctuation. -/
theorem takeSymbol_eq_none {c : Char} (h : c ∉ symbolChars) (cs : List Char) :
    takeSymbol (c :: cs) = none := by
  unfold takeSymbol
  split
  case h_17 => rfl
  -- In all other cases the first character is one of the symbols.
  all_goals
    rename_i eq
    obtain ⟨rfl, -⟩ := List.cons.inj eq
    exact absurd (by decide) h

theorem takeWhile_word {word : List Char} (chars : ∀ c ∈ word, isWordChar c)
    (stop : ∀ c ∈ rest.head?, isWordChar c = false) :
    (word ++ rest).takeWhile isWordChar = word ∧ (word ++ rest).dropWhile isWordChar = rest :=
  Text.span_append chars stop

/-- A bare sheet name is a word without marks. -/
theorem isWordChar_of_isSheetWord {word : List Char} (h : isSheetWord word) :
    ∀ c ∈ word, isWordChar c ∧ c ≠ '$' := by
  have known : ∀ c ∈ word, Text.isIdentifierChar c || c == '.' := by
    cases word with
    | nil => simp
    | cons first word =>
      obtain ⟨start, others⟩ := Bool.and_eq_true_iff.1 h
      intro c hc
      rcases List.mem_cons.1 hc with rfl | hc
      · rcases Bool.or_eq_true_iff.1 start with alpha | mark
        · simp [Text.isIdentifierChar, Char.isAlphanum, alpha]
        · simp [Text.isIdentifierChar, beq_iff_eq.1 mark]
      · exact List.all_eq_true.1 others c hc
  intro c hc
  have hc := known c hc
  constructor
  · simp only [Text.isIdentifierChar, Bool.or_eq_true] at hc
    simp only [isWordChar, Bool.or_eq_true]
    tauto
  · rintro rfl
    exact absurd hc (by decide)

theorem isAlpha_of_isUpper {c : Char} (h : c.isUpper) : c.isAlpha :=
  Text.isAlpha_iff.2 (.inl (isUpper_iff.1 h))

/-- A cell is a word. -/
theorem isWordChar_of_isCell {word : List Char} (h : IsCell word) : ∀ c ∈ word, isWordChar c := by
  have mark : ∀ {fixed : Bool} {c : Char}, c ∈ Address.mark fixed → isWordChar c := by
    intro fixed c hc
    cases fixed with
    | true =>
      obtain rfl : c = '$' := by simpa [Address.mark] using hc
      decide
    | false => simp [Address.mark] at hc
  obtain ⟨colMark, letters, rowMark, digits, rfl, ⟨-, upper⟩, -, digit⟩ := h
  intro c hc
  simp only [List.mem_append] at hc
  rcases hc with hc | hc | hc | hc
  · exact mark hc
  · simp [isWordChar, Char.isAlphanum, isAlpha_of_isUpper (upper c hc)]
  · exact mark hc
  · exact isWordChar_of_isDigit (digit c hc)

/-- A word that is no cell is a name. -/
theorem takeWord_name {word : List Char} (name : isSheetWord word) (noCell : ¬IsCell word)
    (breaks : Breaks rest) :
    takeWord total (word ++ rest) = .ok (.name (String.ofList word), rest) := by
  obtain ⟨front, back⟩ := takeWhile_word (fun c hc => (isWordChar_of_isSheetWord name c hc).1)
    fun c hc => (breaks.outside hc).1
  have unmarked : '$' ∉ word := fun h => (isWordChar_of_isSheetWord name '$' h).2 rfl
  simp only [takeWord, front, back]
  split
  next after => exact absurd rfl (breaks.outside (by simp)).2.1
  next =>
    rw [if_neg (by rwa [isCellWord_iff]), if_neg (by simpa using unmarked)]

/-- A word that looks like a cell is one. -/
theorem takeWord_cell {word : List Char} (cell : IsCell word) (breaks : Breaks rest) :
    takeWord total (word ++ rest) = .ok (.cell (String.ofList word), rest) := by
  obtain ⟨front, back⟩ := takeWhile_word (isWordChar_of_isCell cell)
    fun c hc => (breaks.outside hc).1
  simp only [takeWord, front, back]
  split
  next after => exact absurd rfl (breaks.outside (by simp)).2.1
  next => rw [if_pos (isCellWord_iff.2 cell)]

/-- A word with an exclamation mark behind it is a sheet name. -/
theorem takeWord_sheet {word : List Char} (sheet : isSheetWord word) :
    takeWord total (word ++ '!' :: rest) = .ok (.sheet (String.ofList word), rest) := by
  have stop : ∀ c ∈ ('!' :: rest).head?, isWordChar c = false := by
    simp only [List.head?_cons, Option.mem_some_iff, forall_eq']
    decide
  obtain ⟨front, back⟩ :=
    takeWhile_word (fun c hc => (isWordChar_of_isSheetWord sheet c hc).1) stop
  simp only [takeWord, front, back]
  rw [if_pos sheet]

/-- A quoted sheet name ends at the quote that stands alone. -/
theorem takeSheet_quoted {word : List Char} (some : word ≠ []) :
    takeSheet total ('\'' :: (SheetName.doubleQuotes word ++ '\'' :: '!' :: rest)) =
      .ok (.sheet (String.ofList word), rest) := by
  have alone : ∀ c ∈ ('!' :: rest).head?, c ≠ '\'' := by simp
  have quoted := takeQuoted_doubled alone word
  rw [doubled_apostrophe] at quoted
  obtain ⟨c, word, rfl⟩ := List.exists_cons_of_ne_nil some
  simp only [takeSheet, List.tail_cons, quoted]

theorem takeText_doubled {content : List Char} (breaks : Breaks rest) :
    takeText total ('"' :: (doubled '"' content ++ '"' :: rest)) =
      .ok (.text (String.ofList content), rest) := by
  rw [takeText, List.tail_cons, takeQuoted_doubled fun c hc => (breaks.outside hc).2.2.2]

end

end Scan

/-! ### Tokens -/

namespace Token

/-- The token as it is written. -/
def chars : Token → List Char
  | .number digits percent => digits.toList ++ Scan.percentSign percent
  | .text content => '"' :: (Scan.doubled '"' content.toList ++ ['"'])
  | .name word | .cell word => word.toList
  | .sheet word => SheetName.quoteChars word.toList ++ ['!']
  | .operator op => op.symbol.toList
  | .colon => [':']
  | .comma => [',']
  | .openParen => ['(']
  | .closeParen => [')']

/-- What follows does not go on with the token. -/
def Ends : Token → List Char → Prop
  | .number .. , rest | .text _, rest | .name _, rest | .cell _, rest => Scan.Breaks rest
  | .operator _, rest => ∀ c ∈ rest.head?, c ≠ '=' ∧ c ≠ '>'
  | _, _ => True

end Token

namespace Scan

variable {total : Nat} {rest : List Char}

theorem takeToken_symbol {c : Char} {cs : List Char} {token : Token}
    (h : takeSymbol (c :: cs) = some (token, rest)) : takeToken total c cs = .ok (token, rest) := by
  simp only [takeToken, h]

/-- An operator is cut off as a whole, unless what follows makes it a longer one. -/
theorem takeToken_operator {op : Operator} (ends : (Token.operator op).Ends rest) {c : Char}
    {cs : List Char} (h : op.symbol.toList ++ rest = c :: cs) :
    takeToken total c cs = .ok (.operator op, rest) := by
  refine takeToken_symbol ?_
  rw [← h]
  cases op with
  | less | greater =>
    cases rest with
    | nil => rfl
    | cons d rest =>
      have other : d ≠ '=' ∧ d ≠ '>' := ends d (by simp)
      simp [Operator.symbol, takeSymbol, other]
  | _ => rfl

/-- A word starts with a letter or a mark. -/
def StartsWord (c : Char) : Prop := c.isAlpha ∨ c = '_' ∨ c = '$'

/-- Neither an operator nor a number nor a quote starts like a word. -/
theorem takeToken_word {c : Char} (h : StartsWord c) (cs : List Char) :
    takeToken total c cs = takeWord total (c :: cs) := by
  have noSymbol : c ∉ symbolChars := by
    have apart : symbolChars.all fun c => ¬(c.isAlpha ∨ c = '_' ∨ c = '$') := by decide
    exact fun symbol => of_decide_eq_true (List.all_eq_true.1 apart c symbol) h
  have noQuote : c ≠ '"' ∧ c ≠ '\'' := by
    constructor <;> (rintro rfl; exact absurd h (by unfold StartsWord; decide))
  have noDigit : c.isDigit = false := by
    by_contra digit
    have digit : c.isDigit := by simpa using digit
    rcases h with alpha | rfl | rfl
    · simp [Address.isAlpha_of_isDigit digit] at alpha
    · exact absurd digit (by decide)
    · exact absurd digit (by decide)
  have start : (c.isAlpha || c == '_' || c == '$') = true := by
    simpa [StartsWord, or_assoc] using h
  simp only [takeToken, takeSymbol_eq_none noSymbol, noQuote.1, noQuote.2, noDigit, start,
    if_false, if_true, Bool.false_eq_true]

/-- A digit starts a number. -/
theorem takeToken_number {c : Char} (h : c.isDigit) (cs : List Char) :
    takeToken total c cs = .ok (takeNumber (c :: cs)) := by
  have noSymbol : c ∉ symbolChars := by
    have apart : symbolChars.all fun c => ¬c.isDigit := by decide
    exact fun symbol => of_decide_eq_true (List.all_eq_true.1 apart c symbol) h
  have noQuote : c ≠ '"' ∧ c ≠ '\'' := by
    constructor <;> (rintro rfl; exact absurd h (by decide))
  simp only [takeToken, takeSymbol_eq_none noSymbol, noQuote.1, noQuote.2, h, if_false, if_true]

theorem head_of_isNumeral {digits : List Char} (h : IsNumeral digits) :
    ∃ c cs, digits = c :: cs ∧ c.isDigit := by
  obtain ⟨whole, fraction, exponent, rfl, ⟨some, digit⟩, -⟩ := h
  obtain ⟨c, cs, rfl⟩ := List.exists_cons_of_ne_nil some
  exact ⟨c, _, rfl, digit c List.mem_cons_self⟩

theorem head_of_isSheetWord {word : List Char} (h : isSheetWord word) :
    ∃ c cs, word = c :: cs ∧ StartsWord c := by
  cases word with
  | nil => cases h
  | cons c cs =>
    obtain ⟨start, -⟩ := Bool.and_eq_true_iff.1 h
    rcases Bool.or_eq_true_iff.1 start with alpha | mark
    · exact ⟨c, cs, rfl, .inl alpha⟩
    · exact ⟨c, cs, rfl, .inr (.inl (beq_iff_eq.1 mark))⟩

theorem head_of_isCell {word : List Char} (h : IsCell word) :
    ∃ c cs, word = c :: cs ∧ StartsWord c := by
  obtain ⟨colMark, letters, rowMark, digits, rfl, ⟨some, upper⟩, -⟩ := h
  cases colMark with
  | true => exact ⟨'$', _, rfl, .inr (.inr rfl)⟩
  | false =>
    obtain ⟨c, cs, rfl⟩ := List.exists_cons_of_ne_nil some
    exact ⟨c, _, rfl, .inl (isAlpha_of_isUpper (upper c List.mem_cons_self))⟩

/-- Identifiers stand without quotes. -/
theorem isSheetWord_of_isIdentifierChars {word : List Char} (h : Text.isIdentifierChars word) :
    isSheetWord word := by
  cases word with
  | nil => cases h
  | cons c cs =>
    obtain ⟨start, others⟩ := Bool.and_eq_true_iff.1 h
    refine Bool.and_eq_true_iff.2 ⟨start, List.all_eq_true.2 fun d hd => ?_⟩
    rw [List.all_eq_true.1 others d hd, Bool.true_or]

/-- A sheet name is cut off as it was written, bare or in quotes. -/
theorem takeToken_sheet {word : String} (some : word ≠ "") {c : Char} {cs : List Char}
    (h : (Token.sheet word).chars ++ rest = c :: cs) :
    takeToken total c cs = .ok (.sheet word, rest) := by
  rw [Token.chars, SheetName.quoteChars] at h
  by_cases bare : Text.isIdentifierChars word.toList
  · have sheet := isSheetWord_of_isIdentifierChars bare
    have taken : takeWord total (word.toList ++ '!' :: rest) =
        .ok (.sheet (String.ofList word.toList), rest) := takeWord_sheet sheet
    rw [if_pos bare, List.append_assoc, List.singleton_append] at h
    obtain ⟨first, others, eq, start⟩ := head_of_isSheetWord sheet
    obtain rfl : first = c := by
      rw [eq] at h
      exact (List.cons.inj h).1
    rw [takeToken_word start, ← h, taken, String.ofList_toList]
  · have nonempty : word.toList ≠ [] := by simpa using some
    rw [if_neg bare] at h
    simp only [List.cons_append, List.append_assoc, List.nil_append] at h
    obtain ⟨rfl, rfl⟩ := List.cons.inj h
    have taken : takeSheet total
        ('\'' :: (SheetName.doubleQuotes word.toList ++ '\'' :: '!' :: rest)) =
          .ok (.sheet (String.ofList word.toList), rest) := takeSheet_quoted nonempty
    have noSymbol : '\'' ∉ symbolChars := by decide
    simp only [takeToken, takeSymbol_eq_none noSymbol, taken, String.ofList_toList]
    rfl

/-- A token is cut off as it was written. -/
theorem takeToken_chars {token : Token} (proper : token.Proper) (ends : token.Ends rest) {c : Char}
    {cs : List Char} (h : token.chars ++ rest = c :: cs) :
    takeToken total c cs = .ok (token, rest) := by
  cases token with
  | number digits percent =>
    obtain ⟨first, others, eq, digit⟩ := head_of_isNumeral proper
    obtain rfl : first = c := by
      rw [Token.chars, eq] at h
      exact (List.cons.inj h).1
    rw [takeToken_number digit, ← h, Token.chars, List.append_assoc,
      takeNumber_append proper ends, String.ofList_toList]
  | text content =>
    rw [Token.chars, List.cons_append, List.append_assoc, List.singleton_append] at h
    obtain ⟨rfl, rfl⟩ := List.cons.inj h
    have noSymbol : '"' ∉ symbolChars := by decide
    have taken : takeText total ('"' :: (doubled '"' content.toList ++ '"' :: rest)) =
        .ok (.text (String.ofList content.toList), rest) := takeText_doubled ends
    simp only [takeToken, takeSymbol_eq_none noSymbol, taken, String.ofList_toList]
    rfl
  | name word =>
    obtain ⟨first, others, eq, start⟩ := head_of_isSheetWord proper.1
    obtain rfl : first = c := by
      rw [Token.chars, eq] at h
      exact (List.cons.inj h).1
    rw [takeToken_word start, ← h, Token.chars, takeWord_name proper.1 proper.2 ends,
      String.ofList_toList]
  | cell word =>
    obtain ⟨first, others, eq, start⟩ := head_of_isCell proper
    obtain rfl : first = c := by
      rw [Token.chars, eq] at h
      exact (List.cons.inj h).1
    rw [takeToken_word start, ← h, Token.chars, takeWord_cell proper ends, String.ofList_toList]
  | sheet word => exact takeToken_sheet proper h
  | operator op => exact takeToken_operator ends h
  | colon | comma | openParen | closeParen =>
    cases h
    rfl

/-- Only a digit starts a number. -/
theorem isDigit_of_takeToken {c : Char} {cs : List Char} {digits : String} {percent : Bool}
    (h : takeToken total c cs = .ok (.number digits percent, rest)) : c.isDigit := by
  unfold takeToken at h
  split at h
  next found =>
    cases h
    unfold takeSymbol at found
    split at found <;> cases found
  next =>
    split at h
    · unfold takeText at h
      split at h <;> cases h
    · split at h
      · unfold takeSheet at h
        split at h <;> cases h
      · split at h
        next digit => exact digit
        next =>
          split at h
          · unfold takeWord at h
            dsimp only at h
            split at h
            · split at h <;> cases h
            · split at h
              · cases h
              · split at h <;> cases h
          · cases h

theorem isBlank_of_isDigit {c : Char} (h : c.isDigit) : Text.isBlank c = false :=
  Text.isBlank_of_isAlphanum (by simp [Char.isAlphanum, h])

theorem isBlank_of_startsWord {c : Char} (h : StartsWord c) : Text.isBlank c = false := by
  rcases h with alpha | rfl | rfl
  · exact Text.isBlank_of_isAlphanum (by simp [Char.isAlphanum, alpha])
  · decide
  · decide

end Scan

/-- A written token starts with a character that is not blank. -/
theorem Token.exists_head {token : Token} (proper : token.Proper) :
    ∃ c cs, token.chars = c :: cs ∧ Text.isBlank c = false := by
  cases token with
  | number digits percent =>
    obtain ⟨c, cs, eq, digit⟩ := Scan.head_of_isNumeral proper
    exact ⟨c, _, by rw [chars, eq, List.cons_append], Scan.isBlank_of_isDigit digit⟩
  | text content => exact ⟨'"', _, rfl, by decide⟩
  | name word =>
    obtain ⟨c, cs, eq, start⟩ := Scan.head_of_isSheetWord proper.1
    exact ⟨c, cs, eq, Scan.isBlank_of_startsWord start⟩
  | cell word =>
    obtain ⟨c, cs, eq, start⟩ := Scan.head_of_isCell proper
    exact ⟨c, cs, eq, Scan.isBlank_of_startsWord start⟩
  | sheet word =>
    obtain ⟨c, cs, eq⟩ := List.exists_cons_of_ne_nil (SheetName.quoteChars_ne_nil word.toList)
    refine ⟨c, _, by rw [chars, eq, List.cons_append], ?_⟩
    exact (SheetName.tight_quoteChars word.toList).1 c (by simp [eq])
  | operator op => cases op <;> exact ⟨_, _, rfl, by decide⟩
  | colon | comma | openParen | closeParen => exact ⟨_, _, rfl, by decide⟩

/-! ### Texts -/

theorem Text.trimLeft_append {gap : List Char} (blank : Text.Blanks gap) {c : Char}
    (h : isBlank c = false) (cs : List Char) : trimLeft (gap ++ c :: cs) = c :: cs :=
  (span_append blank (by simpa using h)).2

/-- These tokens are cut from what is left of a text of so many bytes. -/
structure Cut (total : Nat) (cs : List Char) (ts : Tokens) : Prop where
  inside : Text.byteSize cs ≤ total
  tokens : ∃ fuel, cs.length < fuel ∧ ts = Scan.tokensOf total fuel cs

namespace Cut

variable {total : Nat} {gap rest : List Char} {ts : Tokens}

/-- The tokens of a text are cut from all of it. -/
theorem scan (cs : List Char) : Cut (Text.byteSize cs) cs (Tokens.scan cs) :=
  ⟨Nat.le_refl _, cs.length + 1, Nat.lt_succ_self _, rfl⟩

/-- A written token after blanks is the first token. -/
theorem token {token : Token} (cut : Cut total (gap ++ (token.chars ++ rest)) ts)
    (blank : Text.Blanks gap) (proper : token.Proper) (ends : token.Ends rest) :
    ∃ after, Cut total rest after ∧
      ts = .token token (Scan.offset total (token.chars ++ rest)) (Scan.offset total rest) after := by
  obtain ⟨inside, fuel, enough, rfl⟩ := cut
  obtain ⟨c, cs, chars, noBlank⟩ := Token.exists_head proper
  have text : token.chars ++ rest = c :: (cs ++ rest) := by rw [chars, List.cons_append]
  have size : Text.byteSize rest ≤ total := by
    simp only [Text.byteSize_append] at inside
    omega
  simp only [List.length_append, chars, List.length_cons] at enough
  obtain ⟨fuel, rfl⟩ : ∃ more, fuel = more + 1 := ⟨fuel - 1, by omega⟩
  refine ⟨Scan.tokensOf total fuel rest, ⟨size, fuel, by omega, rfl⟩, ?_⟩
  rw [Scan.tokensOf, text, Text.trimLeft_append blank noBlank]
  dsimp only
  rw [Scan.takeToken_chars proper ends text]

/-- Where a number is cut off, a digit stands, and the number starts there. -/
theorem number_inv {cs : List Char} {digits : String} {percent : Bool} {start stop : Nat}
    (cut : Cut total cs (.token (.number digits percent) start stop ts)) :
    ∃ c more, Text.trimLeft cs = c :: more ∧ c.isDigit ∧ start = Scan.offset total (c :: more) := by
  obtain ⟨-, fuel, -, tokens⟩ := cut
  cases fuel with
  | zero => cases tokens
  | succ fuel =>
    unfold Scan.tokensOf at tokens
    split at tokens
    · cases tokens
    next c more trimmed =>
      split at tokens
      · cases tokens
      next taken =>
        cases tokens
        exact ⟨c, more, trimmed, Scan.isDigit_of_takeToken taken, rfl⟩

/-- Where only blanks are left, no token comes. -/
theorem done (cut : Cut total gap ts) (blank : Text.Blanks gap) : ts = .done total := by
  obtain ⟨-, fuel, enough, rfl⟩ := cut
  obtain ⟨fuel, rfl⟩ : ∃ more, fuel = more + 1 := ⟨fuel - 1, by omega⟩
  have empty : Text.trimLeft gap = [] := List.dropWhile_eq_nil_iff.2 blank
  rw [Scan.tokensOf, empty]

/-- A token stands apart from the one before it exactly if there are blanks between them. -/
theorem offset_eq_iff {cs : List Char} (inside : Text.byteSize (gap ++ cs) ≤ total) :
    Scan.offset total cs = Scan.offset total (gap ++ cs) ↔ gap = [] := by
  constructor
  · intro same
    by_contra some
    have := Text.byteSize_pos some
    rw [Text.byteSize_append] at inside
    simp only [Scan.offset, Text.byteSize_append] at same
    omega
  · rintro rfl
    rfl

end Cut

end SheetCompiler
