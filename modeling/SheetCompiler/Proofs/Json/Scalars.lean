import SheetCompiler.Json.Reader
import SheetCompiler.Proofs.Grid.AddressText

/-!
# Scalars in JSON texts

A text is written between quotes so that it ends at the closing quote (`takeString_escape`) and is
read as it was (`unescape_escape`). The shape of numbers is said beside their reader (`IsNumber`): a
number ends where a value can end (`takeNumber_append`).
-/

namespace SheetCompiler.Json

/-- What is read in parts is read part by part. -/
theorem read_then {α β : Type} {x : Option α} {f : α → Option β} {a : α} {b : β}
    (first : x = some a) (others : f a = some b) : x >>= f = some b :=
  Option.bind_eq_some_iff.2 ⟨a, first, others⟩

/-! ### Strings -/

theorem hexValue4?_control : ∀ n : Fin 32,
    hexValue4? '0' '0' (hexDigit (n / 16)) (hexDigit (n % 16)) = some n.val := by
  decide

/-- A character is escaped by a letter or by its number, or stands for itself. -/
theorem escapeChar_cases (c : Char) :
    (∃ mark, mark ≠ 'u' ∧ unescapeChar? mark = some c ∧ escapeChar c = ['\\', mark]) ∨
    (∃ high low, hexValue4? '0' '0' high low = some c.toNat ∧ c.toNat < 32 ∧
      escapeChar c = ['\\', 'u', '0', '0', high, low]) ∨
    c ≠ '"' ∧ c ≠ '\\' ∧ 32 ≤ c.toNat ∧ escapeChar c = [c] := by
  have ofNat : ∀ n, c.toNat = n → Char.ofNat n = c := fun n h => h ▸ Char.ofNat_toNat c
  generalize eq : escapeChar c = cs
  rw [escapeChar] at eq
  by_cases quote : c = '"'
  · rw [if_pos quote] at eq
    exact .inl ⟨'"', by decide, by rw [quote]; decide, eq.symm⟩
  rw [if_neg quote] at eq
  by_cases backslash : c = '\\'
  · rw [if_pos backslash] at eq
    exact .inl ⟨'\\', by decide, by rw [backslash]; decide, eq.symm⟩
  rw [if_neg backslash] at eq
  by_cases backspace : c.toNat = 8
  · rw [if_pos backspace] at eq
    exact .inl ⟨'b', by decide, ofNat 8 backspace ▸ by decide, eq.symm⟩
  rw [if_neg backspace] at eq
  by_cases formFeed : c.toNat = 12
  · rw [if_pos formFeed] at eq
    exact .inl ⟨'f', by decide, ofNat 12 formFeed ▸ by decide, eq.symm⟩
  rw [if_neg formFeed] at eq
  by_cases lineFeed : c = '\n'
  · rw [if_pos lineFeed] at eq
    exact .inl ⟨'n', by decide, by rw [lineFeed]; decide, eq.symm⟩
  rw [if_neg lineFeed] at eq
  by_cases carriage : c = '\r'
  · rw [if_pos carriage] at eq
    exact .inl ⟨'r', by decide, by rw [carriage]; decide, eq.symm⟩
  rw [if_neg carriage] at eq
  by_cases tab : c = '\t'
  · rw [if_pos tab] at eq
    exact .inl ⟨'t', by decide, by rw [tab]; decide, eq.symm⟩
  rw [if_neg tab] at eq
  by_cases control : c.toNat < 32
  · rw [if_pos control] at eq
    exact .inr (.inl ⟨_, _, hexValue4?_control ⟨c.toNat, control⟩, control, eq.symm⟩)
  · rw [if_neg control] at eq
    exact .inr (.inr ⟨quote, backslash, Nat.le_of_not_lt control, eq.symm⟩)

theorem unitChar?_toNat {c : Char} (small : c.toNat < 32) : unitChar? c.toNat = some c := by
  rw [unitChar?, if_neg (by omega), Char.ofNat_toNat]

theorem isHex_of_hexValue4? {a b c d : Char} {n : Nat} (h : hexValue4? a b c d = some n) :
    isHex a && isHex b && isHex c && isHex d := by
  simp only [hexValue4?, Option.bind_eq_bind, Option.bind_eq_some_iff] at h
  obtain ⟨_, ha, _, hb, _, hc, _, hd, -⟩ := h
  simp [isHex, ha, hb, hc, hd]

/-- The step: an escaped character is read as the character. -/
theorem unescape_escapeChar (c : Char) (cs : List Char) :
    unescape (escapeChar c ++ cs) = (unescape cs).map (c :: ·) := by
  rcases escapeChar_cases c with ⟨mark, notU, read, eq⟩ | ⟨high, low, read, small, eq⟩ |
    ⟨-, backslash, -, eq⟩
  · rw [eq, List.cons_append, List.singleton_append, unescape, read]
    · cases unescape cs <;> rfl
    · exact fun _ _ _ _ _ isU => absurd isU notU
  · rw [eq, List.cons_append, List.cons_append, List.cons_append, List.cons_append,
      List.cons_append, List.singleton_append, unescape, read]
    have unpaired : ¬(0xD800 ≤ c.toNat ∧ c.toNat ≤ 0xDBFF) := by omega
    simp only [Option.bind_eq_bind, Option.bind_some, unpaired, if_false, unitChar?_toNat small]
    cases unescape cs <;> rfl
  · rw [eq, List.singleton_append, unescape, if_neg backslash]
    · exact fun _ _ _ _ _ isBackslash => absurd isBackslash backslash
    · exact fun _ _ isBackslash => absurd isBackslash backslash

/-- The step: no string ends within an escaped character. -/
theorem takeString_escapeChar (c : Char) (cs : List Char) :
    takeString (escapeChar c ++ cs) = (takeString cs).map fun p => (escapeChar c ++ p.1, p.2) := by
  rcases escapeChar_cases c with ⟨mark, notU, read, eq⟩ | ⟨high, low, read, small, eq⟩ |
    ⟨quote, backslash, large, eq⟩
  · rw [eq, List.cons_append, List.singleton_append, takeString, read]
    · rfl
    · exact fun _ _ _ _ _ isU => absurd isU notU
  · rw [eq, List.cons_append, List.cons_append, List.cons_append, List.cons_append,
      List.cons_append, List.singleton_append, takeString, if_pos (isHex_of_hexValue4? read)]
    rfl
  · have plain : ¬(c.toNat < 32 || c == '\\') := by simp [backslash, large]
    rw [eq, List.singleton_append, takeString, if_neg plain]
    · rfl
    · exact quote
    · exact fun _ _ _ _ _ isBackslash => absurd isBackslash backslash
    · exact fun _ _ isBackslash => absurd isBackslash backslash

/-- A text is read as it was. -/
theorem unescape_escape (cs : List Char) : unescape (escape cs) = some cs := by
  induction cs with
  | nil => rfl
  | cons c cs ih =>
    rw [escape, List.flatMap_cons, unescape_escapeChar]
    exact congrArg _ ih

/-- A text ends at the closing quote. -/
theorem takeString_escape (cs rest : List Char) :
    takeString (escape cs ++ '"' :: rest) = some (escape cs, rest) := by
  induction cs with
  | nil => rfl
  | cons c cs ih =>
    rw [escape, List.flatMap_cons, List.append_assoc, takeString_escapeChar]
    exact congrArg _ ih

@[simp] theorem text?_ofText (s : String) : (ofText s).text? = some s := by
  rw [ofText, text?, unescape_escape, Option.map_some, String.ofList_toList]

/-! ### Numbers -/

def AreDigits (cs : List Char) : Prop := cs ≠ [] ∧ ∀ c ∈ cs, c.isDigit

/-- Digits without a zero in front of others. -/
def IsWhole (cs : List Char) : Prop := AreDigits cs ∧ (cs.head? = some '0' → cs = ['0'])

/-- Digits behind a point, or nothing. -/
def IsPoint (cs : List Char) : Prop := cs = [] ∨ ∃ digits, AreDigits digits ∧ cs = '.' :: digits

/-- An exponent, or nothing. -/
def IsPower (cs : List Char) : Prop :=
  cs = [] ∨ ∃ mark sign digits, (mark = 'e' ∨ mark = 'E') ∧
    (sign = [] ∨ sign = ['+'] ∨ sign = ['-']) ∧ AreDigits digits ∧ cs = mark :: sign ++ digits

/-- The characters of a number without a sign. -/
def IsUnsigned (cs : List Char) : Prop :=
  ∃ whole point power, IsWhole whole ∧ IsPoint point ∧ IsPower power ∧ cs = whole ++ point ++ power

/-- The characters of a number. -/
def IsNumber (cs : List Char) : Prop :=
  ∃ sign body, (sign = [] ∨ sign = ['-']) ∧ IsUnsigned body ∧ cs = sign ++ body

/-- A value can end in front of these characters. -/
def EndsValue (rest : List Char) : Prop := ∀ c ∈ rest.head?, isSpace c ∨ c ∈ [',', ']', '}']

/-- No digit, point or exponent comes next. -/
def EndsNumber (rest : List Char) : Prop :=
  ∀ c ∈ rest.head?, c.isDigit = false ∧ c ≠ '.' ∧ c ≠ 'e' ∧ c ≠ 'E'

/-- Where a value can end, a number can. -/
theorem EndsValue.endsNumber {rest : List Char} (ends : EndsValue rest) : EndsNumber rest := by
  intro c mem
  have marks : c = ' ' ∨ c = '\t' ∨ c = '\n' ∨ c = '\r' ∨ c = ',' ∨ c = ']' ∨ c = '}' := by
    simpa [isSpace, or_assoc] using ends c mem
  rcases marks with rfl | rfl | rfl | rfl | rfl | rfl | rfl <;> decide

section

variable {whole point power rest : List Char}

theorem takeDigits_append {digits : List Char} (areDigits : AreDigits digits)
    (stop : ∀ c ∈ rest.head?, c.isDigit = false) :
    digits.isEmpty = false ∧ (digits ++ rest).takeWhile Char.isDigit = digits ∧
      (digits ++ rest).dropWhile Char.isDigit = rest :=
  ⟨List.isEmpty_eq_false_iff.2 areDigits.1, Text.span_append areDigits.2 stop⟩

/-- The digits before a point end at what is no digit. -/
theorem takeWhole_append (isWhole : IsWhole whole) (stop : ∀ c ∈ rest.head?, c.isDigit = false) :
    takeWhole (whole ++ rest) = some (whole, rest) := by
  obtain ⟨areDigits, zero⟩ := isWhole
  obtain ⟨some, taken, left⟩ := takeDigits_append areDigits stop
  unfold takeWhole
  split
  next cs eq =>
    obtain ⟨c, digits, rfl⟩ := List.exists_cons_of_ne_nil areDigits.1
    rw [List.cons_append] at eq
    obtain ⟨rfl, rfl⟩ := List.cons.inj eq
    rw [(List.cons.inj (zero rfl)).2, List.nil_append]
  next => simp only [taken, left, some, Bool.false_eq_true, if_false]

/-- The places end there, too. Without a point there are none. -/
theorem takePoint_append (isPoint : IsPoint point)
    (stop : ∀ c ∈ rest.head?, c.isDigit = false ∧ c ≠ '.') :
    takePoint (point ++ rest) = some (point, rest) := by
  rcases isPoint with rfl | ⟨digits, areDigits, rfl⟩
  · rw [List.nil_append]
    unfold takePoint
    split
    next => exact absurd rfl (stop '.' rfl).2
    next => rfl
  · obtain ⟨some, taken, left⟩ := takeDigits_append areDigits fun c mem => (stop c mem).1
    rw [List.cons_append, takePoint]
    simp only [taken, left, some, Bool.false_eq_true, if_false]

theorem AreDigits.head_ne {digits : List Char} (areDigits : AreDigits digits) {c : Char}
    (noDigit : c.isDigit = false) (cs : List Char) : digits ++ rest ≠ c :: cs := by
  obtain ⟨d, digits, rfl⟩ := List.exists_cons_of_ne_nil areDigits.1
  intro eq
  have isDigit := areDigits.2 d List.mem_cons_self
  rw [(List.cons.inj eq).1, noDigit] at isDigit
  cases isDigit

/-- An exponent is taken as a whole. Without a mark there is none. -/
theorem takePower_append (isPower : IsPower power) (stop : EndsNumber rest) :
    takePower (power ++ rest) = some (power, rest) := by
  rcases isPower with rfl | ⟨mark, sign, digits, isMark, isSign, areDigits, rfl⟩
  · cases rest with
    | nil => rfl
    | cons c rest =>
      obtain ⟨-, -, notSmall, notLarge⟩ := stop c rfl
      unfold takePower
      dsimp only [List.nil_append]
      rw [if_neg (by simp [notSmall, notLarge])]
  · obtain ⟨some, taken, left⟩ := takeDigits_append areDigits fun c mem => (stop c mem).1
    rw [List.cons_append, List.cons_append, List.append_assoc]
    unfold takePower
    dsimp only
    rw [if_pos isMark]
    rcases isSign with rfl | rfl | rfl
    · rw [List.nil_append]
      split
      next plus => exact absurd plus (areDigits.head_ne (by decide) _)
      next minus => exact absurd minus (areDigits.head_ne (by decide) _)
      next => simp only [taken, left, some, Bool.false_eq_true, if_false, List.nil_append,
        List.cons_append]
    all_goals simp only [List.cons_append, List.nil_append, taken, left, some, Bool.false_eq_true,
      if_false]

/-- A number ends where a value can end. -/
theorem takeNumber_append {lexeme : List Char} (isNumber : IsNumber lexeme) (ends : EndsNumber rest) :
    takeNumber (lexeme ++ rest) = some (lexeme, rest) := by
  obtain ⟨sign, _, isSign, ⟨whole, point, power, isWhole, isPoint, isPower, rfl⟩, rfl⟩ := isNumber
  have beforePower : ∀ c ∈ (power ++ rest).head?, c.isDigit = false ∧ c ≠ '.' := by
    rcases isPower with rfl | ⟨mark, sign, digits, isMark, -, -, rfl⟩
    · exact fun c mem => ⟨(ends c mem).1, (ends c mem).2.1⟩
    · rintro c ⟨⟩
      rcases isMark with rfl | rfl <;> decide
  have beforePoint : ∀ c ∈ (point ++ (power ++ rest)).head?, c.isDigit = false := by
    rcases isPoint with rfl | ⟨digits, -, rfl⟩
    · exact fun c mem => (beforePower c mem).1
    · rintro c ⟨⟩
      decide
  have first := takeWhole_append isWhole beforePoint
  have second := takePoint_append isPoint beforePower
  have third := takePower_append isPower ends
  simp only [List.append_assoc]
  unfold takeNumber
  rcases isSign with rfl | rfl
  · rw [List.nil_append]
    split
    next sign cs eq =>
      split at eq
      next minus => exact absurd minus (isWhole.1.head_ne (by decide) _)
      next =>
        obtain ⟨rfl, rfl⟩ := Prod.mk.inj eq
        simp only [first, second, third, Option.bind_eq_bind, Option.bind_some, Option.pure_def,
          List.nil_append, List.append_assoc]
  · simp only [List.cons_append, List.nil_append, first, second, third, Option.bind_eq_bind,
      Option.bind_some, Option.pure_def, List.append_assoc]

end

/-! ### Natural numbers -/

theorem areDigits_toDigits (n : Nat) : AreDigits (Nat.toDigits 10 n) :=
  ⟨Nat.toDigits_ne_nil, fun _ mem => Nat.isDigit_of_mem_toDigits (by decide) (by decide) mem⟩

/-- The digits of a number have no zeros in front. -/
theorem isWhole_toDigits (n : Nat) : IsWhole (Nat.toDigits 10 n) := by
  refine ⟨areDigits_toDigits n, fun zero => ?_⟩
  by_cases none : n = 0
  · rw [none, Nat.toDigits_zero]
  · -- Dropping zeros in front drops nothing.
    have kept := toDigits_ofDigitChars (areDigits_toDigits n).2
    rw [Nat.ofDigitChars_ten_toDigits, if_neg none] at kept
    obtain ⟨digits, eq⟩ := List.head?_eq_some_iff.1 zero
    rw [eq, List.dropWhile_cons_of_pos (by decide)] at kept
    have shorter := (List.dropWhile_suffix (l := digits) (· == '0')).length_le
    rw [kept, List.length_cons] at shorter
    omega

theorem isNumber_toDigits (n : Nat) : IsNumber (Nat.toDigits 10 n) :=
  ⟨[], Nat.toDigits 10 n, .inl rfl, ⟨_, [], [], isWhole_toDigits n, .inl rfl, .inl rfl,
    by rw [List.append_nil, List.append_nil]⟩, rfl⟩

/-- A number of 64 bits is read back. -/
theorem natural?_ofNat {n : Nat} (fits : n < 2 ^ 64) : (ofNat n).natural? = some n := by
  have value : (Nat.toDigits 10 n).foldl (fun n c => n * 10 + (c.toNat - 48)) 0 = n :=
    (digitsValue_eq _).trans Nat.ofDigitChars_ten_toDigits
  have digits : (Nat.toDigits 10 n).all Char.isDigit := List.all_eq_true.2 (areDigits_toDigits n).2
  rw [ofNat, natural?]
  simp only [value, digits, Bool.true_and]
  exact if_pos (decide_eq_true fits)

end SheetCompiler.Json
