import SheetCompiler.Proofs.Formula.Writing

/-!
# Tracing tokens back to the text

Each token of a reference tells what it was cut from (`Scan.CutFrom`), and so the text can be taken
apart along its tokens (`Cut.cell_inv`, `Cut.colon_inv`, `Cut.sheet_inv`, `Cut.done_inv`). A text
that is read as a range holds, after plus signs, a sheet name and cells, and the cells alone are
read as the same range (`Reference.Spelled`, `Reference.spelled_of_term`).
-/

namespace SheetCompiler

open Fallible
open Text (Blanks)

namespace Text

theorem trimRight_append {back : List Char} (blank : Blanks back) (cs : List Char) :
    trimRight (cs ++ back) = trimRight cs := by
  have reversed : ∀ c ∈ back.reverse, isBlank c := fun c hc => blank c (List.mem_reverse.1 hc)
  rw [trimRight, List.reverse_append, List.dropWhile_append_of_pos reversed, trimRight]

/-- Blanks around a text do not count. -/
theorem trim_around {front back : List Char} (before : Blanks front) (after : Blanks back)
    (cs : List Char) : trim (front ++ (cs ++ back)) = trim cs := by
  have behind : back.dropWhile isBlank = [] := List.dropWhile_eq_nil_iff.2 after
  rw [trim, trimLeft, List.dropWhile_append_of_pos before, List.dropWhile_append, behind]
  split
  next empty => rw [trim, trimLeft, List.isEmpty_iff.1 empty]
  next => exact trimRight_append after _

theorem trimRight_append_cons {c : Char} (solid : isBlank c = false) (xs ys : List Char) :
    trimRight (xs ++ c :: ys) = xs ++ c :: trimRight ys := by
  have reversed : (xs ++ c :: ys).reverse = ys.reverse ++ c :: xs.reverse := by simp
  rw [trimRight, reversed, List.dropWhile_append, List.dropWhile_cons_of_neg (by simp [solid]),
    trimRight]
  split
  next empty => simp [List.isEmpty_iff.1 empty]
  next => simp

theorem trimLeft_append_cons {c : Char} (solid : isBlank c = false) (xs ys : List Char) :
    trimLeft (xs ++ c :: ys) = trimLeft xs ++ c :: ys := by
  rw [trimLeft, List.dropWhile_append, List.dropWhile_cons_of_neg (by simp [solid]), trimLeft]
  split
  next empty => rw [List.isEmpty_iff.1 empty, List.nil_append]
  next => rfl

/-- What is trimmed on both sides of a character that stays. -/
theorem trim_append_cons {c : Char} (solid : isBlank c = false) (xs ys : List Char) :
    trim (xs ++ c :: ys) = trimLeft xs ++ c :: trimRight ys := by
  rw [trim, trimLeft_append_cons solid, trimRight_append_cons solid]

/-- Trimming takes blanks away and nothing else. -/
theorem trimRight_spec (cs : List Char) : ∃ back, Blanks back ∧ cs = trimRight cs ++ back := by
  refine ⟨(cs.reverse.takeWhile isBlank).reverse, fun c hc => ?_, ?_⟩
  · exact List.mem_takeWhile_imp (List.mem_reverse.1 hc)
  · rw [trimRight, ← List.reverse_append, List.takeWhile_append_dropWhile, List.reverse_reverse]

/-- What trimming takes away is blank, on both sides. -/
theorem trim_spec (cs : List Char) :
    ∃ front back, Blanks front ∧ Blanks back ∧ cs = front ++ (trim cs ++ back) := by
  obtain ⟨back, blank, eq⟩ := trimRight_spec (trimLeft cs)
  refine ⟨cs.takeWhile isBlank, back, fun c hc => List.mem_takeWhile_imp hc, blank, ?_⟩
  rw [trim, ← eq, trimLeft, List.takeWhile_append_dropWhile]

theorem mem_of_mem_trimRight {c : Char} {cs : List Char} (h : c ∈ trimRight cs) : c ∈ cs := by
  obtain ⟨back, -, eq⟩ := trimRight_spec cs
  rw [eq]
  exact List.mem_append_left _ h

theorem mem_of_mem_trim {c : Char} {cs : List Char} (h : c ∈ trim cs) : c ∈ cs := by
  obtain ⟨front, back, -, -, eq⟩ := trim_spec cs
  rw [eq]
  exact List.mem_append_right _ (List.mem_append_left _ h)

theorem trim_trimRight (cs : List Char) : trim (trimRight cs) = trim cs := by
  obtain ⟨back, blank, eq⟩ := trimRight_spec cs
  have around := trim_around blanks_nil blank (trimRight cs)
  rw [List.nil_append, ← eq] at around
  exact around.symm

theorem trim_trim (cs : List Char) : trim (trim cs) = trim cs := by
  obtain ⟨front, back, before, after, eq⟩ := trim_spec cs
  have around := trim_around before after (trim cs)
  rw [← eq] at around
  exact around.symm

end Text

namespace SheetName

/-- A sheet name as formulas may spell it. -/
inductive Spelled : List Char → List Char → Prop
  | bare {word : List Char} (h : Scan.isSheetWord word) : Spelled word word
  | quoted {word : List Char} (some : word ≠ []) :
    Spelled word ('\'' :: (doubleQuotes word ++ ['\'']))

namespace Spelled

variable {word text : List Char}

/-- A sheet name starts with neither a blank nor a plus. -/
theorem head (h : Spelled word text) :
    ∃ c more, text = c :: more ∧ Text.isBlank c = false ∧ c ≠ '+' := by
  cases h with
  | bare h =>
    obtain ⟨c, more, eq, start⟩ := Scan.head_of_isSheetWord h
    refine ⟨c, more, eq, Scan.isBlank_of_startsWord start, ?_⟩
    rintro rfl
    exact absurd start (by unfold Scan.StartsWord; decide)
  | quoted => exact ⟨'\'', _, rfl, by decide⟩

theorem solid (h : Spelled word text) : Solid text := by
  cases h with
  | bare h => exact solid_of_isSheetWord h
  | quoted => exact ⟨'\'' :: doubleQuotes word, '\'', rfl, by decide⟩

/-- A sheet name starts and ends with no blank. -/
theorem tight (h : Spelled word text) : Text.Tight text := by
  constructor
  · obtain ⟨c, more, rfl, noBlank, -⟩ := h.head
    simpa using noBlank
  · obtain ⟨more, c, rfl, noBlank⟩ := h.solid
    simpa using noBlank

/-- A spelling is as long as its name or longer. -/
theorem length_le (h : Spelled word text) : word.length ≤ text.length := by
  cases h with
  | bare => exact Nat.le_refl _
  | quoted =>
    have doubled : ∀ cs : List Char, cs.length ≤ (doubleQuotes cs).length := by
      intro cs
      induction cs with
      | nil => exact Nat.le_refl _
      | cons c cs ih =>
        unfold doubleQuotes
        split <;> simp only [List.length_cons] <;> omega
    have := doubled word
    simp only [List.length_cons, List.length_append]
    omega

/-- Both spellings are read as the name. -/
theorem unquote_eq (h : Spelled word text) : unquote text = .ok (String.ofList word) := by
  rw [unquote, Text.trim_of_tight h.tight]
  cases h with
  | bare h =>
    obtain ⟨c, cs, rfl, start⟩ := Scan.head_of_isSheetWord h
    split
    next eq => cases eq
    next eq =>
      rw [(List.cons.inj eq).1] at start
      exact absurd start (by unfold Scan.StartsWord; decide)
    next => rfl
  | quoted some =>
    have last : (doubleQuotes word ++ ['\'']).getLast? = Option.some '\'' := by simp
    have inner : (doubleQuotes word ++ ['\'']).dropLast = doubleQuotes word := by simp
    simp only [last, if_true, inner, collapseQuotes_doubleQuotes]

end Spelled
end SheetName

namespace Scan

variable {total : Nat} {cs rest : List Char} {token : Token}

/-- What is read up to a closing quote stands there with its quotes doubled. -/
theorem takeQuoted_inv {quote : Char} {word : List Char}
    (h : takeQuoted quote cs = some (word, rest)) : cs = doubled quote word ++ quote :: rest := by
  fun_induction takeQuoted quote cs generalizing word with
  | case1 => cases h
  | case2 ds ih =>
    obtain ⟨⟨s, r⟩, inner, eq⟩ := Option.map_eq_some_iff.1 h
    cases eq
    rw [ih inner]
    simp [doubled]
  | case3 d ds other =>
    cases h
    rfl
  | case4 =>
    cases h
    rfl
  | case5 c cs other ih =>
    obtain ⟨⟨s, r⟩, inner, eq⟩ := Option.map_eq_some_iff.1 h
    cases eq
    rw [ih inner]
    simp [doubled, other]

/-- What a token of a reference was cut from; a plus is cut from a plus. -/
def CutFrom (cs rest : List Char) : Token → Prop
  | .cell word => IsCell word.toList ∧ cs = word.toList ++ rest
  | .sheet name => ∃ text, SheetName.Spelled name.toList text ∧ cs = text ++ '!' :: rest
  | .colon => cs = ':' :: rest
  | .operator .add => cs = '+' :: rest
  | _ => True

theorem cutFrom_takeSymbol (h : takeSymbol cs = some (token, rest)) : CutFrom cs rest token := by
  unfold takeSymbol at h
  split at h <;> cases h <;> first | rfl | trivial

/-- A quoted sheet name was cut from its quoted spelling. -/
theorem cutFrom_takeSheet (h : takeSheet total ('\'' :: cs) = .ok (token, rest)) :
    CutFrom ('\'' :: cs) rest token := by
  unfold takeSheet at h
  rw [List.tail_cons] at h
  split at h
  · cases h
  · cases h
  next name after nonempty found =>
    cases h
    have text := takeQuoted_inv found
    rw [doubled_apostrophe] at text
    refine ⟨_, .quoted (by simpa using nonempty), ?_⟩
    simp [text]
  · cases h

/-- A cell and a bare sheet name were cut from themselves. -/
theorem cutFrom_takeWord (h : takeWord total cs = .ok (token, rest)) : CutFrom cs rest token := by
  have whole : cs = cs.takeWhile isWordChar ++ cs.dropWhile isWordChar :=
    List.takeWhile_append_dropWhile.symm
  unfold takeWord at h
  dsimp only at h
  split at h
  next after eq =>
    split at h
    next sheet =>
      cases h
      exact ⟨_, .bare (by simpa using sheet), by rw [String.toList_ofList, ← eq, ← whole]⟩
    next => cases h
  next =>
    split at h
    next cell =>
      cases h
      refine ⟨by simpa using isCellWord_iff.1 cell, by rw [String.toList_ofList, ← whole]⟩
    next => split at h <;> cases h; trivial

/-- Each token was cut from what it tells; each kind of token starts with characters of its own. -/
theorem cutFrom_takeToken {c : Char} (h : takeToken total c cs = .ok (token, rest)) :
    CutFrom (c :: cs) rest token := by
  unfold takeToken at h
  split at h
  next found =>
    cases h
    exact cutFrom_takeSymbol found
  next =>
    split at h
    next =>
      unfold takeText at h
      split at h <;> cases h
      trivial
    next =>
      split at h
      next quote =>
        subst quote
        exact cutFrom_takeSheet h
      next =>
        split at h
        next =>
          have number : token = (takeNumber (c :: cs)).1 := congrArg Prod.fst (Except.ok.inj h).symm
          rw [number]
          unfold takeNumber
          dsimp only
          split <;> trivial
        next =>
          split at h
          next => exact cutFrom_takeWord h
          next => cases h

end Scan

namespace Cut

variable {total : Nat} {cs : List Char} {ts : Tokens} {start stop : Nat}

/-- A token was cut off after blanks; what it leaves of the text is cut next. -/
theorem token_inv {token : Token} (cut : Cut total cs (.token token start stop ts)) :
    ∃ gap text rest, Blanks gap ∧ cs = gap ++ text ∧ Scan.CutFrom text rest token ∧
      ∀ word, word ≠ [] → text = word ++ rest → Cut total rest ts := by
  obtain ⟨inside, fuel, enough, tokens⟩ := cut
  cases fuel with
  | zero => cases tokens
  | succ fuel =>
    unfold Scan.tokensOf at tokens
    split at tokens
    · cases tokens
    next c more trimmed =>
      split at tokens
      · cases tokens
      next rest taken =>
        cases tokens
        have whole : cs = cs.takeWhile Text.isBlank ++ c :: more := by
          rw [← trimmed, Text.trimLeft, List.takeWhile_append_dropWhile]
        refine ⟨_, _, rest, fun d hd => List.mem_takeWhile_imp hd, whole,
          Scan.cutFrom_takeToken taken, fun word some text => ?_⟩
        rw [whole, text, Text.byteSize_append, Text.byteSize_append] at inside
        rw [whole, text, List.length_append, List.length_append] at enough
        have := List.length_pos_iff.2 some
        exact ⟨by omega, fuel, by omega, rfl⟩

/-- A cell stands in the text behind blanks. -/
theorem cell_inv {word : String} (cut : Cut total cs (.token (.cell word) start stop ts)) :
    ∃ gap rest, Blanks gap ∧ Scan.IsCell word.toList ∧ cs = gap ++ (word.toList ++ rest) ∧
      Cut total rest ts := by
  obtain ⟨gap, text, rest, blank, rfl, ⟨cell, rfl⟩, left⟩ := cut.token_inv
  obtain ⟨c, more, eq, -⟩ := Scan.head_of_isCell cell
  exact ⟨gap, rest, blank, cell, rfl, left _ (by simp [eq]) rfl⟩

/-- So does a colon. -/
theorem colon_inv (cut : Cut total cs (.token .colon start stop ts)) :
    ∃ gap rest, Blanks gap ∧ cs = gap ++ ':' :: rest ∧ Cut total rest ts := by
  obtain ⟨gap, text, rest, blank, rfl, rfl, left⟩ := cut.token_inv
  exact ⟨gap, rest, blank, rfl, left [':'] (by simp) rfl⟩

/-- So does a sheet name, in one of its spellings. -/
theorem sheet_inv {name : String} (cut : Cut total cs (.token (.sheet name) start stop ts)) :
    ∃ gap text rest, Blanks gap ∧ SheetName.Spelled name.toList text ∧
      cs = gap ++ (text ++ '!' :: rest) ∧ Cut total rest ts := by
  obtain ⟨gap, _, rest, blank, rfl, ⟨text, spelled, rfl⟩, left⟩ := cut.token_inv
  exact ⟨gap, text, rest, blank, spelled, rfl, left (text ++ ['!']) (by simp) (by simp)⟩

/-- So does a plus. -/
theorem plus_inv (cut : Cut total cs (.token (.operator .add) start stop ts)) :
    ∃ gap rest, Blanks gap ∧ cs = gap ++ '+' :: rest ∧ Cut total rest ts := by
  obtain ⟨gap, text, rest, blank, rfl, rfl, left⟩ := cut.token_inv
  exact ⟨gap, rest, blank, rfl, left ['+'] (by simp) rfl⟩

/-- Where there are no more tokens, the text is blank. -/
theorem done_inv {position : Nat} (cut : Cut total cs (.done position)) : Blanks cs := by
  obtain ⟨-, fuel, enough, tokens⟩ := cut
  cases fuel with
  | zero => omega
  | succ fuel =>
    unfold Scan.tokensOf at tokens
    split at tokens
    next trimmed => exact List.dropWhile_eq_nil_iff.1 trimmed
    next => split at tokens <;> cases tokens

end Cut

namespace Parser

variable {sheet : Option String} {ts rest : Tokens} {r : Reference}

theorem address_eq_ok_iff {text : String} {position : Nat} {a : Address} :
    address text position = .ok a ↔ Address.parse text = .ok a := mapError_eq_ok_iff

/-- What stood where a range was read: one cell, or two with a colon between them. -/
inductive ReadFrom (sheet : Option String) (text : String) (r : Reference) : Tokens → Tokens → Prop
  | corner {a : Address} {rest : Tokens} (first : Address.parse text = .ok a)
    (eq : r = ⟨sheet, .single a⟩) : ReadFrom sheet text r rest rest
  | corners {a b : Address} {text' : String} {start stop start' stop' : Nat} {rest : Tokens}
    (first : Address.parse text = .ok a) (last : Address.parse text' = .ok b)
    (eq : r = ⟨sheet, .ofCorners a b⟩) :
    ReadFrom sheet text r (.token .colon start stop (.token (.cell text') start' stop' rest)) rest

/-- A range is read from one corner, or from two with a colon between them. -/
theorem range_inv {text : String} {position : Nat}
    (h : range sheet text position ts = .ok (.range r, rest)) : ReadFrom sheet text r ts rest := by
  unfold range at h
  obtain ⟨a, first, h⟩ := bind_eq_ok_iff.1 h
  rw [address_eq_ok_iff] at first
  split at h
  next after =>
    obtain ⟨ts, ready, h⟩ := bind_eq_ok_iff.1 h
    obtain ⟨rfl, -⟩ := Tokens.checked_eq_ok_iff.1 ready
    split at h
    next =>
      obtain ⟨_, ready', h⟩ := bind_eq_ok_iff.1 h
      obtain ⟨rfl, -⟩ := Tokens.checked_eq_ok_iff.1 ready'
      obtain ⟨b, last, h⟩ := bind_eq_ok_iff.1 h
      rw [address_eq_ok_iff] at last
      cases h
      exact .corners first last rfl
    next => exact absurd h unexpected_ne_ok
  next =>
    cases h
    refine .corner first ?_
    simp [Range.ofCorners, Range.single]

/-- Only a plus leaves a range as it is. -/
theorem signedTerm_range_inv {fuel stop : Nat} {negative : Bool}
    (h : signedTerm fuel negative stop ts = .ok (.range r, rest)) :
    negative = false ∧ ∃ less < fuel, term less ts = .ok (.range r, rest) := by
  have unsigned : ∀ {operand : Term}, signed negative operand = .range r →
      negative = false ∧ operand = .range r := by
    intro operand eq
    cases negative with
    | true => cases eq
    | false => exact ⟨rfl, eq⟩
  cases fuel with
  | zero => cases h
  | succ fuel =>
    unfold signedTerm at h
    obtain ⟨_, ready, h⟩ := bind_eq_ok_iff.1 h
    obtain ⟨rfl, -⟩ := Tokens.checked_eq_ok_iff.1 ready
    split at h
    · split at h
      · obtain ⟨_, -, h⟩ := bind_eq_ok_iff.1 h
        cases h
      · obtain ⟨⟨operand, after⟩, read, h⟩ := bind_eq_ok_iff.1 h
        obtain ⟨eq, rfl⟩ := Prod.mk.inj (Except.ok.inj h)
        obtain ⟨plus, rfl⟩ := unsigned eq
        exact ⟨plus, fuel, Nat.lt_succ_self _, read⟩
    · obtain ⟨⟨operand, after⟩, read, h⟩ := bind_eq_ok_iff.1 h
      obtain ⟨eq, rfl⟩ := Prod.mk.inj (Except.ok.inj h)
      obtain ⟨plus, rfl⟩ := unsigned eq
      exact ⟨plus, fuel, Nat.lt_succ_self _, read⟩

/-- A term that is a range starts with a plus, a cell or a sheet. -/
theorem term_range_inv {fuel : Nat} (h : term fuel ts = .ok (.range r, rest)) :
    (∃ start stop more, ts = .token (.operator .add) start stop more ∧
      ∃ less < fuel, term less more = .ok (.range r, rest)) ∨
    (∃ text start stop more, ts = .token (.cell text) start stop more ∧
      ReadFrom none text r more rest) ∨
    ∃ sheet start stop text start' stop' more,
      ts = .token (.sheet sheet) start stop (.token (.cell text) start' stop' more) ∧
      ReadFrom (some sheet) text r more rest := by
  cases fuel with
  | zero => cases h
  | succ fuel =>
    unfold term at h
    split at h
    · -- Numbers, texts, negations and lists are no ranges.
      obtain ⟨_, -, h⟩ := bind_eq_ok_iff.1 h
      cases h
    · obtain ⟨_, -, h⟩ := bind_eq_ok_iff.1 h
      cases h
    · exact absurd (signedTerm_range_inv h).1 (by decide)
    · obtain ⟨-, less, smaller, read⟩ := signedTerm_range_inv h
      exact .inl ⟨_, _, _, rfl, less, by omega, read⟩
    · obtain ⟨_, -, h⟩ := bind_eq_ok_iff.1 h
      obtain ⟨_, -, h⟩ := bind_eq_ok_iff.1 h
      cases h
    next sheet start stop after =>
      obtain ⟨_, ready, h⟩ := bind_eq_ok_iff.1 h
      obtain ⟨rfl, -⟩ := Tokens.checked_eq_ok_iff.1 ready
      split at h
      next =>
        obtain ⟨_, ready', h⟩ := bind_eq_ok_iff.1 h
        obtain ⟨rfl, -⟩ := Tokens.checked_eq_ok_iff.1 ready'
        exact .inr (.inr ⟨sheet, _, _, _, _, _, _, rfl, range_inv h⟩)
      next => exact absurd h unexpected_ne_ok
    next text start stop after =>
      obtain ⟨_, ready, h⟩ := bind_eq_ok_iff.1 h
      obtain ⟨rfl, -⟩ := Tokens.checked_eq_ok_iff.1 ready
      -- With a list behind it, the cell would be a function.
      split at h
      next =>
        obtain ⟨_, -, h⟩ := bind_eq_ok_iff.1 h
        obtain ⟨_, -, h⟩ := bind_eq_ok_iff.1 h
        cases h
      next => exact .inr (.inl ⟨text, _, _, _, rfl, range_inv h⟩)
    next name _ _ after =>
      obtain ⟨_, -, h⟩ := bind_eq_ok_iff.1 h
      split at h
      next =>
        obtain ⟨_, -, h⟩ := bind_eq_ok_iff.1 h
        obtain ⟨_, -, h⟩ := bind_eq_ok_iff.1 h
        cases h
      next =>
        split at h <;> cases h
    · exact absurd h unexpected_ne_ok

/-- One term was read from all the tokens. -/
theorem expressions_last_inv {fuel : Nat} {t : Term} (h : expressions fuel ts = .ok [.last t]) :
    ∃ fuel position, term fuel ts = .ok (t, .done position) := by
  cases fuel with
  | zero => cases h
  | succ fuel =>
    unfold expressions at h
    split at h
    · cases h
    next =>
      obtain ⟨⟨e, after⟩, first, h⟩ := bind_eq_ok_iff.1 h
      obtain ⟨es, others, h⟩ := bind_eq_ok_iff.1 h
      cases h
      -- Nothing is read after it only at the end.
      obtain ⟨position, rfl⟩ : ∃ position, after = .done position := by
        cases fuel with
        | zero => cases others
        | succ fuel =>
          unfold expressions at others
          split at others
          · exact ⟨_, rfl⟩
          · obtain ⟨_, -, others⟩ := bind_eq_ok_iff.1 others
            obtain ⟨_, -, others⟩ := bind_eq_ok_iff.1 others
            cases others
      refine ⟨_, position, (?_ : term (fuelFor ts - 1) ts = _)⟩
      obtain ⟨n, hn⟩ : ∃ n, fuelFor ts = n + 1 := ⟨4 * ts.length + 3, rfl⟩
      rw [hn] at first ⊢
      unfold expression at first
      obtain ⟨⟨t, after⟩, read, first⟩ := bind_eq_ok_iff.1 first
      dsimp only at first
      split at first
      · obtain ⟨_, -, first⟩ := bind_eq_ok_iff.1 first
        obtain ⟨_, -, first⟩ := bind_eq_ok_iff.1 first
        cases first
      · cases first
        exact read

end Parser

theorem Text.Blanks.notMem {gap : List Char} (blank : Blanks gap) {c : Char}
    (solid : Text.isBlank c = false) : c ∉ gap := by
  intro hc
  rw [blank c hc] at solid
  cases solid

/-- A cell holds nothing but characters of words. -/
theorem Scan.IsCell.notMem {word : List Char} (h : Scan.IsCell word) {c : Char}
    (outside : Scan.isWordChar c = false) : c ∉ word := by
  intro hc
  rw [Scan.isWordChar_of_isCell h c hc] at outside
  cases outside

theorem Scan.IsCell.tight {word : List Char} (h : Scan.IsCell word) : Text.Tight word :=
  Text.tight_of_forall fun c hc => isBlank_of_isWordChar (Scan.isWordChar_of_isCell h c hc)

/-- An operand that ends in no blank is tight. -/
theorem tight_of_operand {cs : List Char} (operand : Operand cs) (solid : Solid cs) :
    Text.Tight cs := by
  constructor
  · obtain ⟨c, more, rfl, noBlank, -⟩ := operand
    simpa using noBlank
  · obtain ⟨more, c, rfl, noBlank⟩ := solid
    simpa using noBlank

theorem Address.ofChars_around {front back : List Char} (before : Blanks front)
    (after : Blanks back) (cs : List Char) : ofChars (front ++ (cs ++ back)) = ofChars cs := by
  rw [ofChars, Text.trim_around before after, ofChars]

namespace Range

variable {front word word' back : List Char} {a b : Address}

/-- Blanks around a range do not count. -/
theorem ofChars_congr {cs ds : List Char} (h : Text.trim cs = Text.trim ds) :
    ofChars cs = ofChars ds := by
  unfold ofChars
  rw [h]

/-- A cell between blanks. -/
theorem ofChars_corner (before : Blanks front) (after : Blanks back) (cell : Scan.IsCell word)
    (h : Address.ofChars word = .ok a) : ofChars (front ++ (word ++ back)) = .ok (.single a) := by
  have noColon : ':' ∉ word := cell.notMem (by decide)
  simp only [ofChars, Text.trim_around before after, Text.trim_of_tight cell.tight,
    Text.cutFirst_of_notMem noColon, h]
  rfl

/-- Two cells and a colon, with blanks between and around them. -/
theorem ofChars_corners {gap gap' : List Char} (before : Blanks front) (left : Blanks gap)
    (right : Blanks gap') (after : Blanks back) (cell : Scan.IsCell word)
    (cell' : Scan.IsCell word') (first : Address.ofChars word = .ok a)
    (last : Address.ofChars word' = .ok b) :
    ofChars (front ++ (word ++ (gap ++ ':' :: (gap' ++ (word' ++ back))))) =
      .ok (.ofCorners a b) := by
  have colon : Text.isBlank ':' = false := by decide
  have tight : Text.Tight (word ++ gap ++ ':' :: (gap' ++ word')) := by
    refine tight_of_operand (((operand_of_isCell cell).append gap).append _) ?_
    exact (((solid_of_isCell cell').append gap').append [':']).append (word ++ gap)
  have trimmed : Text.trim (front ++ (word ++ (gap ++ ':' :: (gap' ++ (word' ++ back))))) =
      word ++ gap ++ ':' :: (gap' ++ word') := by
    have around := Text.trim_around before after (word ++ gap ++ ':' :: (gap' ++ word'))
    rw [Text.trim_of_tight tight] at around
    simpa using around
  have noColon : ':' ∉ word ++ gap := by
    rw [List.mem_append, not_or]
    exact ⟨cell.notMem (by decide), left.notMem colon⟩
  have first : Address.ofChars (word ++ gap) = .ok a :=
    (Address.ofChars_around Text.blanks_nil left word).trans first
  have last : Address.ofChars (gap' ++ word') = .ok b := by
    rw [← last, ← Address.ofChars_around right Text.blanks_nil word', List.append_nil]
  simp only [ofChars, trimmed, Text.cutFirst_append noColon, first, last]
  rfl

end Range

/-- The other reader finds the same range in the text that the tokens were cut from. -/
theorem Parser.ReadFrom.ofChars {sheet : Option String} {text : String} {r : Reference}
    {ts : Tokens} {position : Nat} (read : ReadFrom sheet text r ts (.done position)) {total : Nat}
    {cs : List Char} {start stop : Nat} (cut : Cut total cs (.token (.cell text) start stop ts)) :
    r.sheet = sheet ∧ Range.ofChars cs = .ok r.range ∧ '!' ∉ cs := by
  have bang : Text.isBlank '!' = false := by decide
  obtain ⟨front, rest, before, cell, rfl, behind⟩ := cut.cell_inv
  have outside : '!' ∉ text.toList := cell.notMem (by decide)
  cases read with
  | corner first eq =>
    subst eq
    have after := behind.done_inv
    refine ⟨rfl, Range.ofChars_corner before after cell first, ?_⟩
    simp [before.notMem bang, outside, after.notMem bang]
  | @corners a b text' start stop start' stop' _ first last eq =>
    subst eq
    obtain ⟨gap, rest, left, rfl, afterColon⟩ := behind.colon_inv
    obtain ⟨gap', back, right, cell', rfl, afterLast⟩ := afterColon.cell_inv
    have after := afterLast.done_inv
    have outside' : '!' ∉ text'.toList := cell'.notMem (by decide)
    refine ⟨rfl, Range.ofChars_corners before left right after cell cell' first last, ?_⟩
    simp [before.notMem bang, outside, left.notMem bang, right.notMem bang, outside',
      after.notMem bang]

namespace Reference

/-- The text is read as the reference by formulas: after plus signs come the cells, on a sheet or
without one. -/
inductive Spelled (r : Reference) : List Char → Prop
  | bare {cs : List Char} (sheet : r.sheet = none) (cells : Range.ofChars cs = .ok r.range)
    (noBang : '!' ∉ cs) : Spelled r cs
  | onSheet {name : String} {gap spelling cs : List Char} (blank : Blanks gap)
    (sheet : r.sheet = some name) (spelled : SheetName.Spelled name.toList spelling)
    (cells : Range.ofChars cs = .ok r.range) (noBang : '!' ∉ cs) :
    Spelled r (gap ++ (spelling ++ '!' :: cs))
  | plus {gap cs : List Char} (blank : Blanks gap) (rest : Spelled r cs) :
    Spelled r (gap ++ '+' :: cs)

/-- What is read as a range spells it. -/
theorem spelled_of_term {r : Reference} {total fuel position : Nat} {cs : List Char} {ts : Tokens}
    (cut : Cut total cs ts) (read : Parser.term fuel ts = .ok (.range r, .done position)) :
    r.Spelled cs := by
  induction fuel using Nat.strong_induction_on generalizing cs ts with
  | _ fuel ih =>
    rcases Parser.term_range_inv read with ⟨start, stop, more, rfl, less, smaller, read⟩ |
      ⟨text, start, stop, more, rfl, cells⟩ |
      ⟨sheet, start, stop, text, start', stop', more, rfl, cells⟩
    · obtain ⟨gap, rest, blank, rfl, left⟩ := cut.plus_inv
      exact .plus blank (ih less smaller left read)
    · obtain ⟨sheet, cells, noBang⟩ := cells.ofChars cut
      exact .bare sheet cells noBang
    · obtain ⟨gap, spelling, rest, blank, spelled, rfl, left⟩ := cut.sheet_inv
      obtain ⟨sheet, cells, noBang⟩ := cells.ofChars left
      exact .onSheet blank sheet spelled cells noBang

/-- What formulas read as one range spells it. -/
theorem spelled_of_ofPayload {r : Reference} {cs : List Char}
    (h : Formula.ofPayload cs = .ok ⟨[.last (.range r)]⟩) : r.Spelled cs := by
  unfold Formula.ofPayload at h
  obtain ⟨ts, ready, h⟩ := bind_eq_ok_iff.1 h
  obtain ⟨eq, -⟩ := Tokens.checked_eq_ok_iff.1 ready
  have cut := Cut.scan cs
  rw [eq] at cut
  split at h
  · cases h
  next =>
    obtain ⟨es, all, h⟩ := bind_eq_ok_iff.1 h
    cases h
    obtain ⟨fuel, position, read⟩ := Parser.expressions_last_inv all
    exact spelled_of_term cut read

end Reference

end SheetCompiler
