import Mathlib.Data.List.TakeWhile
import SheetCompiler.Formula.Parser
import SheetCompiler.Proofs.Grid.RoundTrip

/-!
# Well-formed formulas

What can stand in a formula that was read from text: numbers, names and functions of the right
spelling, and references to cells of the sheet. Cutting a text gives proper tokens only
(`Scan.proper_takeToken`), and reading proper tokens gives well-formed expressions, so everything
that `Formula.parseSingle` returns is well-formed (`Formula.wellFormed_of_parseSingle`).
-/

namespace SheetCompiler

open Fallible

/-! ### Spellings -/

namespace Scan

/-- `[0-9]+` -/
def IsDigits (cs : List Char) : Prop := cs ≠ [] ∧ ∀ c ∈ cs, c.isDigit

/-- `[+-]?` -/
def IsSign (cs : List Char) : Prop := cs = [] ∨ cs = ['+'] ∨ cs = ['-']

/-- `(\.[0-9]*)?` -/
def IsFraction (cs : List Char) : Prop :=
  cs = [] ∨ ∃ digits, cs = '.' :: digits ∧ ∀ c ∈ digits, c.isDigit

/-- `([eE][+-]?[0-9]+)?` -/
def IsExponent (cs : List Char) : Prop :=
  cs = [] ∨ ∃ mark sign digits, cs = mark :: (sign ++ digits) ∧ (mark = 'e' ∨ mark = 'E') ∧
    IsSign sign ∧ IsDigits digits

/-- A number without a sign: `[0-9]+(\.[0-9]*)?([eE][+-]?[0-9]+)?` -/
def IsNumeral (cs : List Char) : Prop :=
  ∃ whole fraction exponent, cs = whole ++ (fraction ++ exponent) ∧ IsDigits whole ∧
    IsFraction fraction ∧ IsExponent exponent

/-- A number with the sign it may have. -/
def IsNumber (cs : List Char) : Prop :=
  ∃ sign numeral, cs = sign ++ numeral ∧ IsSign sign ∧ IsNumeral numeral

/-- `\$?[A-Z]+\$?[0-9]+` -/
def IsCell (cs : List Char) : Prop :=
  ∃ colMark letters rowMark digits,
    cs = Address.mark colMark ++ (letters ++ (Address.mark rowMark ++ digits)) ∧
    (letters ≠ [] ∧ ∀ c ∈ letters, c.isUpper) ∧ IsDigits digits

theorem isUpper_iff {c : Char} : c.isUpper ↔ 65 ≤ c.toNat ∧ c.toNat ≤ 90 := by
  change decide ('A'.val ≤ c.val ∧ c.val ≤ 'Z'.val) = true ↔ _
  simp only [decide_eq_true_eq, UInt32.le_iff_toNat_le]
  exact .rfl

theorem isUpper_of_isDigit {c : Char} (h : c.isDigit) : c.isUpper = false := by
  have range := Text.isDigit_iff.1 h
  rw [← Bool.not_eq_true, isUpper_iff]
  omega

/-- The test for cells takes a word apart as its pattern does. -/
theorem isCellWord_iff {cs : List Char} : isCellWord cs ↔ IsCell cs := by
  constructor
  · intro h
    simp only [isCellWord, Bool.and_eq_true, Bool.not_eq_true', List.isEmpty_eq_false_iff,
      List.all_eq_true] at h
    obtain ⟨⟨letters, digits⟩, all⟩ := h
    refine ⟨(Address.takeMark cs).1, _,
      (Address.takeMark ((Address.takeMark cs).2.dropWhile Char.isUpper)).1, _, ?_,
      ⟨letters, fun c hc => List.mem_takeWhile_imp hc⟩, digits, all⟩
    rw [Address.mark_takeMark, List.takeWhile_append_dropWhile, Address.mark_takeMark]
  · rintro ⟨colMark, letters, rowMark, digits, rfl, ⟨some, upper⟩, hdigits, digit⟩
    obtain ⟨c, letters, rfl⟩ := List.exists_cons_of_ne_nil some
    obtain ⟨d, digits, rfl⟩ := List.exists_cons_of_ne_nil hdigits
    have hc : c ≠ '$' := by
      rintro rfl
      exact absurd (upper '$' List.mem_cons_self) (by decide)
    have hd : d ≠ '$' := by
      rintro rfl
      exact absurd (digit '$' List.mem_cons_self) (by decide)
    have stop : ∀ x ∈ (Address.mark rowMark ++ d :: digits).head?, x.isUpper = false := by
      cases rowMark with
      | true => simp [Address.mark]
      | false => simpa [Address.mark] using isUpper_of_isDigit (digit d List.mem_cons_self)
    obtain ⟨front, back⟩ := Text.span_append upper stop
    simp only [isCellWord]
    rw [List.cons_append, Address.takeMark_mark colMark hc, ← List.cons_append]
    dsimp only
    rw [front, back, Address.takeMark_mark rowMark hd]
    simpa [-List.all_cons] using digit

end Scan

/-- The token can be cut from a text. -/
def Token.Proper : Token → Prop
  | .number digits _ => Scan.IsNumeral digits.toList
  | .name word => Scan.isSheetWord word.toList ∧ ¬Scan.IsCell word.toList
  | .cell word => Scan.IsCell word.toList
  | .sheet word => word ≠ ""
  | _ => True

/-- All tokens can be cut from a text. -/
def Tokens.Proper : Tokens → Prop
  | .token first _ _ rest => first.Proper ∧ rest.Proper
  | _ => True

theorem Tokens.checked_eq_ok_iff {ts ts' : Tokens} :
    ts.checked = .ok ts' ↔ ts = ts' ∧ ∀ e, ts ≠ .fault e := by
  cases ts <;> simp [checked]

/-! ### Cutting gives proper tokens -/

namespace Scan

variable {total : Nat} {cs rest : List Char} {token : Token}

theorem isDigits_takeDigits {c : Char} (h : c.isDigit) (cs : List Char) :
    IsDigits (takeDigits (c :: cs)).1 :=
  ⟨by simp [takeDigits, h], fun _ hd => List.mem_takeWhile_imp hd⟩

theorem isFraction_takeFraction (cs : List Char) : IsFraction (takeFraction cs).1 := by
  unfold takeFraction
  split
  · exact .inr ⟨_, rfl, fun _ hd => List.mem_takeWhile_imp hd⟩
  · exact .inl rfl

/-- What is taken for an exponent has digits, with a sign or without one. -/
theorem isExponent_takeExponent (cs : List Char) : IsExponent (takeExponent cs).1 := by
  unfold takeExponent
  split
  next e rest =>
    split
    next mark =>
      split
      next s d others =>
        split
        next signed =>
          refine .inr ⟨e, [s], _, rfl, mark, ?_, isDigits_takeDigits signed.2 others⟩
          exact .inr (signed.1.imp (congrArg (fun s => [s])) (congrArg fun s => [s]))
        next =>
          split
          next digit => exact .inr ⟨e, [], _, rfl, mark, .inl rfl, isDigits_takeDigits digit _⟩
          next => exact .inl rfl
      next d =>
        split
        next digit => exact .inr ⟨e, [], [d], rfl, mark, .inl rfl, by simp, by simpa using digit⟩
        next => exact .inl rfl
      next => exact .inl rfl
    next => exact .inl rfl
  next => exact .inl rfl

/-- A number is spelled as one, part by part. -/
theorem proper_takeNumber {c : Char} (h : c.isDigit) (cs : List Char) :
    (takeNumber (c :: cs)).1.Proper := by
  have numeral : IsNumeral ((takeDigits (c :: cs)).1 ++ (takeFraction (takeDigits (c :: cs)).2).1 ++
      (takeExponent (takeFraction (takeDigits (c :: cs)).2).2).1) :=
    ⟨_, _, _, List.append_assoc .., isDigits_takeDigits h cs, isFraction_takeFraction _,
      isExponent_takeExponent _⟩
  unfold takeNumber
  dsimp only
  split
  all_goals
    rw [Token.Proper, String.toList_ofList]
    exact numeral

theorem proper_takeSymbol (h : takeSymbol cs = some (token, rest)) : token.Proper := by
  unfold takeSymbol at h
  split at h <;> cases h <;> trivial

/-- A sheet name in quotes is not empty. -/
theorem proper_takeSheet (h : takeSheet total cs = .ok (token, rest)) : token.Proper := by
  unfold takeSheet at h
  split at h
  · cases h
  · cases h
  next name after nonempty _ =>
    cases h
    intro empty
    rw [String.ofList_eq_empty_iff] at empty
    exact nonempty empty
  · cases h

theorem proper_takeText (h : takeText total cs = .ok (token, rest)) : token.Proper := by
  unfold takeText at h
  split at h <;> cases h
  trivial

/-- A word without marks that starts with a letter or an underscore is spelled like a name. -/
theorem isSheetWord_word {c : Char} {word : List Char} (start : c.isAlpha || c == '_' || c == '$')
    (chars : ∀ d ∈ c :: word, isWordChar d) (unmarked : '$' ∉ c :: word) :
    isSheetWord (c :: word) := by
  simp only [List.mem_cons, not_or] at unmarked
  simp only [isSheetWord, Bool.and_eq_true, List.all_eq_true]
  refine ⟨?_, fun d hd => ?_⟩
  · simpa [Text.isIdentifierStart, Ne.symm unmarked.1] using start
  · have other : d ≠ '$' := fun same => unmarked.2 (same ▸ hd)
    have := chars d (List.mem_cons_of_mem _ hd)
    simpa [isWordChar, Text.isIdentifierChar, other] using this

/-- A word is a sheet name, a cell or a name, and spelled as such. -/
theorem proper_takeWord {c : Char} (start : c.isAlpha || c == '_' || c == '$')
    (h : takeWord total (c :: cs) = .ok (token, rest)) : token.Proper := by
  have first : isWordChar c := by
    simp only [Bool.or_eq_true, beq_iff_eq] at start
    simp only [isWordChar, Char.isAlphanum, Bool.or_eq_true, beq_iff_eq]
    tauto
  have word : (c :: cs).takeWhile isWordChar = c :: cs.takeWhile isWordChar := by simp [first]
  have chars : ∀ d ∈ c :: cs.takeWhile isWordChar, isWordChar d :=
    fun d hd => List.mem_takeWhile_imp (word ▸ hd)
  simp only [takeWord, word] at h
  split at h
  · split at h
    next sheet =>
      cases h
      intro empty
      simp at empty
    next => cases h
  · split at h
    next cell =>
      cases h
      simpa [Token.Proper] using isCellWord_iff.1 cell
    next noCell =>
      split at h
      next => cases h
      next unmarked =>
        cases h
        simp only [Token.Proper, String.toList_ofList]
        refine ⟨isSheetWord_word start chars ?_, fun cell => noCell (isCellWord_iff.2 cell)⟩
        simpa [List.contains_iff_mem] using unmarked

/-- Whatever is cut off first is proper; the first character tells which reader did it. -/
theorem proper_takeToken {c : Char} (h : takeToken total c cs = .ok (token, rest)) :
    token.Proper := by
  unfold takeToken at h
  split at h
  next found =>
    cases h
    exact proper_takeSymbol found
  next =>
    split at h
    · exact proper_takeText h
    · split at h
      · exact proper_takeSheet h
      · split at h
        next digit =>
          have := proper_takeNumber digit cs
          rw [Except.ok.inj h] at this
          exact this
        next =>
          split at h
          next start => exact proper_takeWord start h
          next => cases h

/-- All tokens of a text are proper, by induction on the fuel. -/
theorem proper_tokensOf (total fuel : Nat) (cs : List Char) : (tokensOf total fuel cs).Proper := by
  induction fuel generalizing cs with
  | zero => trivial
  | succ fuel ih =>
    unfold tokensOf
    split
    · trivial
    · split
      · trivial
      next found => exact ⟨proper_takeToken found, ih _⟩

end Scan

/-! ### Reading proper tokens -/

mutual

/-- The term can be written in a formula. -/
def Term.WellFormed : Term → Prop
  | .number digits _ => Scan.IsNumber digits.toList
  | .text _ | .null => True
  | .call function arguments =>
    (Scan.isSheetWord function.toList ∨ Scan.IsCell function.toList) ∧
      Expression.AllWellFormed arguments
  | .group items => Expression.AllWellFormed items
  | .range r => r.range.Normalized ∧ r.sheet ≠ some ""
  | .name name => Scan.isSheetWord name.toList ∧ name ≠ "None" ∧ ¬Scan.IsCell name.toList
  | .negate operand => operand.WellFormed

def Expression.WellFormed : Expression → Prop
  | .last t => t.WellFormed
  | .link t _ rest => t.WellFormed ∧ rest.WellFormed

def Expression.AllWellFormed : List Expression → Prop
  | [] => True
  | e :: es => e.WellFormed ∧ Expression.AllWellFormed es

end

/-- The formula is one expression that can be written. -/
def Formula.WellFormed (f : Formula) : Prop := ∃ e, f.expressions = [e] ∧ e.WellFormed

namespace Parser

theorem unexpected_ne_ok {α : Type} {wanted : Expectation} {ts : Tokens} {a : α} :
    unexpected wanted ts ≠ .ok a := by
  cases ts <;> simp [unexpected]

theorem checked_proper {ts ts' : Tokens} (proper : ts.Proper) (h : ts.checked = .ok ts') :
    ts'.Proper :=
  (Tokens.checked_eq_ok_iff.1 h).1 ▸ proper

/-- What is read as an address lies on the sheet. -/
theorem inSheet_of_address {text : String} {position : Nat} {a : Address}
    (h : address text position = .ok a) : a.InSheet :=
  Address.inSheet_of_ofChars (mapError_eq_ok_iff.1 h)

/-- A range is put in order when it is read. -/
theorem wellFormed_range {sheet : Option String} {text : String} {position : Nat}
    {ts rest : Tokens} {t : Term} (named : sheet ≠ some "") (proper : ts.Proper)
    (h : range sheet text position ts = .ok (t, rest)) : t.WellFormed ∧ rest.Proper := by
  simp only [range, bind_eq_ok_iff] at h
  obtain ⟨first, hfirst, h⟩ := h
  have hfirst := inSheet_of_address hfirst
  split at h
  · simp only [bind_eq_ok_iff] at h
    obtain ⟨next, hnext, h⟩ := h
    have proper := checked_proper proper.2 hnext
    split at h
    · simp only [bind_eq_ok_iff] at h
      obtain ⟨_, hrest, last, hlast, h⟩ := h
      cases h
      have hlast := inSheet_of_address hlast
      exact ⟨⟨Range.normalized_ofCorners hfirst hlast, named⟩, checked_proper proper.2 hrest⟩
    · exact absurd h unexpected_ne_ok
  · cases h
    exact ⟨⟨Range.normalized_ofCorners hfirst hfirst, named⟩, proper⟩

/-- With so much fuel, proper tokens are read as something well-formed. -/
structure ReadsWellFormed (fuel : Nat) : Prop where
  expression : ∀ {ts rest : Tokens} {e : Expression}, ts.Proper →
    Parser.expression fuel ts = .ok (e, rest) → e.WellFormed ∧ rest.Proper
  term : ∀ {ts rest : Tokens} {t : Term}, ts.Proper →
    Parser.term fuel ts = .ok (t, rest) → t.WellFormed ∧ rest.Proper
  signedTerm : ∀ {negative : Bool} {stop : Nat} {ts rest : Tokens} {t : Term}, ts.Proper →
    Parser.signedTerm fuel negative stop ts = .ok (t, rest) → t.WellFormed ∧ rest.Proper
  items : ∀ {ts rest : Tokens} {es : List Expression}, ts.Proper →
    Parser.items fuel ts = .ok (es, rest) → Expression.AllWellFormed es ∧ rest.Proper

section

variable {fuel : Nat} (ih : ReadsWellFormed fuel) {ts rest : Tokens}

include ih

/-- The step for expressions: a term, or a term with an operator and an expression behind it. -/
theorem wellFormed_expression {e : Expression} (proper : ts.Proper)
    (h : expression (fuel + 1) ts = .ok (e, rest)) : e.WellFormed ∧ rest.Proper := by
  simp only [expression, bind_eq_ok_iff] at h
  obtain ⟨⟨t, after⟩, ht, h⟩ := h
  obtain ⟨wt, proper⟩ := ih.term proper ht
  dsimp only at h
  split at h
  · simp only [bind_eq_ok_iff] at h
    obtain ⟨_, hafter, ⟨e', _⟩, he, h⟩ := h
    cases h
    obtain ⟨we, proper⟩ := ih.expression (checked_proper proper.2 hafter) he
    exact ⟨⟨wt, we⟩, proper⟩
  · cases h
    exact ⟨wt, proper⟩

/-- The step for terms, one case for each token that a term may start with. A word or a cell starts
a call if a parenthesis follows, and a sign is left to `signedTerm`. -/
theorem wellFormed_term {t : Term} (proper : ts.Proper) (h : term (fuel + 1) ts = .ok (t, rest)) :
    t.WellFormed ∧ rest.Proper := by
  unfold term at h
  split at h
  · simp only [bind_eq_ok_iff] at h
    obtain ⟨_, hrest, h⟩ := h
    cases h
    exact ⟨⟨[], _, rfl, .inl rfl, proper.1⟩, checked_proper proper.2 hrest⟩
  · simp only [bind_eq_ok_iff] at h
    obtain ⟨_, hrest, h⟩ := h
    cases h
    exact ⟨trivial, checked_proper proper.2 hrest⟩
  · exact ih.signedTerm proper.2 h
  · exact ih.signedTerm proper.2 h
  · simp only [bind_eq_ok_iff] at h
    obtain ⟨_, hrest, ⟨es, _⟩, hes, h⟩ := h
    cases h
    exact ih.items (checked_proper proper.2 hrest) hes
  · simp only [bind_eq_ok_iff] at h
    -- A sheet name, which needs a cell behind it.
    obtain ⟨next, hnext, h⟩ := h
    have named := proper.1
    have proper := checked_proper proper.2 hnext
    split at h
    · simp only [bind_eq_ok_iff] at h
      obtain ⟨_, hrest, h⟩ := h
      exact wellFormed_range (fun eq => named (Option.some.inj eq)) (checked_proper proper.2 hrest) h
    · exact absurd h unexpected_ne_ok
  · simp only [bind_eq_ok_iff] at h
    -- A cell: a function if a list follows, a corner of a range if not.
    obtain ⟨next, hnext, h⟩ := h
    have cell := proper.1
    have proper := checked_proper proper.2 hnext
    split at h
    · simp only [bind_eq_ok_iff] at h
      obtain ⟨_, hrest, ⟨es, _⟩, hes, h⟩ := h
      cases h
      obtain ⟨wes, proper⟩ := ih.items (checked_proper proper.2 hrest) hes
      exact ⟨⟨.inr cell, wes⟩, proper⟩
    · exact wellFormed_range (by simp) proper h
  · simp only [bind_eq_ok_iff] at h
    -- A word: a function if a list follows, the missing value or a name if not.
    obtain ⟨next, hnext, h⟩ := h
    obtain ⟨⟨word, noCell⟩, proper⟩ := proper
    have proper := checked_proper proper hnext
    split at h
    · simp only [bind_eq_ok_iff] at h
      obtain ⟨_, hrest, ⟨es, _⟩, hes, h⟩ := h
      cases h
      obtain ⟨wes, proper⟩ := ih.items (checked_proper proper.2 hrest) hes
      exact ⟨⟨.inl word, wes⟩, proper⟩
    · split at h
      next =>
        cases h
        exact ⟨trivial, proper⟩
      next other =>
        cases h
        exact ⟨⟨word, other, noCell⟩, proper⟩
  · exact absurd h unexpected_ne_ok

/-- The step behind a sign: a number right after a minus takes it along, other terms are negated. -/
theorem wellFormed_signedTerm {negative : Bool} {stop : Nat} {t : Term} (proper : ts.Proper)
    (h : signedTerm (fuel + 1) negative stop ts = .ok (t, rest)) : t.WellFormed ∧ rest.Proper := by
  have signed : ∀ {operand : Term}, operand.WellFormed → (signed negative operand).WellFormed := by
    intro operand wellFormed
    cases negative <;> exact wellFormed
  simp only [signedTerm, bind_eq_ok_iff] at h
  obtain ⟨after, hafter, h⟩ := h
  have proper := checked_proper proper hafter
  split at h
  next digits percent start _ _ =>
    split at h
    · simp only [bind_eq_ok_iff] at h
      obtain ⟨_, hrest, h⟩ := h
      cases h
      refine ⟨⟨(signSymbol negative).toList, _, String.toList_append, .inr ?_, proper.1⟩,
        checked_proper proper.2 hrest⟩
      cases negative <;> decide
    · simp only [bind_eq_ok_iff] at h
      obtain ⟨⟨operand, _⟩, hoperand, h⟩ := h
      cases h
      exact (ih.term proper hoperand).imp signed id
  · simp only [bind_eq_ok_iff] at h
    obtain ⟨⟨operand, _⟩, hoperand, h⟩ := h
    cases h
    exact (ih.term proper hoperand).imp signed id

/-- The step for lists: a list ends at once, or goes on behind an expression and a comma. -/
theorem wellFormed_items {es : List Expression} (proper : ts.Proper)
    (h : items (fuel + 1) ts = .ok (es, rest)) : Expression.AllWellFormed es ∧ rest.Proper := by
  unfold items at h
  split at h
  · simp only [bind_eq_ok_iff] at h
    obtain ⟨_, hrest, h⟩ := h
    cases h
    exact ⟨trivial, checked_proper proper.2 hrest⟩
  · simp only [bind_eq_ok_iff] at h
    obtain ⟨⟨e, after⟩, he, h⟩ := h
    obtain ⟨we, proper⟩ := ih.expression proper he
    dsimp only at h
    split at h
    · simp only [bind_eq_ok_iff] at h
      obtain ⟨_, hafter, ⟨others, _⟩, hothers, h⟩ := h
      cases h
      obtain ⟨wothers, proper⟩ := ih.items (checked_proper proper.2 hafter) hothers
      exact ⟨⟨we, wothers⟩, proper⟩
    · simp only [bind_eq_ok_iff] at h
      obtain ⟨_, hrest, h⟩ := h
      cases h
      exact ⟨⟨we, trivial⟩, checked_proper proper.2 hrest⟩
    · exact absurd h unexpected_ne_ok

end

/-- The run: by induction on the fuel. -/
theorem readsWellFormed (fuel : Nat) : ReadsWellFormed fuel := by
  induction fuel with
  | zero => exact ⟨nofun, nofun, nofun, nofun⟩
  | succ fuel ih =>
    exact ⟨wellFormed_expression ih, wellFormed_term ih, wellFormed_signedTerm ih,
      wellFormed_items ih⟩

/-- The expressions of a whole text are well-formed. -/
theorem wellFormed_expressions {fuel : Nat} {ts : Tokens} {es : List Expression}
    (proper : ts.Proper) (h : expressions fuel ts = .ok es) : Expression.AllWellFormed es := by
  induction fuel generalizing ts es with
  | zero => cases h
  | succ fuel ih =>
    unfold expressions at h
    split at h
    · cases h
      trivial
    · simp only [bind_eq_ok_iff] at h
      obtain ⟨⟨e, _⟩, he, others, hothers, h⟩ := h
      cases h
      obtain ⟨we, proper⟩ := (readsWellFormed _).expression proper he
      exact ⟨we, ih proper hothers⟩

end Parser

namespace Formula

/-- So is what is read from the text of a formula: its tokens are proper. -/
theorem wellFormed_of_ofPayload {cs : List Char} {f : Formula} (h : ofPayload cs = .ok f) :
    Expression.AllWellFormed f.expressions := by
  simp only [ofPayload, bind_eq_ok_iff] at h
  obtain ⟨ts, hts, h⟩ := h
  have proper := Parser.checked_proper (Scan.proper_tokensOf _ _ cs) hts
  split at h
  · cases h
  · simp only [bind_eq_ok_iff] at h
    obtain ⟨es, hes, h⟩ := h
    cases h
    exact Parser.wellFormed_expressions proper hes

/-- What is read from a text is well-formed. -/
theorem wellFormed_of_parseSingle {s : String} {f : Formula} (h : parseSingle s = .ok f) :
    f.WellFormed := by
  simp only [parseSingle, bind_eq_ok_iff, mapError_eq_ok_iff] at h
  obtain ⟨g, hg, h⟩ := h
  split at h
  next single =>
    cases h
    obtain ⟨e, he⟩ := List.length_eq_one_iff.1 single
    have wellFormed := wellFormed_of_ofPayload hg
    rw [he] at wellFormed
    exact ⟨e, he, wellFormed.1⟩
  next => cases h

end Formula

end SheetCompiler
