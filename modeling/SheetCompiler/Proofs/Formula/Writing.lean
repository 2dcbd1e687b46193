import SheetCompiler.Proofs.Formula.Grammar
import SheetCompiler.Proofs.Formula.Lexing

/-!
# Writing formulas

`Formula.Written` says which texts write a formula: blanks may stand between all tokens, a list in
parentheses may end in a comma, and a range is written with both corners unless they are the same.
Every formula can be written (`Expression.written_write`). What is written is cut off token by token
and read by the rules of the grammar (`Term.Written.reads`), so each text of a well-formed formula is
read as this formula.
-/

namespace SheetCompiler

open Fallible
open Text (Blanks)

/-! ### Texts of formulas -/

/-- A range as it may be written. -/
inductive Range.Written (r : Range) : List Char → Prop
  | corners {gap gap' : List Char} (before : Blanks gap) (after : Blanks gap') :
    Written r (r.first.toChars ++ (gap ++ ':' :: (gap' ++ r.last.toChars)))
  | corner (same : r.first = r.last) : Written r r.first.toChars

/-- A reference as it may be written. -/
inductive Reference.Written : Reference → List Char → Prop
  | bare {range : Range} {cs : List Char} (cells : range.Written cs) : Written ⟨none, range⟩ cs
  | onSheet {sheet : String} {range : Range} {gap cs : List Char} (blank : Blanks gap)
    (cells : range.Written cs) :
    Written ⟨some sheet, range⟩ (SheetName.quoteChars sheet.toList ++ '!' :: (gap ++ cs))

mutual

/-- A term as it may be written. -/
inductive Term.Written : Term → List Char → Prop
  /-- The sign of a number stands right before its digits. -/
  | number (digits : String) (percent : Bool) :
    Term.Written (.number digits percent) (digits.toList ++ Scan.percentSign percent)
  | text (content : String) :
    Term.Written (.text content) ('"' :: (Scan.doubled '"' content.toList ++ ['"']))
  | call {function : String} {arguments : List Expression} {gap cs : List Char}
    (blank : Blanks gap) (items : Expression.WrittenItems arguments cs) :
    Term.Written (.call function arguments) (function.toList ++ (gap ++ '(' :: cs))
  | group {es : List Expression} {cs : List Char} (items : Expression.WrittenItems es cs) :
    Term.Written (.group es) ('(' :: cs)
  | range {r : Reference} {cs : List Char} (reference : r.Written cs) : Term.Written (.range r) cs
  | name (name : String) : Term.Written (.name name) name.toList
  | null : Term.Written .null "None".toList
  /-- Blanks keep a minus apart from digits, which would have it for a sign. -/
  | negate {t : Term} {gap cs : List Char} (blank : Blanks gap) (operand : Term.Written t cs)
    (apart : gap = [] → ∀ c ∈ cs.head?, c.isDigit = false) :
    Term.Written (.negate t) ('-' :: (gap ++ cs))

/-- An expression as it may be written. -/
inductive Expression.Written : Expression → List Char → Prop
  | last {t : Term} {cs : List Char} (term : t.Written cs) : Expression.Written (.last t) cs
  | link {t : Term} {op : Operator} {e : Expression} {gap gap' cs ds : List Char}
    (before : Blanks gap) (after : Blanks gap') (term : t.Written cs)
    (rest : Expression.Written e ds) :
    Expression.Written (.link t op e) (cs ++ (gap ++ (op.symbol.toList ++ (gap' ++ ds))))

/-- What may be written after an opening parenthesis, up to the closing one. -/
inductive Expression.WrittenItems : List Expression → List Char → Prop
  | nil {gap : List Char} (blank : Blanks gap) : Expression.WrittenItems [] (gap ++ [')'])
  | last {e : Expression} {gap gap' cs : List Char} (before : Blanks gap) (after : Blanks gap')
    (expression : e.Written cs) : Expression.WrittenItems [e] (gap ++ (cs ++ (gap' ++ [')'])))
  /-- The other expressions may be none: then the list ends in a comma. -/
  | cons {e : Expression} {es : List Expression} {gap gap' cs ds : List Char} (before : Blanks gap)
    (after : Blanks gap') (expression : e.Written cs) (others : Expression.WrittenItems es ds) :
    Expression.WrittenItems (e :: es) (gap ++ (cs ++ (gap' ++ ',' :: ds)))

end

/-- The text writes the formula, after a `=` or without one. -/
def Formula.Written (f : Formula) (s : String) : Prop :=
  ∃ e front mark gap cs back, f.expressions = [e] ∧ e.Written cs ∧ Blanks front ∧ Blanks gap ∧
    Blanks back ∧ (mark = ['='] ∨ mark = []) ∧
    s.toList = front ++ (mark ++ (gap ++ (cs ++ back)))

/-- A range in the shortest way it can be written. -/
def Range.write (r : Range) : List Char :=
  if r.first = r.last then r.first.toChars else r.first.toChars ++ ':' :: r.last.toChars

def Reference.write (r : Reference) : List Char := Reference.onSheet r.sheet r.range.write

mutual

def Term.write : Term → List Char
  | .number digits percent => digits.toList ++ Scan.percentSign percent
  | .text content => '"' :: (Scan.doubled '"' content.toList ++ ['"'])
  | .call function arguments => function.toList ++ '(' :: Expression.writeItems arguments
  | .group items => '(' :: Expression.writeItems items
  | .range r => r.write
  | .name name => name.toList
  | .null => "None".toList
  | .negate operand => '-' :: ' ' :: operand.write

def Expression.write : Expression → List Char
  | .last t => t.write
  | .link t op rest => t.write ++ (op.symbol.toList ++ rest.write)

def Expression.writeItems : List Expression → List Char
  | [] => [')']
  | [e] => e.write ++ [')']
  | e :: es => e.write ++ ',' :: Expression.writeItems es

end

/-- One of the texts that write a formula. -/
def Formula.write (f : Formula) : String :=
  String.ofList ('=' :: f.expressions.flatMap Expression.write)

/-! ### Every formula can be written -/

theorem Range.written_write (r : Range) : r.Written r.write := by
  unfold write
  split
  next same => exact .corner same
  next => exact .corners Text.blanks_nil Text.blanks_nil

theorem Reference.written_write (r : Reference) : r.Written r.write := by
  obtain ⟨sheet, range⟩ := r
  cases sheet with
  | none => exact .bare range.written_write
  | some sheet => exact .onSheet Text.blanks_nil range.written_write

mutual

/-- Every term is written by its text, by induction on the syntax. -/
theorem Term.written_write (t : Term) : t.Written t.write := by
  match t with
  | .number digits percent => exact .number digits percent
  | .text content => exact .text content
  | .call function arguments =>
    exact .call Text.blanks_nil (Expression.writtenItems_writeItems arguments)
  | .group items => exact .group (Expression.writtenItems_writeItems items)
  | .range r => exact .range r.written_write
  | .name name => exact .name name
  | .null => exact .null
  | .negate operand =>
    have blank : Blanks [' '] := by
      intro c hc
      obtain rfl := List.mem_singleton.1 hc
      decide
    exact .negate blank operand.written_write nofun

theorem Expression.written_write (e : Expression) : e.Written e.write := by
  match e with
  | .last t => exact .last t.written_write
  | .link t op rest =>
    exact .link Text.blanks_nil Text.blanks_nil t.written_write rest.written_write

theorem Expression.writtenItems_writeItems (es : List Expression) :
    Expression.WrittenItems es (Expression.writeItems es) := by
  match es with
  | [] => exact .nil Text.blanks_nil
  | [e] => exact .last Text.blanks_nil Text.blanks_nil e.written_write
  | e :: e' :: es =>
    exact .cons Text.blanks_nil Text.blanks_nil e.written_write
      (Expression.writtenItems_writeItems (e' :: es))

end

/-! ### Reading what was written -/

/-- What follows is blank, or one of these tokens comes next. -/
def Continues (allowed : Token → Prop) (rest : List Char) : Prop :=
  ∃ gap, Blanks gap ∧ (rest = gap ∨ ∃ token more, rest = gap ++ (token.chars ++ more) ∧
    allowed token ∧ token.Proper ∧ token.Ends more)

/-- What ends a term starts with a sign of the grammar. -/
theorem Token.EndsTerm.head {token : Token} (h : token.EndsTerm) :
    ∃ c cs, token.chars = c :: cs ∧ c ∈ Scan.symbolChars := by
  cases token with
  | operator op => cases op <;> exact ⟨_, _, rfl, by decide⟩
  | comma | closeParen => exact ⟨_, _, rfl, by decide⟩
  | _ => exact h.elim

namespace Continues

variable {rest : List Char}

theorem of_blanks {allowed : Token → Prop} (blank : Blanks rest) : Continues allowed rest :=
  ⟨rest, blank, .inl rfl⟩

/-- One of the tokens comes next if its text does. -/
theorem of_token {allowed : Token → Prop} {gap more : List Char} {token : Token}
    (blank : Blanks gap) (h : allowed token) (proper : token.Proper) (ends : token.Ends more) :
    Continues allowed (gap ++ (token.chars ++ more)) :=
  ⟨gap, blank, .inr ⟨token, more, rfl, h, proper, ends⟩⟩

theorem of_endsExpression (next : Continues Token.EndsExpression rest) :
    Continues Token.EndsTerm rest := by
  obtain ⟨gap, blank, rfl | ⟨token, more, rfl, allowed, proper, ends⟩⟩ := next
  · exact of_blanks blank
  · refine of_token blank ?_ proper ends
    cases token <;> trivial

/-- What comes next does not go on with a word. -/
theorem breaks (next : Continues Token.EndsTerm rest) : Scan.Breaks rest := by
  obtain ⟨gap, blank, rfl | ⟨token, more, rfl, allowed, -⟩⟩ := next
  · exact fun c hc => .inl (blank c (List.mem_of_mem_head? hc))
  · obtain ⟨c, cs, eq, symbol⟩ := allowed.head
    rw [eq, List.cons_append]
    exact Scan.breaks_append blank symbol _

/-- What comes next in the text is the next token. -/
theorem start {total : Nat} {ts : Tokens} {allowed : Token → Prop}
    (next : Continues allowed rest) (cut : Cut total rest ts) : ts.Start allowed := by
  obtain ⟨gap, blank, rfl | ⟨token, more, rfl, h, proper, ends⟩⟩ := next
  · rw [cut.done blank]
    trivial
  · obtain ⟨after, -, rfl⟩ := cut.token blank proper ends
    exact h

end Continues

/-- The text starts with neither a blank nor the end of an operator. -/
def Operand (cs : List Char) : Prop :=
  ∃ c more, cs = c :: more ∧ Text.isBlank c = false ∧ c ≠ '=' ∧ c ≠ '>'

theorem Operand.append {cs : List Char} (h : Operand cs) (ds : List Char) : Operand (cs ++ ds) := by
  obtain ⟨c, more, rfl, rest⟩ := h
  exact ⟨c, more ++ ds, rfl, rest⟩

/-- An operator is not longer than it was written. -/
theorem Operand.ends {cs : List Char} (h : Operand cs) {gap : List Char} (blank : Blanks gap)
    (op : Operator) :
    (Token.operator op).Ends (gap ++ cs) := by
  intro c hc
  cases gap with
  | nil =>
    obtain ⟨d, more, rfl, -, other⟩ := h
    obtain rfl : d = c := by simpa using hc
    exact other
  | cons d gap =>
    obtain rfl : d = c := by simpa using hc
    have blank := blank d List.mem_cons_self
    constructor
    all_goals
      rintro rfl
      exact absurd blank (by decide)

theorem operand_of_startsWord {c : Char} (h : Scan.StartsWord c) (cs : List Char) :
    Operand (c :: cs) := by
  refine ⟨c, cs, rfl, Scan.isBlank_of_startsWord h, ?_, ?_⟩
  all_goals
    rintro rfl
    exact absurd h (by unfold Scan.StartsWord; decide)

theorem operand_of_isDigit {c : Char} (h : c.isDigit) (cs : List Char) : Operand (c :: cs) := by
  refine ⟨c, cs, rfl, Scan.isBlank_of_isDigit h, ?_, ?_⟩
  all_goals
    rintro rfl
    exact absurd h (by decide)

theorem operand_of_isNumber {cs : List Char} (h : Scan.IsNumber cs) : Operand cs := by
  obtain ⟨sign, numeral, rfl, rfl | rfl | rfl, hnumeral⟩ := h
  · obtain ⟨c, more, rfl, digit⟩ := Scan.head_of_isNumeral hnumeral
    exact operand_of_isDigit digit more
  · exact ⟨'+', numeral, rfl, by decide⟩
  · exact ⟨'-', numeral, rfl, by decide⟩

theorem operand_of_isSheetWord {cs : List Char} (h : Scan.isSheetWord cs) : Operand cs := by
  obtain ⟨c, more, rfl, start⟩ := Scan.head_of_isSheetWord h
  exact operand_of_startsWord start more

theorem operand_of_isCell {cs : List Char} (h : Scan.IsCell cs) : Operand cs := by
  obtain ⟨c, more, rfl, start⟩ := Scan.head_of_isCell h
  exact operand_of_startsWord start more

/-! ### Addresses -/

theorem Address.isCell_toChars (a : Address) : Scan.IsCell a.toChars := by
  refine ⟨a.colFixed, columnLetters a.col, a.rowFixed, Nat.toDigits 10 (a.row + 1), ?_, ⟨?_, ?_⟩,
    ?_, ?_⟩
  · simp [toChars]
  · exact columnLetters_ne_nil a.col
  · exact fun c hc => isUpper_of_mem_columnLetters hc
  · exact Nat.toDigits_ne_nil
  · exact fun c hc => Nat.isDigit_of_mem_toDigits (by decide) (by decide) hc

/-- The token that writes an address. -/
theorem Address.chars_text (a : Address) : (Token.cell a.text).chars = a.toChars := by
  simp [Token.chars, Address.text]

theorem Address.proper_text (a : Address) : (Token.cell a.text).Proper := by
  simpa [Token.Proper, Address.text] using a.isCell_toChars

/-! ### References -/

section

variable {total : Nat} {gap rest : List Char} {ts : Tokens}

/-- An address is cut off as one token. -/
theorem Cut.cell {a : Address} (cut : Cut total (gap ++ (a.toChars ++ rest)) ts)
    (blank : Blanks gap) (breaks : Scan.Breaks rest) :
    ∃ start stop after, ts = .token (.cell a.text) start stop after ∧ Cut total rest after := by
  rw [← a.chars_text] at cut
  obtain ⟨after, left, rfl⟩ := cut.token blank a.proper_text breaks
  exact ⟨_, _, after, rfl, left⟩

/-- A range is cut into one corner or three tokens, and read back. -/
theorem Range.Written.reads {r : Range} {cs : List Char} (h : r.Written cs) (wf : r.Normalized)
    (blank : Blanks gap) (cut : Cut total (gap ++ (cs ++ rest)) ts)
    (next : Continues Token.EndsTerm rest) :
    ∃ corner start stop more after, ts = .token (.cell corner) start stop more ∧
      Cut total rest after ∧ Parser.ReadsRange r corner more after := by
  cases h with
  | @corners gap' gap'' before after =>
    have text : r.first.toChars ++ (gap' ++ ':' :: (gap'' ++ r.last.toChars)) ++ rest =
        r.first.toChars ++ (gap' ++ (Token.colon.chars ++ (gap'' ++ (r.last.toChars ++ rest)))) := by
      simp [Token.chars]
    rw [text] at cut
    have breaks := Scan.breaks_append before (by decide : ':' ∈ Scan.symbolChars)
      (gap'' ++ (r.last.toChars ++ rest))
    obtain ⟨start, stop, ts, rfl, afterFirst⟩ := cut.cell blank breaks
    obtain ⟨ts', afterColon, rfl⟩ := afterFirst.token before trivial trivial
    obtain ⟨start', stop', ts'', rfl, afterLast⟩ := afterColon.cell after next.breaks
    exact ⟨_, start, stop, _, ts'', rfl, afterLast,
      Parser.readsRange_corners wf (next.start afterLast)⟩
  | corner same =>
    obtain ⟨start, stop, after, rfl, left⟩ := cut.cell blank next.breaks
    exact ⟨_, start, stop, after, after, rfl, left,
      Parser.readsRange_corner wf same (next.start left)⟩

/-- A reference is cut into the tokens of its range, behind the one of its sheet if it has one. -/
theorem Reference.Written.reads {r : Reference} {cs : List Char} (h : r.Written cs)
    (wf : (Term.range r).WellFormed) (blank : Blanks gap) (cut : Cut total (gap ++ (cs ++ rest)) ts)
    (next : Continues Token.EndsTerm rest) :
    ∃ after, Cut total rest after ∧ Parser.Reads Parser.term 1 (.range r) ts after := by
  obtain ⟨normalized, named⟩ := wf
  cases h with
  | bare cells =>
    obtain ⟨corner, start, stop, more, after, rfl, left, reads⟩ :=
      cells.reads normalized blank cut next
    exact ⟨after, left, Parser.reads_range reads⟩
  | @onSheet sheet range gap' cs blank' cells =>
    have text : SheetName.quoteChars sheet.toList ++ '!' :: (gap' ++ cs) ++ rest =
        (Token.sheet sheet).chars ++ (gap' ++ (cs ++ rest)) := by
      simp [Token.chars]
    rw [text] at cut
    obtain ⟨ts, afterSheet, rfl⟩ := cut.token blank (fun empty => named (empty ▸ rfl)) trivial
    obtain ⟨corner, start, stop, more, after, rfl, left, reads⟩ :=
      cells.reads normalized blank' afterSheet next
    exact ⟨after, left, Parser.reads_range_onSheet reads⟩

end

/-! ### Terms and expressions -/

theorem Range.Written.operand {r : Range} {cs : List Char} (h : r.Written cs) : Operand cs := by
  have first := operand_of_isCell r.first.isCell_toChars
  cases h with
  | corners => exact first.append _
  | corner => exact first

/-- A reference starts with a cell, a word or a quote. -/
theorem Reference.Written.operand {r : Reference} {cs : List Char} (h : r.Written cs) :
    Operand cs := by
  cases h with
  | bare cells => exact cells.operand
  | @onSheet sheet range gap cs blank cells =>
    have quoted : Operand (SheetName.quoteChars sheet.toList) := by
      unfold SheetName.quoteChars
      split
      next bare => exact operand_of_isSheetWord (Scan.isSheetWord_of_isIdentifierChars bare)
      next => exact ⟨'\'', _, rfl, by decide⟩
    exact quoted.append _

/-- No term starts with a blank or the end of an operator. -/
theorem Term.Written.operand {t : Term} {cs : List Char} (h : t.Written cs) (wf : t.WellFormed) :
    Operand cs := by
  cases h with
  | number digits percent => exact (operand_of_isNumber wf).append _
  | text content => exact ⟨'"', _, rfl, by decide⟩
  | call blank items =>
    rcases wf.1 with name | cell
    · exact (operand_of_isSheetWord name).append _
    · exact (operand_of_isCell cell).append _
  | group items => exact ⟨'(', _, rfl, by decide⟩
  | range reference => exact reference.operand
  | name name => exact operand_of_isSheetWord wf.1
  | null => exact ⟨'N', _, rfl, by decide⟩
  | negate blank operand apart => exact ⟨'-', _, rfl, by decide⟩

theorem Expression.Written.operand {e : Expression} {cs : List Char} (h : e.Written cs)
    (wf : e.WellFormed) : Operand cs := by
  cases h with
  | last term => exact term.operand wf
  | link before after term rest => exact (term.operand wf.1).append _

section

variable {total : Nat} {gap rest : List Char} {ts : Tokens}

/-- A number is cut off as one token, with its percent sign. -/
theorem Cut.number {numeral : List Char} {percent : Bool}
    (cut : Cut total (gap ++ (numeral ++ Scan.percentSign percent ++ rest)) ts) (blank : Blanks gap)
    (h : Scan.IsNumeral numeral) (breaks : Scan.Breaks rest) :
    ∃ after, Cut total rest after ∧ ts = .token (.number (String.ofList numeral) percent)
      (Scan.offset total (numeral ++ Scan.percentSign percent ++ rest)) (Scan.offset total rest)
      after := by
  have chars : (Token.number (String.ofList numeral) percent).chars =
      numeral ++ Scan.percentSign percent := by simp [Token.chars]
  rw [← chars] at cut ⊢
  refine cut.token blank ?_ breaks
  simpa [Token.Proper] using h

/-- A sign belongs to the digits right after it. -/
theorem reads_number {digits : String} (wf : Scan.IsNumber digits.toList) (percent : Bool)
    (blank : Blanks gap) (cut : Cut total (gap ++ (digits.toList ++ Scan.percentSign percent ++ rest)) ts)
    (next : Continues Token.EndsTerm rest) :
    ∃ after, Cut total rest after ∧ Parser.Reads Parser.term 1 (.number digits percent) ts after := by
  obtain ⟨sign, numeral, eq, signed, hnumeral⟩ := wf
  have value : ∀ negative, sign = (Parser.signSymbol negative).toList →
      digits = Parser.signSymbol negative ++ String.ofList numeral := by
    intro negative hsign
    rw [← String.toList_inj, eq, hsign, String.toList_append, String.toList_ofList]
  -- The sign is a token of its own; the reader joins it with the digits right behind it.
  have glued : ∀ negative, sign = (Parser.signSymbol negative).toList →
      ∃ after, Cut total rest after ∧
        Parser.Reads Parser.term 1 (.number digits percent) ts after := by
    intro negative hsign
    have text : digits.toList ++ Scan.percentSign percent ++ rest =
        (Token.operator (if negative then .subtract else .add)).chars ++
          (numeral ++ Scan.percentSign percent ++ rest) := by
      rw [eq, hsign]
      cases negative <;> simp [Parser.signSymbol, Token.chars, Operator.symbol]
    have operand : Operand (numeral ++ Scan.percentSign percent ++ rest) := by
      have := operand_of_isNumber ⟨[], numeral, rfl, .inl rfl, hnumeral⟩
      exact (this.append _).append _
    have ends : (Token.operator (if negative then .subtract else .add)).Ends
        (numeral ++ Scan.percentSign percent ++ rest) := operand.ends Text.blanks_nil _
    rw [text] at cut
    obtain ⟨ts, afterSign, rfl⟩ := cut.token blank trivial ends
    rw [← List.nil_append (numeral ++ _ ++ rest)] at afterSign
    obtain ⟨after, left, rfl⟩ := afterSign.number Text.blanks_nil hnumeral next.breaks
    rw [value negative hsign]
    exact ⟨after, left, Parser.reads_signed negative _ percent (next.start left).checked⟩
  rcases signed with rfl | rfl | rfl
  · obtain ⟨after, left, rfl⟩ := (eq ▸ cut).number blank hnumeral next.breaks
    obtain rfl : digits = String.ofList numeral := by rw [← String.toList_inj, eq]; simp
    exact ⟨after, left, Parser.reads_number _ percent (next.start left).checked⟩
  · exact glued false rfl
  · exact glued true rfl

/-- The token of a function. -/
theorem Cut.function {function : String} {cs : List Char}
    (cut : Cut total (gap ++ (function.toList ++ cs)) ts) (blank : Blanks gap)
    (wf : Scan.isSheetWord function.toList ∨ Scan.IsCell function.toList) (breaks : Scan.Breaks cs) :
    ∃ first start stop after, (first = Token.name function ∨ first = .cell function) ∧
      Cut total cs after ∧ ts = .token first start stop after := by
  by_cases cell : Scan.IsCell function.toList
  · have cut : Cut total (gap ++ ((Token.cell function).chars ++ cs)) ts := cut
    obtain ⟨after, left, rfl⟩ := cut.token blank cell breaks
    exact ⟨_, _, _, after, .inr rfl, left, rfl⟩
  · have name := wf.resolve_right cell
    have cut : Cut total (gap ++ ((Token.name function).chars ++ cs)) ts := cut
    obtain ⟨after, left, rfl⟩ := cut.token blank ⟨name, cell⟩ breaks
    exact ⟨_, _, _, after, .inl rfl, left, rfl⟩

end

section

variable {total : Nat} {gap rest : List Char} {ts : Tokens}

/-- A text is one token. -/
theorem reads_text {content : String} (blank : Blanks gap)
    (cut : Cut total (gap ++ ('"' :: (Scan.doubled '"' content.toList ++ ['"']) ++ rest)) ts)
    (next : Continues Token.EndsTerm rest) :
    ∃ after, Cut total rest after ∧ Parser.Reads Parser.term 1 (.text content) ts after := by
  have cut : Cut total (gap ++ ((Token.text content).chars ++ rest)) ts := cut
  obtain ⟨after, left, rfl⟩ := cut.token blank trivial next.breaks
  exact ⟨after, left, Parser.reads_text content (next.start left).checked⟩

/-- A name is one token; `None` is the missing value. -/
theorem reads_word {name : String} (word : Scan.isSheetWord name.toList)
    (noCell : ¬Scan.IsCell name.toList) (blank : Blanks gap)
    (cut : Cut total (gap ++ (name.toList ++ rest)) ts) (next : Continues Token.EndsTerm rest) :
    ∃ after, Cut total rest after ∧
      Parser.Reads Parser.term 1 (if name = "None" then .null else .name name) ts after := by
  have cut : Cut total (gap ++ ((Token.name name).chars ++ rest)) ts := cut
  obtain ⟨after, left, rfl⟩ := cut.token blank ⟨word, noCell⟩ next.breaks
  exact ⟨after, left, Parser.reads_name name (next.start left)⟩

/-- The token after a minus is no number that takes it for a sign. -/
theorem Cut.apart {cs : List Char} (cut : Cut total (gap ++ cs) ts) (blank : Blanks gap)
    (operand : Operand cs) (apart : gap = [] → ∀ c ∈ cs.head?, c.isDigit = false) (digits : String)
    (percent : Bool) (stop : Nat) (others : Tokens) :
    ts ≠ .token (.number digits percent) (Scan.offset total (gap ++ cs)) stop others := by
  rintro rfl
  obtain ⟨c, more, rfl, noBlank, -⟩ := operand
  obtain ⟨d, more', trimmed, digit, start⟩ := cut.number_inv
  rw [Text.trimLeft_append blank noBlank] at trimmed
  cases trimmed
  have glued : gap = [] := (Cut.offset_eq_iff cut.inside).1 start.symm
  have := apart glued c (by simp)
  rw [digit] at this
  cases this

end

mutual

/-- A written term is cut off from what follows and read back, with one call to spare. By induction
on the way it was written, together with expressions and lists. -/
theorem Term.Written.reads {t : Term} {cs : List Char} (h : t.Written cs) (wf : t.WellFormed)
    {total : Nat} {gap rest : List Char} {ts : Tokens} (blank : Blanks gap)
    (cut : Cut total (gap ++ (cs ++ rest)) ts) (next : Continues Token.EndsTerm rest) :
    ∃ after, Cut total rest after ∧ Parser.Reads Parser.term 1 t ts after := by
  match h with
  | .number digits percent => exact reads_number wf percent blank cut next
  | .text content => exact reads_text blank cut next
  | .name word =>
    have reads := reads_word wf.1 wf.2.2 blank cut next
    rwa [if_neg wf.2.1] at reads
  | .null =>
    have noCell : ¬Scan.IsCell "None".toList := by
      rw [← Scan.isCellWord_iff]
      decide
    exact reads_word (by decide) noCell blank cut next
  | .range reference => exact reference.reads wf blank cut next
  | @Term.Written.call function arguments gap' cs blank' items =>
    have text : function.toList ++ (gap' ++ '(' :: cs) ++ rest =
        function.toList ++ (gap' ++ (Token.openParen.chars ++ ([] ++ (cs ++ rest)))) := by
      simp [Token.chars]
    rw [text] at cut
    -- The parenthesis ends the word, with blanks in front of it or without.
    have breaks := Scan.breaks_append blank' (by decide : '(' ∈ Scan.symbolChars) ([] ++ (cs ++ rest))
    obtain ⟨first, start, stop, ts, word, afterWord, rfl⟩ := cut.function blank wf.1 breaks
    obtain ⟨ts', afterParen, rfl⟩ := afterWord.token blank' trivial trivial
    obtain ⟨after, left, reads⟩ := items.reads wf.2 afterParen next
    exact ⟨after, left, Parser.reads_call word reads⟩
  | @Term.Written.group es cs items =>
    have cut : Cut total (gap ++ (Token.openParen.chars ++ (cs ++ rest))) ts := cut
    obtain ⟨ts', afterParen, rfl⟩ := cut.token blank trivial trivial
    obtain ⟨after, left, reads⟩ := items.reads wf afterParen next
    exact ⟨after, left, Parser.reads_group reads⟩
  | @Term.Written.negate t gap' cs blank' operand apart =>
    have text : '-' :: (gap' ++ cs) ++ rest =
        (Token.operator .subtract).chars ++ (gap' ++ (cs ++ rest)) := by
      simp [Token.chars, Operator.symbol]
    have solid := operand.operand wf
    have ends := (solid.append rest).ends blank' .subtract
    rw [text] at cut
    obtain ⟨ts', afterMinus, rfl⟩ := cut.token blank trivial ends
    obtain ⟨after, left, reads⟩ := operand.reads wf blank' afterMinus next
    refine ⟨after, left, Parser.reads_negate reads ?_⟩
    -- The minus is no sign of a number: digits do not stand right behind it.
    refine afterMinus.apart blank' (solid.append rest) fun glued c hc => apart glued c ?_
    obtain ⟨d, more, rfl, -⟩ := solid
    simpa using hc

/-- A written expression is read back: its operators are cut off apart from the terms around them.
-/
theorem Expression.Written.reads {e : Expression} {cs : List Char} (h : e.Written cs)
    (wf : e.WellFormed) {total : Nat} {gap rest : List Char} {ts : Tokens} (blank : Blanks gap)
    (cut : Cut total (gap ++ (cs ++ rest)) ts) (next : Continues Token.EndsExpression rest) :
    ∃ after, Cut total rest after ∧ Parser.Reads Parser.expression 0 e ts after := by
  match h with
  | .last term =>
    obtain ⟨after, left, reads⟩ := term.reads wf blank cut next.of_endsExpression
    exact ⟨after, left, Parser.reads_last reads (next.start left)⟩
  | @Expression.Written.link t op e gap' gap'' cs ds before after term others =>
    have text : cs ++ (gap' ++ (op.symbol.toList ++ (gap'' ++ ds))) ++ rest =
        cs ++ (gap' ++ ((Token.operator op).chars ++ (gap'' ++ (ds ++ rest)))) := by
      simp [Token.chars]
    have ends := ((others.operand wf.2).append rest).ends after op
    rw [text] at cut
    obtain ⟨ts', afterTerm, reads⟩ := term.reads wf.1 blank cut (.of_token before trivial trivial ends)
    obtain ⟨ts'', afterOperator, rfl⟩ := afterTerm.token before trivial ends
    obtain ⟨after, left, reads'⟩ := others.reads wf.2 after afterOperator next
    exact ⟨after, left, Parser.reads_link reads reads'⟩

/-- A written list is read back up to its closing parenthesis, also behind a last comma. -/
theorem Expression.WrittenItems.reads {es : List Expression} {cs : List Char}
    (h : Expression.WrittenItems es cs) (wf : Expression.AllWellFormed es) {total : Nat}
    {rest : List Char} {ts : Tokens} (cut : Cut total (cs ++ rest) ts)
    (next : Continues Token.EndsTerm rest) :
    ∃ after, Cut total rest after ∧ Parser.Reads Parser.items 0 es ts after := by
  match h with
  | @Expression.WrittenItems.nil gap blank =>
    have text : gap ++ [')'] ++ rest = gap ++ (Token.closeParen.chars ++ rest) := by
      simp [Token.chars]
    rw [text] at cut
    obtain ⟨after, left, rfl⟩ := cut.token blank trivial trivial
    exact ⟨after, left, Parser.reads_nil (next.start left).checked⟩
  | @Expression.WrittenItems.last e gap gap' cs before after expression =>
    have text : gap ++ (cs ++ (gap' ++ [')'])) ++ rest =
        gap ++ (cs ++ (gap' ++ (Token.closeParen.chars ++ rest))) := by
      simp [Token.chars]
    rw [text] at cut
    obtain ⟨ts', afterItem, reads⟩ :=
      expression.reads wf.1 before cut (.of_token after trivial trivial trivial)
    obtain ⟨ts'', left, rfl⟩ := afterItem.token after trivial trivial
    exact ⟨ts'', left, Parser.reads_single reads (next.start left).checked⟩
  | @Expression.WrittenItems.cons e es gap gap' cs ds before after expression others =>
    have text : gap ++ (cs ++ (gap' ++ ',' :: ds)) ++ rest =
        gap ++ (cs ++ (gap' ++ (Token.comma.chars ++ (ds ++ rest)))) := by
      simp [Token.chars]
    rw [text] at cut
    obtain ⟨ts', afterItem, reads⟩ :=
      expression.reads wf.1 before cut (.of_token after trivial trivial trivial)
    obtain ⟨ts'', afterComma, rfl⟩ := afterItem.token after trivial trivial
    obtain ⟨after, left, reads'⟩ := others.reads wf.2 afterComma next
    exact ⟨after, left, Parser.reads_cons reads reads'⟩

end

/-! ### Formulas -/

/-- The text does not end in a blank. -/
def Solid (cs : List Char) : Prop := ∃ more c, cs = more ++ [c] ∧ Text.isBlank c = false

theorem Solid.append {cs : List Char} (h : Solid cs) (ds : List Char) : Solid (ds ++ cs) := by
  obtain ⟨more, c, rfl, solid⟩ := h
  exact ⟨ds ++ more, c, by rw [List.append_assoc], solid⟩

theorem solid_of_forall {cs : List Char} (some : cs ≠ [])
    (h : ∀ c ∈ cs, Text.isBlank c = false) : Solid cs :=
  ⟨cs.dropLast, cs.getLast some, (List.dropLast_append_getLast some).symm,
    h _ (List.getLast_mem some)⟩

theorem isBlank_of_isWordChar {c : Char} (h : Scan.isWordChar c) : Text.isBlank c = false := by
  simp only [Scan.isWordChar, Bool.or_eq_true, beq_iff_eq] at h
  rcases h with ((alphanum | rfl) | rfl) | rfl
  · exact Text.isBlank_of_isAlphanum alphanum
  · decide
  · decide
  · decide

theorem solid_of_isSheetWord {cs : List Char} (h : Scan.isSheetWord cs) : Solid cs := by
  obtain ⟨c, more, rfl, -⟩ := Scan.head_of_isSheetWord h
  exact solid_of_forall (List.cons_ne_nil _ _) fun c hc =>
    isBlank_of_isWordChar (Scan.isWordChar_of_isSheetWord h c hc).1

theorem solid_of_isDigits {cs : List Char} (h : Scan.IsDigits cs) : Solid cs :=
  solid_of_forall h.1 fun c hc => Scan.isBlank_of_isDigit (h.2 c hc)

theorem solid_of_isCell {cs : List Char} (h : Scan.IsCell cs) : Solid cs := by
  obtain ⟨colMark, letters, rowMark, digits, rfl, -, hdigits⟩ := h
  exact (((solid_of_isDigits hdigits).append _).append _).append _

/-- A number ends in a digit or a point. -/
theorem solid_of_isNumber {cs : List Char} (h : Scan.IsNumber cs) : Solid cs := by
  obtain ⟨sign, numeral, rfl, -, whole, fraction, exponent, rfl, hwhole, hfraction, hexponent⟩ := h
  refine Solid.append ?_ sign
  rcases hexponent with rfl | ⟨mark, sign, digits, rfl, -, -, hdigits⟩
  · rw [List.append_nil]
    rcases hfraction with rfl | ⟨digits, rfl, digit⟩
    · rw [List.append_nil]
      exact solid_of_isDigits hwhole
    · refine (solid_of_forall (List.cons_ne_nil _ _) fun c hc => ?_).append whole
      rcases List.mem_cons.1 hc with rfl | hc
      · decide
      · exact Scan.isBlank_of_isDigit (digit c hc)
  · exact ((((solid_of_isDigits hdigits).append sign).append [mark]).append fraction).append whole

/-- A reference ends in a digit. -/
theorem Reference.Written.solid {r : Reference} {cs : List Char} (h : r.Written cs) : Solid cs := by
  have corner : ∀ a : Address, Solid a.toChars := fun a => solid_of_isCell a.isCell_toChars
  have range : ∀ {range : Range} {cs : List Char}, range.Written cs → Solid cs := by
    intro range cs cells
    cases cells with
    | @corners gap gap' =>
      exact ((((corner range.last).append gap').append [':']).append gap).append _
    | corner => exact corner range.first
  cases h with
  | bare cells => exact range cells
  | @onSheet sheet _ gap cs blank cells => exact (((range cells).append gap).append ['!']).append _

mutual

/-- No term ends in a blank. -/
theorem Term.Written.solid {t : Term} {cs : List Char} (h : t.Written cs) (wf : t.WellFormed) :
    Solid cs := by
  match h with
  | .number digits percent =>
    cases percent with
    | true => exact ⟨digits.toList, '%', rfl, by decide⟩
    | false =>
      rw [Scan.percentSign, if_neg Bool.false_ne_true, List.append_nil]
      exact solid_of_isNumber wf
  | .text content => exact ⟨'"' :: Scan.doubled '"' content.toList, '"', rfl, by decide⟩
  | @Term.Written.call function arguments gap cs blank items =>
    exact ((items.solid.append ['(']).append gap).append _
  | .group items => exact items.solid.append ['(']
  | .range reference => exact reference.solid
  | .name name => exact solid_of_isSheetWord wf.1
  | .null => exact ⟨['N', 'o', 'n'], 'e', rfl, by decide⟩
  | @Term.Written.negate t gap cs blank operand apart =>
    exact ((operand.solid wf).append gap).append ['-']

theorem Expression.Written.solid {e : Expression} {cs : List Char} (h : e.Written cs)
    (wf : e.WellFormed) : Solid cs := by
  match h with
  | .last term => exact term.solid wf
  | @Expression.Written.link t op e gap gap' cs ds before after term rest =>
    exact ((((rest.solid wf.2).append gap').append _).append gap).append cs

theorem Expression.WrittenItems.solid {es : List Expression} {cs : List Char}
    (h : Expression.WrittenItems es cs) : Solid cs := by
  match h with
  | @Expression.WrittenItems.nil gap blank => exact ⟨gap, ')', rfl, by decide⟩
  | @Expression.WrittenItems.last e gap gap' cs before after expression =>
    have close : Solid [')'] := ⟨[], ')', rfl, by decide⟩
    exact ((close.append gap').append cs).append gap
  | @Expression.WrittenItems.cons e es gap gap' cs ds before after expression others =>
    exact (((others.solid.append [',']).append gap').append cs).append gap

end

theorem Solid.trimRight_append {cs back : List Char} (h : Solid cs) (blank : Blanks back) :
    Text.trimRight (cs ++ back) = cs := by
  obtain ⟨more, c, rfl, solid⟩ := h
  have reversed : (more ++ [c] ++ back).reverse = back.reverse ++ c :: more.reverse := by simp
  have blank : Blanks back.reverse := fun d hd => blank d (List.mem_reverse.1 hd)
  have dropped := Text.trimLeft_append blank solid more.reverse
  rw [Text.trimLeft] at dropped
  rw [Text.trimRight, reversed, dropped]
  simp

namespace Formula

/-- Blanks around a formula do not count, and neither does its `=`. -/
theorem payload_of_written {s : String} {front mark gap cs back : List Char} (front' : Blanks front)
    (gap' : Blanks gap) (back' : Blanks back) (hmark : mark = ['='] ∨ mark = [])
    (text : s.toList = front ++ (mark ++ (gap ++ (cs ++ back)))) (operand : Operand cs)
    (solid : Solid cs) : ∃ gap, Blanks gap ∧ payload s = gap ++ cs := by
  rw [payload, Text.trim, text]
  rcases hmark with rfl | rfl
  · refine ⟨gap, gap', ?_⟩
    have sign : Text.isBlank '=' = false := by decide
    have whole : Solid ('=' :: (gap ++ cs)) := (solid.append gap).append ['=']
    have assoc : '=' :: (gap ++ (cs ++ back)) = '=' :: (gap ++ cs) ++ back := by simp
    rw [List.singleton_append, Text.trimLeft_append front' sign, assoc,
      whole.trimRight_append back']
    rfl
  · refine ⟨[], Text.blanks_nil, ?_⟩
    obtain ⟨c, more, rfl, noBlank, noSign, -⟩ := operand
    have blank : Blanks (front ++ gap) := fun d hd =>
      (List.mem_append.1 hd).elim (front' d) (gap' d)
    have assoc : front ++ ([] ++ (gap ++ (c :: more ++ back))) =
        front ++ gap ++ c :: (more ++ back) := by simp
    rw [assoc, Text.trimLeft_append blank noBlank, ← List.cons_append, solid.trimRight_append back',
      Text.dropMark_of_head? (by simpa using noSign)]
    rfl

/-- A text that writes an expression, behind blanks, is read as this expression alone. -/
theorem ofPayload_written {e : Expression} {gap cs : List Char} (wf : e.WellFormed)
    (written : e.Written cs) (blank : Blanks gap) : ofPayload (gap ++ cs) = .ok ⟨[e]⟩ := by
  have cut := Cut.scan (gap ++ cs)
  rw [← List.append_nil cs] at cut
  obtain ⟨after, left, reads⟩ :=
    written.reads wf blank cut (Continues.of_blanks Text.blanks_nil)
  rw [List.append_nil] at reads
  obtain rfl := left.done Text.blanks_nil
  have shorter := reads.shorter
  have read := reads.read (Parser.fuelFor (Tokens.scan (gap ++ cs)))
    (by simp only [Parser.fuelFor, Tokens.length]; omega)
  refine bind_eq_ok_iff.2 ⟨_, reads.ready, ?_⟩
  obtain ⟨n, length⟩ : ∃ n, (Tokens.scan (gap ++ cs)).length = n + 1 :=
    ⟨(Tokens.scan (gap ++ cs)).length - 1, by omega⟩
  have all : Parser.expressions (n + 1 + 1) (Tokens.scan (gap ++ cs)) = .ok [e] := by
    unfold Parser.expressions
    split
    next eq =>
      rw [eq] at length
      cases length
    next => exact bind_eq_ok_iff.2 ⟨_, read, rfl⟩
  split
  next eq =>
    rw [eq] at length
    cases length
  next =>
    rw [length, all]
    rfl

/-- **Reading inverts writing.** Exactly the well-formed formulas are read from some text; they can
all be written, and each text that writes one is read as this formula. -/
theorem parseSingle_written (f : Formula) :
    (f.WellFormed ↔ ∃ s, parseSingle s = .ok f) ∧
    (f.WellFormed → f.Written f.write ∧ ∀ s, f.Written s → parseSingle s = .ok f) := by
  have writable : f.WellFormed → f.Written f.write := by
    rintro ⟨e, single, -⟩
    refine ⟨e, [], ['='], [], e.write, [], single, e.written_write, Text.blanks_nil,
      Text.blanks_nil, Text.blanks_nil, .inl rfl, ?_⟩
    simp [write, single]
  have inverts : f.WellFormed → ∀ s, f.Written s → parseSingle s = .ok f := by
    rintro ⟨e, single, wf⟩ s ⟨e', front, mark, gap, cs, back, single', written, front', gap', back',
      hmark, text⟩
    obtain rfl : e' = e := by simpa [single] using single'.symm
    obtain ⟨gap, blank, payload⟩ :=
      payload_of_written front' gap' back' hmark text (written.operand wf) (written.solid wf)
    obtain rfl : f = ⟨[e']⟩ := by
      cases f
      simpa using single
    rw [parseSingle, payload, ofPayload_written wf written blank]
    rfl
  refine ⟨⟨fun wf => ⟨f.write, inverts wf _ (writable wf)⟩, ?_⟩, fun wf => ⟨writable wf, inverts wf⟩⟩
  rintro ⟨s, read⟩
  exact wellFormed_of_parseSingle read

/-- A function that looks like a cell, a quote in a sheet name and in a text, a sign and a
negation. -/
def decibels : Formula :=
  let cells : Range := ⟨⟨0, 0, true, true⟩, ⟨1, 1, false, false⟩⟩
  ⟨[.link (.call "LOG10" [.last (.range ⟨some "Q1 'x", cells⟩), .last (.number "-5" true)]) .notEqual
    (.link (.negate (.number "5" false)) .concat (.last (.text "say \"hi\"")))]⟩

/-- Blanks between the tokens and a comma at the end of a list do no harm. -/
theorem parseSingle_written_decibels :
    decibels.WellFormed ∧
      decibels.Written " = LOG10 ('Q1 ''x'!$A$1 :B2,-5% ,)<>- 5&\"say \"\"hi\"\"\" " ∧
      parseSingle " = LOG10 ('Q1 ''x'!$A$1 :B2,-5% ,)<>- 5&\"say \"\"hi\"\"\" " = .ok decibels := by
  have digits : Scan.IsNumeral ['5'] :=
    ⟨['5'], [], [], rfl, ⟨by decide, List.forall_mem_singleton.2 (by decide)⟩, .inl rfl, .inl rfl⟩
  have wf : decibels.WellFormed := by
    refine ⟨_, rfl, ⟨.inl (by decide), ⟨⟨⟨by decide, by decide⟩, by decide⟩, by decide⟩, ?_, trivial⟩,
      ?_, trivial⟩
    · exact ⟨['-'], ['5'], rfl, .inr (.inr rfl), digits⟩
    · exact ⟨[], ['5'], rfl, .inl rfl, digits⟩
  have none : Blanks [] := Text.blanks_nil
  have one : Blanks [' '] := by
    intro c hc
    obtain rfl := List.mem_singleton.1 hc
    decide
  have written : decibels.Written
      " = LOG10 ('Q1 ''x'!$A$1 :B2,-5% ,)<>- 5&\"say \"\"hi\"\"\" " := by
    exact ⟨_, [' '], ['='], [' '], _, [' '], rfl,
      .link none none
        (.call one (.cons none none (.last (.range (.onSheet none (.corners one none))))
          (.cons none one (.last (.number "-5" true)) (.nil none))))
        (.link none none (.negate one (.number "5" false) nofun) (.last (.text "say \"hi\""))),
      one, one, one, .inl rfl, by decide +kernel⟩
  exact ⟨wf, written, ((parseSingle_written decibels).2 wf).2 _ written⟩

end Formula

end SheetCompiler
