import SheetCompiler.Proofs.Alias.Keys
import SheetCompiler.Proofs.Formula.Tracing

/-!
# References as text

A reference is written as its text and as its key. Both are read back: the text as the same sheet
and cells, and with the same marks as far as the text tells them (`Range.told`); the key as the
cells with all marks set. Blanks around a text do not count, and neither does one `=` before it.

References stand in formulas and, alone, in definitions of names. The two readers have their own
ways to find the sheet name, but they agree on what formulas read as a range, unless it has a sign.
-/

namespace SheetCompiler

open Fallible
open Text (Blanks)

/-! ### What a text tells -/

namespace Range

/-- The range that the text tells of: a single cell is written once, with the marks of the first
corner. -/
def told (r : Range) : Range := if r.isSingle then .single r.first else r

/-- The text tells of the same cells. -/
theorem told_sameCells (r : Range) : r.told.SameCells r := by
  unfold told
  split
  next single => exact ⟨by simp [Range.single, Address.sameCell], single⟩
  next => exact ⟨by simp [Address.sameCell], by simp [Address.sameCell]⟩

/-- The text tells of all marks, unless it leaves out a corner that has others. -/
theorem told_eq_iff {r : Range} : r.told = r ↔ (r.isSingle → r.first = r.last) := by
  unfold told
  split
  next single =>
    constructor
    · intro eq _
      exact congrArg Range.last eq
    · intro same
      exact eq_of_corners rfl (same single)
  next several => simp [several]

theorem normalized_told {r : Range} (h : r.Normalized) : r.told.Normalized := by
  unfold told
  split
  next => exact ⟨⟨h.inSheet.1, h.inSheet.1⟩, Nat.le_refl _, Nat.le_refl _⟩
  next => exact h

theorem written_toChars (r : Range) : r.told.Written r.toChars := by
  unfold told toChars
  split
  next => exact .corner rfl
  next => exact .corners Text.blanks_nil Text.blanks_nil

end Range

namespace Reference

/-- The reference that the text tells of. -/
def told (r : Reference) : Reference := { r with range := r.range.told }

theorem told_eq_iff {r : Reference} :
    r.told = r ↔ (r.range.isSingle → r.range.first = r.range.last) := by
  rw [← Range.told_eq_iff]
  constructor
  · intro eq
    exact congrArg Reference.range eq
  · intro eq
    rw [told, eq]

theorem written_toChars (r : Reference) : r.told.Written r.toChars := by
  obtain ⟨sheet, range⟩ := r
  cases sheet with
  | none => exact .bare range.written_toChars
  | some sheet => exact .onSheet Text.blanks_nil range.written_toChars

/-! ### Reading texts and keys -/

/-- The text between blanks, after a `=` or without one. -/
def Around (cs : List Char) (s : String) : Prop :=
  ∃ front mark gap back, Blanks front ∧ Blanks gap ∧ Blanks back ∧ (mark = ['='] ∨ mark = []) ∧
    s.toList = front ++ (mark ++ (gap ++ (cs ++ back)))

theorem around_self (cs : List Char) : Around cs (String.ofList cs) :=
  ⟨[], [], [], [], Text.blanks_nil, Text.blanks_nil, Text.blanks_nil, .inr rfl, by simp⟩

/-- What is left to read of a text: neither the blanks around it count, nor its `=`. -/
def stripped (s : String) : List Char := Text.trim (Formula.payload s)

theorem parse_congr {s s' : String} (h : stripped s = stripped s') : parse s = parse s' := by
  unfold stripped Formula.payload at h
  unfold parse ofChars
  rw [h]

/-- Of a written reference, blanks and a `=` around it are stripped, and nothing else. -/
theorem stripped_around {r : Reference} {cs : List Char} (written : r.Written cs) {s : String}
    (around : Around cs s) : stripped s = Text.trim cs := by
  obtain ⟨front, mark, gap, back, front', gap', back', hmark, text⟩ := around
  obtain ⟨gap, blank, payload⟩ := Formula.payload_of_written front' gap' back' hmark text
    written.operand written.solid
  rw [stripped, payload]
  simpa using Text.trim_around blank Text.blanks_nil cs

/-- Blanks and a `=` around its text do not change what a reference is read as. -/
theorem parse_around {r : Reference} (h : r.range.Normalized) {s : String}
    (around : Around r.toChars s) : parse s = .ok r.told := by
  have same : stripped s = stripped (String.ofList r.toChars) := by
    rw [stripped_around r.written_toChars around,
      stripped_around r.written_toChars (around_self r.toChars)]
  rw [parse_congr same, parse, String.toList_ofList]
  exact ofChars_onSheet r.sheet (Range.ofChars_toChars h)

/-- A key is read as its cells with all marks set, on the sheet it names. -/
theorem parse_key {r : Reference} (h : r.range.Normalized) (current : Option String) :
    parse (r.key current) = .ok ⟨r.sheetOr current, r.range.pinned⟩ := by
  rw [parse, key, String.toList_ofList]
  exact ofChars_onSheet _ (Range.ofChars_pinned h)

/-- What a key is read as has this key, seen from anywhere it can be seen from. -/
theorem key_pinned (r : Reference) {current other : Option String}
    (seen : other = none ∨ other = current) :
    key ⟨r.sheetOr current, r.range.pinned⟩ other = r.key current := by
  have sheet : sheetOr ⟨r.sheetOr current, r.range.pinned⟩ other = r.sheetOr current := by
    obtain ⟨sheet, range⟩ := r
    cases sheet with
    | some sheet => rfl
    | none =>
      rcases seen with rfl | rfl
      · cases current <;> rfl
      · cases other <;> rfl
  rw [key, key, sheet]
  rfl

/-- **Texts and keys are read back.** A key is read as its cells with all marks set, which have this
key. A text is read, with blanks and a `=` around it or without, as the same sheet and cells; the
marks are kept exactly if it is not a single cell whose corners have different marks. -/
theorem text_roundTrips (r : Reference) (h : r.range.Normalized) :
    (∀ current, ∃ q, parse (r.key current) = .ok q ∧ q.sheet = r.sheetOr current ∧
      q.range = r.range.pinned ∧ q.key none = r.key current ∧ q.key current = r.key current) ∧
    ∀ s, Around r.toChars s → ∃ q, parse s = .ok q ∧ q.sheet = r.sheet ∧
      q.range.SameCells r.range ∧ (q = r ↔ (r.range.isSingle → r.range.first = r.range.last)) := by
  constructor
  · intro current
    exact ⟨_, parse_key h current, rfl, rfl, r.key_pinned (.inl rfl), r.key_pinned (.inr rfl)⟩
  · intro s around
    exact ⟨r.told, parse_around h around, rfl, r.range.told_sameCells, told_eq_iff⟩

/-- A cell whose corners have different marks, on a sheet whose name is full of quotes. -/
def quoted : Reference := ⟨some "it''s! '", ⟨⟨1, 0, true, false⟩, ⟨1, 0, false, true⟩⟩⟩

/-- Both texts are read back, but the marks of the second corner are lost. -/
theorem text_roundTrips_quoted :
    quoted.range.Normalized ∧
      (∃ q, parse "'it''''s! '''!$A$2" = .ok q ∧ q.sheet = some "it''s! '" ∧
        q.key none = "'it''''s! '''!$A$2") ∧
      ∃ q, parse " = 'it''''s! '''!A$2 " = .ok q ∧ q.sheet = some "it''s! '" ∧
        q.range.SameCells quoted.range ∧ q ≠ quoted := by
  have normalized : quoted.range.Normalized := ⟨by decide, by decide⟩
  have one : Blanks [' '] := by
    intro c hc
    obtain rfl := List.mem_singleton.1 hc
    decide
  have key : quoted.key none = "'it''''s! '''!$A$2" := by decide +kernel
  have around : Around quoted.toChars " = 'it''''s! '''!A$2 " :=
    ⟨[' '], ['='], [' '], [' '], one, one, one, .inl rfl, by decide +kernel⟩
  obtain ⟨keys, texts⟩ := text_roundTrips quoted normalized
  refine ⟨normalized, ?_, ?_⟩
  · obtain ⟨q, read, sheet, -, same, -⟩ := keys none
    rw [key] at read same
    exact ⟨q, read, sheet, same⟩
  · obtain ⟨q, read, sheet, cells, marks⟩ := texts _ around
    exact ⟨q, read, sheet, cells, fun eq => absurd (marks.1 eq) (by decide)⟩

/-! ### Reading what formulas read -/

variable {r : Reference} {s : String}

/-- The reference that a text without a sheet name is read as. -/
theorem parse_bare (bare : '!' ∉ stripped s) {range : Range} :
    parse s = .ok ⟨none, range⟩ ↔ Range.ofChars (stripped s) = .ok range := by
  have text : Text.trim (Text.dropMark '=' (Text.trim s.toList)) = stripped s := rfl
  simp only [parse, ofChars, text, Text.cutLast_of_notMem bare, bind_eq_ok_iff, mapError_eq_ok_iff]
  constructor
  · rintro ⟨a, read, eq⟩
    cases eq
    exact read
  · intro read
    exact ⟨range, read, rfl⟩

/-- The last exclamation mark is behind the sheet name. -/
theorem parse_onSheet {before after : List Char} (text : stripped s = before ++ '!' :: after)
    (bare : '!' ∉ after) {sheet : String} {range : Range} :
    parse s = .ok ⟨some sheet, range⟩ ↔
      SheetName.unquote before = .ok sheet ∧ Range.ofChars after = .ok range := by
  have text : Text.trim (Text.dropMark '=' (Text.trim s.toList)) = before ++ '!' :: after := text
  simp only [parse, ofChars, text, Text.cutLast_append bare, bind_eq_ok_iff, mapError_eq_ok_iff]
  constructor
  · rintro ⟨name, unquoted, a, read, eq⟩
    cases eq
    exact ⟨unquoted, read⟩
  · rintro ⟨unquoted, read⟩
    exact ⟨sheet, unquoted, range, read, rfl⟩

end Reference

/-! ### Signs -/

namespace Text

theorem trim_cons {c : Char} (solid : isBlank c = false) (cs : List Char) :
    trim (c :: cs) = c :: trimRight cs := trim_append_cons solid [] cs

end Text

/-- Addresses have no sign. -/
theorem Address.ofChars_plus {cs more : List Char} (sign : Text.trim cs = '+' :: more)
    (a : Address) : ofChars cs ≠ .ok a := by
  have letters : ('+' :: more).takeWhile Char.isAlpha = [] :=
    List.takeWhile_cons_of_neg (by decide)
  have mark : takeMark ('+' :: more) = (false, '+' :: more) := rfl
  intro read
  simp [ofChars, sign, ofTrimmed, mark, letters] at read

/-- Ranges have no sign. -/
theorem Range.ofChars_plus {cs more : List Char} (sign : Text.trim cs = '+' :: more) (r : Range) :
    ofChars cs ≠ .ok r := by
  have plus : Text.isBlank '+' = false := by decide
  intro read
  simp only [ofChars, sign, Text.cutFirst] at read
  rw [if_neg (by decide)] at read
  cases cut : Text.cutFirst ':' more with
  | some parts =>
    obtain ⟨left, right⟩ := parts
    rw [cut, Option.map_some] at read
    obtain ⟨a, first, -⟩ := bind_eq_ok_iff.1 read
    rw [mapError_eq_ok_iff] at first
    exact Address.ofChars_plus (Text.trim_cons plus left) a first
  | none =>
    rw [cut, Option.map_none] at read
    dsimp only at read
    rw [mapError_eq_ok_iff] at read
    obtain ⟨a, first, -⟩ := bind_eq_ok_iff.1 read
    exact Address.ofChars_plus (Text.trim_cons plus more) a first

namespace Reference

variable {r : Reference} {s : String}

/-- A reference without a sheet is spelled without `!`; otherwise the last one ends the sheet
name. -/
theorem Spelled.parts {cs : List Char} (h : r.Spelled cs) :
    (r.sheet = none ∧ '!' ∉ cs) ∨
    ∃ name front spelling rest, r.sheet = some name ∧ SheetName.Spelled name.toList spelling ∧
      '!' ∉ rest ∧ cs = front ++ spelling ++ '!' :: rest := by
  induction h with
  | bare sheet _ noBang => exact .inl ⟨sheet, noBang⟩
  | @onSheet name gap spelling cs _ sheet spelled _ noBang =>
    exact .inr ⟨name, gap, spelling, cs, sheet, spelled, noBang, by simp⟩
  | @plus gap cs blank _ ih =>
    rcases ih with ⟨sheet, noBang⟩ | ⟨name, front, spelling, rest, sheet, spelled, noBang, rfl⟩
    · refine .inl ⟨sheet, ?_⟩
      have outside : '!' ∉ gap := blank.notMem (by decide)
      simp [outside, noBang]
    · exact .inr ⟨name, gap ++ '+' :: front, spelling, rest, sheet, spelled, noBang, by simp⟩

theorem trim_plus {cs : List Char} (solid : Solid ('+' :: cs)) :
    Text.trim ('+' :: cs) = '+' :: cs := by
  have operand : Operand ('+' :: cs) := ⟨'+', cs, rfl, by decide⟩
  exact Text.trim_of_tight (tight_of_operand operand solid)

/-- With a sign, the sheet name would be longer than it is. -/
theorem parse_ne_of_plus (spelled : r.Spelled (Formula.payload s)) {more : List Char}
    (sign : stripped s = '+' :: more) : parse s ≠ .ok r := by
  have bang : Text.isBlank '!' = false := by decide
  intro read
  obtain ⟨sheet, range⟩ := r
  rcases spelled.parts with ⟨rfl, noBang⟩ | ⟨name, front, spelling, rest, rfl, spelled, noBang, eq⟩
  · have bare : '!' ∉ stripped s := fun h => noBang (Text.mem_of_mem_trim h)
    have trimmed : Text.trim (stripped s) = '+' :: more := by
      rw [← sign]
      exact Text.trim_trim _
    exact Range.ofChars_plus trimmed range ((parse_bare bare).1 read)
  · obtain ⟨c, others, rfl, solid, noPlus⟩ := spelled.head
    -- Before the last `!` stands the name as it is spelled, with the sign in front.
    have text : stripped s = Text.trimLeft front ++ c :: others ++ '!' :: Text.trimRight rest := by
      rw [stripped, eq, Text.trim_append_cons bang, Text.trimLeft_append_cons solid]
    have bare : '!' ∉ Text.trimRight rest := fun h => noBang (Text.mem_of_mem_trimRight h)
    have unquoted := ((parse_onSheet text bare).1 read).1
    rw [sign] at text
    cases signs : Text.trimLeft front with
    | nil =>
      rw [signs] at text
      exact noPlus (List.cons.inj text).1.symm
    | cons d signs' =>
      rw [signs] at text unquoted
      obtain rfl : '+' = d := (List.cons.inj text).1
      have ends : Solid ('+' :: (signs' ++ c :: others)) :=
        (spelled.solid.append signs').append ['+']
      rw [List.cons_append, SheetName.unquote, trim_plus ends] at unquoted
      have name := congrArg String.toList (Except.ok.inj unquoted)
      have length := congrArg List.length name
      have := spelled.length_le
      simp only [String.toList_ofList, List.length_cons, List.length_append] at length this
      omega

/-- The two readers agree on what formulas read as a range, exactly if it has no sign. -/
theorem parse_eq_ok_iff_of_spelled (spelled : r.Spelled (Formula.payload s)) :
    parse s = .ok r ↔ (stripped s).head? ≠ some '+' := by
  constructor
  · intro read sign
    obtain ⟨more, text⟩ := List.head?_eq_some_iff.1 sign
    exact parse_ne_of_plus spelled text read
  · intro unsigned
    obtain ⟨sheet, range⟩ := r
    generalize payload : Formula.payload s = cs at spelled
    cases spelled with
    | bare none cells noBang =>
      subst none
      have bare : '!' ∉ stripped s := fun h => noBang (payload ▸ Text.mem_of_mem_trim h)
      refine (parse_bare bare).2 ((Range.ofChars_congr ?_).trans cells)
      rw [stripped, payload, Text.trim_trim]
    | @onSheet name gap spelling rest blank some spelled cells noBang =>
      subst some
      have bang : Text.isBlank '!' = false := by decide
      obtain ⟨c, others, rfl, solid, -⟩ := spelled.head
      have text : stripped s = c :: others ++ '!' :: Text.trimRight rest := by
        rw [stripped, payload, ← List.append_assoc, Text.trim_append_cons bang,
          Text.trimLeft_append blank solid]
      have bare : '!' ∉ Text.trimRight rest := fun h => noBang (Text.mem_of_mem_trimRight h)
      have range := (Range.ofChars_congr (Text.trim_trimRight rest)).trans cells
      refine (parse_onSheet text bare).2 ⟨?_, range⟩
      rw [spelled.unquote_eq, String.ofList_toList]
    | @plus gap rest blank _ =>
      have plus : Text.isBlank '+' = false := by decide
      have blanks : Text.trimLeft gap = [] := List.dropWhile_eq_nil_iff.2 blank
      refine absurd ?_ unsigned
      rw [stripped, payload, Text.trim_append_cons plus, blanks]
      rfl

/-- **The two readers agree.** What formulas read as one range is read as the same reference where
references stand alone, exactly if it does not start with a plus. The text of a reference is read by
formulas as one range, on the same sheet and with the same cells. -/
theorem readers_agree :
    (∀ s r, Formula.parseSingle s = .ok ⟨[.last (.range r)]⟩ →
      (parse s = .ok r ↔ (stripped s).head? ≠ some '+')) ∧
    ∀ r : Reference, r.range.Normalized → r.sheet ≠ some "" →
      ∃ q, Formula.parseSingle r.text = .ok ⟨[.last (.range q)]⟩ ∧ q.sheet = r.sheet ∧
        q.range.SameCells r.range := by
  constructor
  · intro s r read
    obtain ⟨f, payload, single⟩ := bind_eq_ok_iff.1 read
    split at single
    next =>
      cases single
      exact parse_eq_ok_iff_of_spelled (spelled_of_ofPayload (mapError_eq_ok_iff.1 payload))
    next => cases single
  · intro r normalized named
    have written := r.written_toChars
    obtain ⟨front, mark, gap, back, front', gap', back', hmark, text⟩ := around_self r.toChars
    obtain ⟨gap, blank, payload⟩ := Formula.payload_of_written front' gap' back' hmark text
      written.operand written.solid
    have wf : (Expression.last (.range r.told)).WellFormed :=
      ⟨Range.normalized_told normalized, named⟩
    have read := Formula.ofPayload_written wf (.last (.range written)) blank
    refine ⟨r.told, ?_, rfl, r.range.told_sameCells⟩
    rw [Formula.parseSingle, Reference.text, payload, read]
    rfl

/-- A quoted name and blanks make no difference, a plus does. -/
theorem readers_agree_quoted :
    (∃ q, Formula.parseSingle " = 'it''''s! '''! A$2 : $A2 " = .ok ⟨[.last (.range q)]⟩ ∧
      parse " = 'it''''s! '''! A$2 : $A2 " = .ok q) ∧
    (∃ q, Formula.parseSingle "= +A1" = .ok ⟨[.last (.range q)]⟩ ∧ parse "= +A1" ≠ .ok q) ∧
    ∃ q, Formula.parseSingle quoted.text = .ok ⟨[.last (.range q)]⟩ ∧ q.sheet = quoted.sheet := by
  obtain ⟨alone, written⟩ := readers_agree
  refine ⟨⟨quoted, ?_⟩, ⟨⟨none, .single ⟨0, 0, false, false⟩⟩, ?_⟩, ?_⟩
  · have read : Formula.parseSingle " = 'it''''s! '''! A$2 : $A2 " =
        .ok ⟨[.last (.range quoted)]⟩ := by
      decide +kernel
    exact ⟨read, (alone _ _ read).2 (by decide +kernel)⟩
  · have read : Formula.parseSingle "= +A1" =
        .ok ⟨[.last (.range ⟨none, .single ⟨0, 0, false, false⟩⟩)]⟩ := by
      decide +kernel
    exact ⟨read, fun same => (alone _ _ read).1 same (by decide +kernel)⟩
  · obtain ⟨q, read, sheet, -⟩ := written quoted ⟨by decide, by decide⟩ (by decide)
    exact ⟨q, read, sheet⟩

end Reference

end SheetCompiler
