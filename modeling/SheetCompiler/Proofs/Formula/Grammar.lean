import SheetCompiler.Proofs.Formula.WellFormed

/-!
# The rules of the grammar

`Parser.Reads` says that tokens are read as a term, an expression or a list up to the tokens that
are left, with as many calls as there are tokens to bound them. There is one lemma for each rule, so
that a text can be read by its structure without the fuel.
-/

namespace SheetCompiler

open Fallible

/-- The token ends an expression. -/
def Token.EndsExpression : Token → Prop
  | .comma | .closeParen => True
  | _ => False

/-- The token ends a term. -/
def Token.EndsTerm : Token → Prop
  | .operator _ | .comma | .closeParen => True
  | _ => False

/-- The tokens are none, or start with one of these. -/
def Tokens.Start (allowed : Token → Prop) : Tokens → Prop
  | .done _ => True
  | .token first _ _ _ => allowed first
  | .fault _ => False

/-- Tokens that go on well have no fault in front. -/
theorem Tokens.Start.checked {allowed : Token → Prop} {ts : Tokens} (start : ts.Start allowed) :
    ts.checked = .ok ts := by
  cases ts with
  | fault => cases start
  | done | token => rfl

namespace Parser

/-- With four calls a token, tokens are read as this up to those. -/
structure Reads {α : Type} (parse : Nat → Tokens → Except ParseError (α × Tokens)) (slack : Nat)
    (a : α) (ts after : Tokens) : Prop where
  ready : ts.checked = .ok ts
  shorter : after.length < ts.length
  read : ∀ fuel, 4 * ts.length ≤ fuel + slack + 4 * after.length → parse fuel ts = .ok (a, after)

section

variable {ts after : Tokens} {start stop : Nat}

/-- A number without a sign. -/
theorem reads_number (digits : String) (percent : Bool) (next : after.checked = .ok after) :
    Reads term 1 (.number digits percent) (.token (.number digits percent) start stop after)
      after := by
  refine ⟨rfl, by simp [Tokens.length], fun fuel enough => ?_⟩
  simp only [Tokens.length] at enough
  obtain ⟨fuel, rfl⟩ : ∃ more, fuel = more + 1 := ⟨fuel - 1, by omega⟩
  simp only [term, next]
  rfl

/-- A number takes the sign right before it. -/
theorem reads_signed (negative : Bool) (digits : String) (percent : Bool) {middle : Nat}
    (next : after.checked = .ok after) :
    Reads term 1 (.number (signSymbol negative ++ digits) percent)
      (.token (.operator (if negative then .subtract else .add)) start middle
        (.token (.number digits percent) middle stop after)) after := by
  refine ⟨rfl, by simp only [Tokens.length]; omega, fun fuel enough => ?_⟩
  simp only [Tokens.length] at enough
  obtain ⟨fuel, rfl⟩ : ∃ more, fuel = more + 2 := ⟨fuel - 2, by omega⟩
  have step : signedTerm (fuel + 1) negative middle
      (.token (.number digits percent) middle stop after) =
        .ok (.number (signSymbol negative ++ digits) percent, after) := by
    refine bind_eq_ok_iff.2 ⟨_, rfl, ?_⟩
    dsimp only
    rw [if_pos rfl, next]
    rfl
  cases negative <;> exact step

/-- A text. -/
theorem reads_text (content : String) (next : after.checked = .ok after) :
    Reads term 1 (.text content) (.token (.text content) start stop after) after := by
  refine ⟨rfl, by simp [Tokens.length], fun fuel enough => ?_⟩
  simp only [Tokens.length] at enough
  obtain ⟨fuel, rfl⟩ : ∃ more, fuel = more + 1 := ⟨fuel - 1, by omega⟩
  simp only [term, next]
  rfl

/-- A name ends where no list follows; `None` is the missing value. -/
theorem reads_name (name : String) (next : after.Start Token.EndsTerm) :
    Reads term 1 (if name = "None" then .null else .name name) (.token (.name name) start stop after)
      after := by
  refine ⟨rfl, by simp [Tokens.length], fun fuel enough => ?_⟩
  simp only [Tokens.length] at enough
  obtain ⟨fuel, rfl⟩ : ∃ more, fuel = more + 1 := ⟨fuel - 1, by omega⟩
  refine bind_eq_ok_iff.2 ⟨after, next.checked, ?_⟩
  split
  · exact next.elim
  · rfl

/-- A function is a name or looks like a cell. -/
theorem reads_call {function : String} {first : Token}
    (word : first = .name function ∨ first = .cell function) {start' stop' : Nat}
    {arguments : List Expression} (list : Reads items 0 arguments ts after) :
    Reads term 1 (.call function arguments)
      (.token first start stop (.token .openParen start' stop' ts)) after := by
  have shorter := list.shorter
  refine ⟨rfl, by simp only [Tokens.length]; omega, fun fuel enough => ?_⟩
  simp only [Tokens.length] at enough
  obtain ⟨fuel, rfl⟩ : ∃ more, fuel = more + 1 := ⟨fuel - 1, by omega⟩
  have read := list.read fuel (by omega)
  rcases word with rfl | rfl
  all_goals
    refine bind_eq_ok_iff.2 ⟨_, rfl, bind_eq_ok_iff.2 ⟨ts, list.ready, ?_⟩⟩
    rw [read]
    rfl

/-- A list in parentheses. -/
theorem reads_group {es : List Expression} (list : Reads items 0 es ts after) :
    Reads term 1 (.group es) (.token .openParen start stop ts) after := by
  have shorter := list.shorter
  refine ⟨rfl, by simp only [Tokens.length]; omega, fun fuel enough => ?_⟩
  simp only [Tokens.length] at enough
  obtain ⟨fuel, rfl⟩ : ∃ more, fuel = more + 1 := ⟨fuel - 1, by omega⟩
  have read := list.read fuel (by omega)
  refine bind_eq_ok_iff.2 ⟨ts, list.ready, ?_⟩
  rw [read]
  rfl

/-- The minus before anything but digits right after it is a negation. -/
theorem reads_negate {t : Term} (operand : Reads term 1 t ts after)
    (apart : ∀ digits percent stop' rest, ts ≠ .token (.number digits percent) stop stop' rest) :
    Reads term 1 (.negate t) (.token (.operator .subtract) start stop ts) after := by
  have shorter := operand.shorter
  refine ⟨rfl, by simp only [Tokens.length]; omega, fun fuel enough => ?_⟩
  simp only [Tokens.length] at enough
  obtain ⟨fuel, rfl⟩ : ∃ more, fuel = more + 2 := ⟨fuel - 2, by omega⟩
  have read := operand.read fuel (by omega)
  refine bind_eq_ok_iff.2 ⟨ts, operand.ready, ?_⟩
  split
  next digits percent start' stop' rest =>
    have other : start' ≠ stop := by
      rintro rfl
      exact apart digits percent stop' rest rfl
    rw [if_neg other, read]
    rfl
  next =>
    rw [read]
    rfl

/-- An address of the sheet is read from its text. -/
theorem address_text {a : Address} (inside : a.InSheet) (position : Nat) :
    address a.text position = .ok a := by
  rw [address, mapError_eq_ok_iff, Address.parse, Address.text, String.toList_ofList,
    Address.ofChars_toChars inside]

/-- A range is read from its first corner and these tokens. -/
structure ReadsRange (r : Range) (corner : String) (ts after : Tokens) : Prop where
  start : ts.Start fun token => token = .colon ∨ token.EndsTerm
  shorter : after.length ≤ ts.length
  read : ∀ sheet position, range sheet corner position ts = .ok (.range ⟨sheet, r⟩, after)

/-- One corner, if the other one is the same. -/
theorem readsRange_corner {r : Range} (wf : r.Normalized) (same : r.first = r.last)
    (next : after.Start Token.EndsTerm) : ReadsRange r r.first.text after after := by
  have corners := Range.ofCorners_of_ordered wf.ordered
  rw [← same] at corners
  refine ⟨?_, Nat.le_refl _, fun sheet position => ?_⟩
  · cases after with
    | done => trivial
    | fault => exact next
    | token => exact .inr next
  · refine bind_eq_ok_iff.2 ⟨r.first, address_text wf.inSheet.1 position, ?_⟩
    split
    · exact next.elim
    · rw [corners]
      rfl

/-- Two corners with a colon between them, the first one above and to the left. -/
theorem readsRange_corners {r : Range} (wf : r.Normalized) (next : after.Start Token.EndsTerm)
    {start' stop' : Nat} :
    ReadsRange r r.first.text
      (.token .colon start stop (.token (.cell r.last.text) start' stop' after)) after := by
  have corners := Range.ofCorners_of_ordered wf.ordered
  refine ⟨.inl rfl, by simp only [Tokens.length]; omega, fun sheet position => ?_⟩
  refine bind_eq_ok_iff.2 ⟨r.first, address_text wf.inSheet.1 position, ?_⟩
  refine bind_eq_ok_iff.2 ⟨_, rfl, bind_eq_ok_iff.2 ⟨after, next.checked, ?_⟩⟩
  refine bind_eq_ok_iff.2 ⟨r.last, address_text wf.inSheet.2 start', ?_⟩
  rw [corners]
  rfl

/-- A range without a sheet. -/
theorem reads_range {r : Range} {corner : String} (cells : ReadsRange r corner ts after) :
    Reads term 1 (.range ⟨none, r⟩) (.token (.cell corner) start stop ts) after := by
  have shorter := cells.shorter
  refine ⟨rfl, by simp only [Tokens.length]; omega, fun fuel enough => ?_⟩
  simp only [Tokens.length] at enough
  obtain ⟨fuel, rfl⟩ : ∃ more, fuel = more + 1 := ⟨fuel - 1, by omega⟩
  refine bind_eq_ok_iff.2 ⟨ts, cells.start.checked, ?_⟩
  split
  · rcases cells.start with colon | next
    · cases colon
    · exact next.elim
  · exact cells.read none start

/-- A range behind the name of its sheet. -/
theorem reads_range_onSheet {r : Range} {sheet corner : String}
    (cells : ReadsRange r corner ts after) {start' stop' : Nat} :
    Reads term 1 (.range ⟨some sheet, r⟩)
      (.token (.sheet sheet) start stop (.token (.cell corner) start' stop' ts)) after := by
  have shorter := cells.shorter
  refine ⟨rfl, by simp only [Tokens.length]; omega, fun fuel enough => ?_⟩
  simp only [Tokens.length] at enough
  obtain ⟨fuel, rfl⟩ : ∃ more, fuel = more + 1 := ⟨fuel - 1, by omega⟩
  refine bind_eq_ok_iff.2 ⟨_, rfl, bind_eq_ok_iff.2 ⟨ts, cells.start.checked, ?_⟩⟩
  exact cells.read (some sheet) start'

/-- An expression of one term ends where a list goes on. -/
theorem reads_last {t : Term} (operand : Reads term 1 t ts after)
    (next : after.Start Token.EndsExpression) : Reads expression 0 (.last t) ts after := by
  refine ⟨operand.ready, operand.shorter, fun fuel enough => ?_⟩
  have shorter := operand.shorter
  obtain ⟨fuel, rfl⟩ : ∃ more, fuel = more + 1 := ⟨fuel - 1, by omega⟩
  refine bind_eq_ok_iff.2 ⟨_, operand.read fuel (by omega), ?_⟩
  dsimp only
  split
  · exact next.elim
  · rfl

/-- A term, an operator, and the expression behind it. -/
theorem reads_link {t : Term} {op : Operator} {e : Expression} {others : Tokens}
    (operand : Reads term 1 t ts (.token (.operator op) start stop others))
    (rest : Reads expression 0 e others after) : Reads expression 0 (.link t op e) ts after := by
  have shorter := operand.shorter
  have shorter' := rest.shorter
  simp only [Tokens.length] at shorter
  refine ⟨operand.ready, by omega, fun fuel enough => ?_⟩
  obtain ⟨fuel, rfl⟩ : ∃ more, fuel = more + 1 := ⟨fuel - 1, by omega⟩
  refine bind_eq_ok_iff.2 ⟨_, operand.read fuel (by simp only [Tokens.length]; omega), ?_⟩
  dsimp only
  refine bind_eq_ok_iff.2 ⟨_, rest.ready, ?_⟩
  rw [rest.read fuel (by omega)]
  rfl

theorem reads_nil (next : after.checked = .ok after) :
    Reads items 0 [] (.token .closeParen start stop after) after := by
  refine ⟨rfl, by simp [Tokens.length], fun fuel enough => ?_⟩
  simp only [Tokens.length] at enough
  obtain ⟨fuel, rfl⟩ : ∃ more, fuel = more + 1 := ⟨fuel - 1, by omega⟩
  refine bind_eq_ok_iff.2 ⟨_, next, rfl⟩

/-- An expression does not start with a closing parenthesis. -/
theorem Reads.ne_closeParen {e : Expression} (h : Reads expression 0 e ts after) (rest : Tokens) :
    ts ≠ .token .closeParen start stop rest := by
  rintro rfl
  have read := h.read (4 * (Tokens.token .closeParen start stop rest).length + 2) (by omega)
  cases read

/-- The last expression of a list, in front of the closing parenthesis. -/
theorem reads_single {e : Expression} {others : Tokens}
    (first : Reads expression 0 e ts (.token .closeParen start stop others))
    (next : others.checked = .ok others) : Reads items 0 [e] ts others := by
  have shorter := first.shorter
  simp only [Tokens.length] at shorter
  refine ⟨first.ready, by omega, fun fuel enough => ?_⟩
  obtain ⟨fuel, rfl⟩ : ∃ more, fuel = more + 1 := ⟨fuel - 1, by omega⟩
  have read := first.read fuel (by simp only [Tokens.length]; omega)
  unfold items
  split
  next => exact absurd rfl (first.ne_closeParen _)
  next => exact bind_eq_ok_iff.2 ⟨_, read, bind_eq_ok_iff.2 ⟨_, next, rfl⟩⟩

/-- An expression, a comma, and the rest of the list, which may be empty. -/
theorem reads_cons {e : Expression} {es : List Expression} {others : Tokens}
    (first : Reads expression 0 e ts (.token .comma start stop others))
    (rest : Reads items 0 es others after) : Reads items 0 (e :: es) ts after := by
  have shorter := first.shorter
  have shorter' := rest.shorter
  simp only [Tokens.length] at shorter
  refine ⟨first.ready, by omega, fun fuel enough => ?_⟩
  obtain ⟨fuel, rfl⟩ : ∃ more, fuel = more + 1 := ⟨fuel - 1, by omega⟩
  have read := first.read fuel (by simp only [Tokens.length]; omega)
  have read' := rest.read fuel (by omega)
  unfold items
  split
  next => exact absurd rfl (first.ne_closeParen _)
  next =>
    refine bind_eq_ok_iff.2 ⟨_, read, bind_eq_ok_iff.2 ⟨_, rest.ready, ?_⟩⟩
    rw [read']
    rfl

end

end Parser

end SheetCompiler
