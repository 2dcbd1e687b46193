import SheetCompiler.Proofs.Formula.Placement

/-!
# Reading goes on

Every reader of the grammar either goes past at least one token or complains about a token at hand,
as long as it has four calls for each token (`Parser.Answers`, `Parser.advances`). With more calls
the answer is the same (`Parser.Settled`). As tokens lie in their text one behind the other, the
readers come to an end on every text, and their complaints are at positions in it.
-/

namespace SheetCompiler

open Fallible

namespace Parser

/-- The complaint of a reader that has no calls left. -/
def ranOut : ParseError := ⟨0, .empty⟩

/-- The complaint is about the tokens, or it comes of too few calls. -/
def Complaint (ts : Tokens) (few : Prop) (e : ParseError) : Prop :=
  ts.Blames e ∨ few ∧ e = ranOut

/-- The answer of a reader that goes past some of the tokens, or complains. -/
def Answers {α : Type} (ts : Tokens) (few : Prop) (x : Except ParseError (α × Tokens)) : Prop :=
  Ends (fun found => ts.Passes found.2) (Complaint ts few) x

section

variable {α : Type} {ts rest : Tokens} {few few' : Prop}

/-- A complaint about what is left is one about all the tokens. -/
theorem Complaint.within {e : ParseError} (h : Complaint rest few' e) (behind : ts.Leaves rest)
    (short : few' → few) : Complaint ts few e :=
  h.imp behind.blames (And.imp_left short)

/-- A reader of what is left answers for all the tokens. -/
theorem Answers.within {x : Except ParseError (α × Tokens)} (h : Answers rest few' x)
    (behind : ts.Leaves rest) (short : few' → few) : Answers ts few x :=
  h.mono (fun _ passes => behind.passes passes) fun _ complaint => complaint.within behind short

/-- Where cutting stopped, the complaint is the fault. -/
theorem ends_checked {good : α → Prop} {f : Tokens → Except ParseError α} (behind : ts.Leaves rest)
    (others : Ends good (Complaint ts few) (f rest)) :
    Ends good (Complaint ts few) (rest.checked >>= f) := by
  cases rest with
  | fault e => exact .inl (behind.blames rfl)
  | done | token => exact others

/-- The token at hand is blamed, or the fault if cutting stopped there. -/
theorem ends_unexpected {good : α → Prop} (wanted : Expectation) (behind : ts.Leaves rest) :
    Ends good (Complaint ts few) (unexpected wanted rest) := by
  cases rest with
  | fault e => exact .inl (behind.blames rfl)
  | done position => exact .inl (behind.blames ⟨rfl, by simp⟩)
  | token first start stop more => exact .inl (behind.blames (.inl ⟨rfl, by simp⟩))

/-- A bad address is a complaint about the token that spells it. -/
theorem ends_address {text : String} {position stop : Nat} {first : Token}
    (here : ts.Leaves (.token first position stop rest)) :
    Ends (fun _ => True) (Complaint ts few) (address text position) := by
  rw [address]
  cases Address.parse text with
  | ok a => trivial
  | error e => exact .inl (here.blames (.inl ⟨rfl, by simp⟩))

/-- Behind the first corner of a range stands nothing of it, or a colon and another corner. -/
theorem answers_range {sheet : Option String} {text : String} {position stop : Nat} {first : Token}
    {more : Tokens} (here : ts.Leaves (.token first position stop more)) (behind : ts.Passes rest) :
    Answers ts few (range sheet text position rest) := by
  unfold range
  refine (ends_address here).bind fun a _ => ?_
  split
  next after =>
    have afterColon : ts.Passes after := behind.trans Tokens.passes_next.leaves
    refine ends_checked afterColon.leaves ?_
    split
    next after' =>
      have afterCell : ts.Passes after' := afterColon.trans Tokens.passes_next.leaves
      refine ends_checked afterCell.leaves ?_
      exact (ends_address afterColon.leaves).bind fun b _ => afterCell
    next => exact ends_unexpected _ afterColon.leaves
  next => exact behind

end

/-! ### One call -/

/-- With so many calls, the readers answer. -/
structure Advances (fuel : Nat) : Prop where
  -- A list starts with an expression and an expression or a sign with a term, on the same tokens:
  -- each needs one call more. Past a token there are four to spare.
  expression : ∀ ts, Answers ts (fuel < 4 * ts.length + 2) (Parser.expression fuel ts)
  term : ∀ ts, Answers ts (fuel < 4 * ts.length + 1) (Parser.term fuel ts)
  signedTerm : ∀ negative stop ts,
    Answers ts (fuel < 4 * ts.length + 2) (Parser.signedTerm fuel negative stop ts)
  items : ∀ ts, Answers ts (fuel < 4 * ts.length + 3) (Parser.items fuel ts)

section

variable {fuel : Nat} (ih : Advances fuel)

include ih

/-- The step: an expression goes past its first term. -/
theorem advances_expression (ts : Tokens) :
    Answers ts (fuel + 1 < 4 * ts.length + 2) (expression (fuel + 1) ts) := by
  unfold expression
  refine ((ih.term ts).within (.none ts) (by omega)).bind ?_
  rintro ⟨t, after⟩ passes
  dsimp only at passes ⊢
  split
  next rest =>
    have shorter := passes.length_lt
    rw [Tokens.length] at shorter
    have behind : ts.Passes rest := passes.trans Tokens.passes_next.leaves
    refine ends_checked behind.leaves ?_
    exact ((ih.expression rest).within behind.leaves (by omega)).bind fun _ passes => passes
  next => exact passes

/-- What is built of the list after an opening parenthesis. -/
theorem answers_list {ts rest : Tokens} {few : Prop} {build : List Expression → Term}
    (behind : ts.Passes rest) (short : fuel < 4 * rest.length + 3 → few) :
    Answers ts few (do
      let (es, ts) ← items fuel (← rest.checked)
      return (build es, ts)) := by
  refine ends_checked behind.leaves ?_
  exact ((ih.items rest).within behind.leaves short).bind fun _ passes => passes

/-- The step: a term goes past the token it starts with, a list in parentheses also past its items.
-/
theorem advances_term (ts : Tokens) :
    Answers ts (fuel + 1 < 4 * ts.length + 1) (term (fuel + 1) ts) := by
  unfold term
  split
  next rest => exact ends_checked (.token (.none rest)) (Tokens.Leaves.none rest)
  next rest => exact ends_checked (.token (.none rest)) (Tokens.Leaves.none rest)
  next rest =>
    -- The token of the sign pays for this call and for those behind it.
    refine (ih.signedTerm true _ rest).within (.token (.none rest)) ?_
    rw [Tokens.length]
    omega
  next rest =>
    refine (ih.signedTerm false _ rest).within (.token (.none rest)) ?_
    rw [Tokens.length]
    omega
  next rest =>
    refine answers_list ih Tokens.passes_next ?_
    rw [Tokens.length]
    omega
  next rest =>
    refine ends_checked (.token (.none rest)) ?_
    split
    next rest =>
      refine ends_checked (.token (.token (.none rest))) ?_
      exact answers_range (.token (.none _)) (Tokens.Leaves.token (.none rest))
    next => exact ends_unexpected _ (.token (.none _))
  next rest =>
    refine ends_checked (.token (.none rest)) ?_
    split
    next rest =>
      refine answers_list ih (Tokens.Leaves.token (.none rest)) ?_
      simp only [Tokens.length]
      omega
    next => exact answers_range (.none _) Tokens.passes_next
  next rest =>
    refine ends_checked (.token (.none rest)) ?_
    split
    next rest =>
      refine answers_list ih (Tokens.Leaves.token (.none rest)) ?_
      simp only [Tokens.length]
      omega
    next => exact Tokens.Leaves.none rest
  next => exact ends_unexpected _ (.none ts)

/-- The step: a sign is followed by a term. -/
theorem advances_signedTerm (negative : Bool) (stop : Nat) (ts : Tokens) :
    Answers ts (fuel + 1 < 4 * ts.length + 2) (signedTerm (fuel + 1) negative stop ts) := by
  have operand := (ih.term ts).within (.none ts) (by omega : _ → fuel + 1 < 4 * ts.length + 2)
  unfold signedTerm
  refine ends_checked (.none ts) ?_
  split
  next rest =>
    split
    · exact ends_checked (.token (.none rest)) (Tokens.Leaves.none rest)
    · exact operand.bind fun _ passes => passes
  next => exact operand.bind fun _ passes => passes

/-- The step: a list goes past its end, or past an expression and then past what is behind it. -/
theorem advances_items (ts : Tokens) :
    Answers ts (fuel + 1 < 4 * ts.length + 3) (items (fuel + 1) ts) := by
  unfold items
  split
  next rest => exact ends_checked (.token (.none rest)) (Tokens.Leaves.none rest)
  next =>
    refine ((ih.expression ts).within (.none ts) (by omega)).bind ?_
    rintro ⟨e, after⟩ passes
    dsimp only at passes ⊢
    split
    next rest =>
      have shorter := passes.length_lt
      rw [Tokens.length] at shorter
      have behind : ts.Passes rest := passes.trans Tokens.passes_next.leaves
      refine ends_checked behind.leaves ?_
      exact ((ih.items rest).within behind.leaves (by omega)).bind fun _ passes => passes
    next rest =>
      have behind : ts.Passes rest := passes.trans Tokens.passes_next.leaves
      exact ends_checked behind.leaves behind
    next => exact ends_unexpected _ passes.leaves

end

/-- The run: by induction on the calls. -/
theorem advances (fuel : Nat) : Advances fuel := by
  induction fuel with
  | zero =>
    constructor
    all_goals
      intros
      exact .inr ⟨by omega, rfl⟩
  | succ fuel ih =>
    exact ⟨advances_expression ih, advances_term ih, advances_signedTerm ih, advances_items ih⟩

/-! ### More calls -/

/-- The first answer comes of too few calls, or it is the second. -/
def Agrees {α : Type} (x y : Except ParseError α) : Prop := x = .error ranOut ∨ x = y

/-- Two computations agree if their steps do. -/
theorem Agrees.bind {α β : Type} {x y : Except ParseError α} {f g : α → Except ParseError β}
    (first : Agrees x y) (others : ∀ a, Agrees (f a) (g a)) : Agrees (x >>= f) (y >>= g) := by
  rcases first with rfl | rfl
  · exact .inl rfl
  · cases x with
    | error e => exact .inr rfl
    | ok a => exact others a

/-- One call more leaves the answers as they are. -/
structure Stable (fuel : Nat) : Prop where
  expression : ∀ ts, Agrees (Parser.expression fuel ts) (Parser.expression (fuel + 1) ts)
  term : ∀ ts, Agrees (Parser.term fuel ts) (Parser.term (fuel + 1) ts)
  signedTerm : ∀ negative stop ts,
    Agrees (Parser.signedTerm fuel negative stop ts) (Parser.signedTerm (fuel + 1) negative stop ts)
  items : ∀ ts, Agrees (Parser.items fuel ts) (Parser.items (fuel + 1) ts)

section

variable {fuel : Nat} (ih : Stable fuel)

include ih

/-- The step: the term and the expression behind it are read as before. -/
theorem stable_expression (ts : Tokens) :
    Agrees (expression (fuel + 1) ts) (expression (fuel + 2) ts) := by
  rw [expression, expression]
  refine (ih.term ts).bind ?_
  rintro ⟨t, after⟩
  dsimp only
  split
  next rest =>
    refine Agrees.bind (.inr rfl) fun rest => ?_
    exact (ih.expression rest).bind fun found => .inr rfl
  next => exact .inr rfl

/-- The list after an opening parenthesis is read as before. -/
theorem stable_list (rest : Tokens) (build : List Expression → Term) :
    Agrees
      (do
        let (es, ts) ← items fuel (← rest.checked)
        return (build es, ts))
      (do
        let (es, ts) ← items (fuel + 1) (← rest.checked)
        return (build es, ts)) :=
  Agrees.bind (.inr rfl) fun rest => (ih.items rest).bind fun _ => .inr rfl

/-- The step: whatever a term is made of is read as before. -/
theorem stable_term (ts : Tokens) : Agrees (term (fuel + 1) ts) (term (fuel + 2) ts) := by
  -- Both sides look at the same tokens, so one split serves for the two.
  unfold term
  split
  next rest => exact .inr rfl
  next rest => exact .inr rfl
  next rest => exact ih.signedTerm true _ rest
  next rest => exact ih.signedTerm false _ rest
  next rest => exact stable_list ih rest .group
  next rest => exact .inr rfl
  next rest =>
    refine Agrees.bind (.inr rfl) fun after => ?_
    split
    next rest => exact stable_list ih rest _
    next => exact .inr rfl
  next rest =>
    refine Agrees.bind (.inr rfl) fun after => ?_
    split
    next rest => exact stable_list ih rest _
    next => exact .inr rfl
  next => exact .inr rfl

theorem stable_signedTerm (negative : Bool) (stop : Nat) (ts : Tokens) :
    Agrees (signedTerm (fuel + 1) negative stop ts) (signedTerm (fuel + 2) negative stop ts) := by
  unfold signedTerm
  refine Agrees.bind (.inr rfl) fun after => ?_
  split
  next rest =>
    split
    · exact .inr rfl
    · exact (ih.term _).bind fun _ => .inr rfl
  next => exact (ih.term _).bind fun _ => .inr rfl

/-- The step: the first expression and the rest of a list are read as before. -/
theorem stable_items (ts : Tokens) : Agrees (items (fuel + 1) ts) (items (fuel + 2) ts) := by
  unfold items
  split
  next rest => exact .inr rfl
  next =>
    refine (ih.expression ts).bind ?_
    rintro ⟨e, after⟩
    dsimp only
    split
    next rest =>
      refine Agrees.bind (.inr rfl) fun rest => ?_
      exact (ih.items rest).bind fun _ => .inr rfl
    next => exact .inr rfl
    next => exact .inr rfl

end

/-- The run: by induction on the calls. -/
theorem stable (fuel : Nat) : Stable fuel := by
  induction fuel with
  | zero =>
    constructor
    all_goals
      intros
      exact .inl rfl
  | succ fuel ih =>
    exact ⟨stable_expression ih, stable_term ih, stable_signedTerm ih, stable_items ih⟩

/-! ### Whole texts -/

/-- A whole text is read expression by expression, or there is a complaint. Each expression goes
past a token, so one call more than there are tokens is enough. -/
theorem ends_expressions (fuel : Nat) (ts : Tokens) :
    Ends (fun _ => True) (Complaint ts (fuel < ts.length + 1)) (expressions fuel ts) := by
  induction fuel generalizing ts with
  | zero => exact .inr ⟨Nat.succ_pos _, rfl⟩
  | succ fuel ih =>
    unfold expressions
    split
    next => trivial
    next =>
      have first : Answers ts (fuel + 1 < ts.length + 1) (expression (fuelFor ts) ts) := by
        refine ((advances (fuelFor ts)).expression ts).within (.none ts) ?_
        rw [fuelFor]
        omega
      refine first.bind ?_
      rintro ⟨e, rest⟩ passes
      have shorter : rest.length < ts.length := Tokens.Passes.length_lt passes
      have others : Ends (fun _ => True) (Complaint ts (fuel + 1 < ts.length + 1))
          (expressions fuel rest) :=
        (ih rest).mono (fun _ => id) fun _ complaint =>
          complaint.within (Tokens.Passes.leaves passes) (by omega)
      exact others.bind fun _ _ => trivial

/-- One call more leaves the reading of a whole text as it is. -/
theorem stable_expressions (fuel : Nat) (ts : Tokens) :
    Agrees (expressions fuel ts) (expressions (fuel + 1) ts) := by
  induction fuel generalizing ts with
  | zero => exact .inl rfl
  | succ fuel ih =>
    unfold expressions
    split
    next => exact .inr rfl
    next => exact Agrees.bind (.inr rfl) fun found => (ih found.2).bind fun _ => .inr rfl

/-- With so many calls or more the answer is one, and not that the calls ran out. -/
def Settled {α : Type} (read : Nat → Except ParseError α) (calls : Nat) : Prop :=
  ∀ fuel, calls ≤ fuel → read fuel = read calls ∧ ∀ e, read fuel = .error e → e.cause ≠ .empty

section

variable {α : Type} {read : Nat → Except ParseError α} {calls more : Nat}

/-- What is settled with some calls is settled with more. -/
theorem Settled.mono (settled : Settled read calls) (le : calls ≤ more) : Settled read more := by
  intro fuel enough
  obtain ⟨same, cause⟩ := settled fuel (Nat.le_trans le enough)
  exact ⟨same.trans (settled more le).1.symm, cause⟩

/-- A reader is settled if one call more changes nothing and all its complaints are about tokens:
those are never complaints about a blank text. -/
theorem settled_of_placed {total : Nat} {cs : List Char} {ts : Tokens} {good : α → Prop}
    (placed : Placed total cs ts) (stable : ∀ fuel, Agrees (read fuel) (read (fuel + 1)))
    (ends : ∀ fuel, Ends good (Complaint ts (fuel < calls)) (read fuel)) : Settled read calls := by
  have full : ∀ fuel, calls ≤ fuel → ∀ e, read fuel = .error e → e.cause ≠ .empty := by
    intro fuel enough e failed
    rcases (ends fuel).of_error failed with blamed | ⟨few, -⟩
    · exact (placed.faultIn_of_blames blamed).cause
    · omega
  intro fuel enough
  refine ⟨?_, full fuel enough⟩
  induction fuel, enough using Nat.le_induction with
  | base => rfl
  | succ fuel enough ih =>
    rcases stable fuel with few | same
    · exact absurd rfl (full fuel enough _ few)
    · exact same.symm.trans ih

end

/-- All readers are settled with four calls for each token. -/
theorem settled_readers {total : Nat} {cs : List Char} {ts : Tokens} (placed : Placed total cs ts) :
    Settled (term · ts) (fuelFor ts) ∧ Settled (expression · ts) (fuelFor ts) ∧
      Settled (items · ts) (fuelFor ts) ∧ Settled (expressions · ts) (ts.length + 1) := by
  have term : Settled (term · ts) (4 * ts.length + 1) :=
    settled_of_placed placed (fun fuel => (stable fuel).term ts) fun fuel => (advances fuel).term ts
  have expression : Settled (expression · ts) (4 * ts.length + 2) :=
    settled_of_placed placed (fun fuel => (stable fuel).expression ts)
      fun fuel => (advances fuel).expression ts
  have items : Settled (items · ts) (4 * ts.length + 3) :=
    settled_of_placed placed (fun fuel => (stable fuel).items ts)
      fun fuel => (advances fuel).items ts
  refine ⟨term.mono ?_, expression.mono ?_, items.mono ?_, ?_⟩
  iterate 3
    rw [fuelFor]
    omega
  exact settled_of_placed placed (stable_expressions · ts) (ends_expressions · ts)

/-- What is read starts in front of what is left. -/
theorem position_lt_of_answers {α : Type} {total : Nat} {cs : List Char} {ts rest : Tokens} {a : α}
    {few : Prop} {x : Except ParseError (α × Tokens)} (placed : Placed total cs ts)
    (inside : Text.byteSize cs ≤ total) (answers : Answers ts few x) (read : x = .ok (a, rest)) :
    ts.Leaves rest ∧ ts.position < rest.position := by
  have passes : ts.Passes rest := answers.of_ok read
  exact ⟨passes.leaves, placed.position_lt_of_passes inside passes⟩

end Parser

namespace Formula

open Text (Blanks)

/-- Only a blank text is empty; all other faults are inside the text. -/
theorem ends_ofPayload (cs : List Char) :
    Ends (fun _ => True)
      (fun e => Scan.FaultIn (Text.byteSize cs) cs e ∨ Blanks cs ∧ e = Parser.ranOut)
      (ofPayload cs) := by
  have placed := placed_scan cs
  unfold ofPayload
  generalize Tokens.scan cs = ts at placed ⊢
  cases ts with
  | done position =>
    cases placed with
    | done blank => exact .inr ⟨blank, rfl⟩
  | fault found => exact .inl (placed.faultIn_of_blames rfl)
  | token first start stop rest =>
    let ts := Tokens.token first start stop rest
    have all := Parser.ends_expressions (ts.length + 1) ts
    change Ends _ _ (Parser.expressions (ts.length + 1) ts >>= fun es => pure (Formula.mk es))
    refine (all.mono (fun _ => id) ?_).bind fun _ _ => trivial
    rintro e (blamed | ⟨few, -⟩)
    · exact .inl (placed.faultIn_of_blames blamed)
    · omega

variable {s : String} {e : ParseError}

/-- The position of a complaint is one in the text. -/
theorem isValid_of_ofPayload (h : ofPayload s.toList = .error e) :
    (⟨e.position⟩ : String.Pos.Raw).IsValid s := by
  rcases (ends_ofPayload s.toList).of_error h with fault | ⟨-, rfl⟩
  · exact fault.isValid
  · exact Text.isValid_iff.2 ⟨[], s.toList, rfl, rfl⟩

/-- Only a blank text is said to be empty. -/
theorem cause_eq_empty_iff (h : ofPayload s.toList = .error e) :
    e.cause = .empty ↔ Blanks s.toList := by
  constructor
  · intro empty
    rcases (ends_ofPayload s.toList).of_error h with fault | ⟨blank, -⟩
    · exact absurd empty fault.cause
    · exact blank
  · intro blank
    rw [ofPayload, (Cut.scan s.toList).done blank] at h
    cases h
    rfl

/-- **Reading goes on.** The tokens of a text lie in it one behind the other. A complaint about the
text is at a position in it, between two characters or at an end, and only a blank text is empty.
Wherever a term or an expression is read, the token behind it starts further on. With four calls for
each token, the readers of terms, expressions, lists and whole texts come to an end: they never run
out of calls, and with more of them the answer is the same. -/
theorem reading_advances (s : String) :
    Placed s.utf8ByteSize s.toList (Tokens.scan s.toList) ∧
    (∀ e, parseExpressions s = .error e → ∃ found : ParseError, e = .parse found ∧
      found.position ≤ s.utf8ByteSize ∧ (⟨found.position⟩ : String.Pos.Raw).IsValid s ∧
      (found.cause = .empty ↔ Blanks s.toList)) ∧
    ∀ ts, (Tokens.scan s.toList).Leaves ts →
      (∀ fuel t rest, Parser.term fuel ts = .ok (t, rest) →
        ts.Leaves rest ∧ ts.position < rest.position) ∧
      (∀ fuel e rest, Parser.expression fuel ts = .ok (e, rest) →
        ts.Leaves rest ∧ ts.position < rest.position) ∧
      Parser.Settled (Parser.term · ts) (Parser.fuelFor ts) ∧
      Parser.Settled (Parser.expression · ts) (Parser.fuelFor ts) ∧
      Parser.Settled (Parser.items · ts) (Parser.fuelFor ts) ∧
      Parser.Settled (Parser.expressions · ts) (ts.length + 1) := by
  have scanned := placed_scan s.toList
  refine ⟨Text.byteSize_toList s ▸ scanned, ?_, ?_⟩
  · intro e refused
    obtain ⟨found, failed, rfl⟩ := mapError_eq_error_iff.1 refused
    have valid := isValid_of_ofPayload failed
    exact ⟨found, rfl, valid.le_rawEndPos, valid, cause_eq_empty_iff failed⟩
  · intro ts reached
    obtain ⟨behind, suffix, placed⟩ := scanned.leaves reached
    have inside := Text.byteSize_le_of_suffix suffix
    refine ⟨?_, ?_, Parser.settled_readers placed⟩
    · intro fuel t rest read
      exact Parser.position_lt_of_answers placed inside ((Parser.advances fuel).term ts) read
    · intro fuel e rest read
      exact Parser.position_lt_of_answers placed inside ((Parser.advances fuel).expression ts) read

/-- A list without its comma, behind a letter of two bytes. -/
def unseparated : String := "\"π\"&MAX(1 2"

/-- The complaint is at the second number, and the first one starts in front of it. -/
theorem reading_advances_unseparated :
    (∃ found : ParseError, parseExpressions unseparated = .error (.parse found) ∧
      found = ⟨11, .unexpected .separator (some (.number "2" false))⟩ ∧
      (⟨11⟩ : String.Pos.Raw).IsValid unseparated ∧ ¬Blanks unseparated.toList) ∧
    ∃ ts behindTerm behindExpression : Tokens, (Tokens.scan unseparated.toList).Leaves ts ∧
      Parser.term 2 ts = .ok (.number "1" false, behindTerm) ∧
      Parser.expression 3 ts = .ok (.last (.number "1" false), behindExpression) ∧
      ts.position = 9 ∧ behindTerm.position = 11 ∧
      ts.position < behindTerm.position ∧ ts.position < behindExpression.position := by
  have tokens : Tokens.scan unseparated.toList =
      .token (.text "π") 0 4 (.token (.operator .concat) 4 5 (.token (.name "MAX") 5 8
        (.token .openParen 8 9 (.token (.number "1" false) 9 10
          (.token (.number "2" false) 11 12 (.done 12)))))) := by decide +kernel
  have refused : parseExpressions unseparated =
      .error (.parse ⟨11, .unexpected .separator (some (.number "2" false))⟩) := by
    rw [parseExpressions, ofPayload, tokens]
    rfl
  obtain ⟨-, errors, advancing⟩ := reading_advances unseparated
  constructor
  · obtain ⟨found, eq, -, valid, blank⟩ := errors _ refused
    cases eq
    exact ⟨_, refused, rfl, valid, fun h => absurd (blank.2 h) (by decide)⟩
  · let ts := Tokens.token (.number "1" false) 9 10 (.token (.number "2" false) 11 12 (.done 12))
    have reached : (Tokens.scan unseparated.toList).Leaves ts := by
      rw [tokens]
      exact .token (.token (.token (.token (.none ts))))
    obtain ⟨term, expression, -⟩ := advancing ts reached
    exact ⟨ts, _, _, reached, rfl, rfl, rfl, rfl, (term 2 _ _ rfl).2, (expression 3 _ _ rfl).2⟩

end Formula

end SheetCompiler
