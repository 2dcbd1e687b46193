import SheetCompiler.Proofs.Formula.Tracing
import SheetCompiler.Proofs.Text.Boundaries

/-!
# Where tokens stand

A token takes at least one character, and what it leaves is the end of what it was cut from; a fault
is where such an end is left too (`Scan.Cuts`, `Scan.cuts_takeToken`). So the tokens of a text lie
in it one behind the other, with only blanks between them and after the last one (`Placed`,
`placed_scan`). Hence a complaint about one of them is at a position between characters of the text
(`Placed.faultIn_of_blames`, `Scan.FaultIn.isValid`), and the later tokens start behind the earlier
ones (`Placed.position_lt`).
-/

namespace SheetCompiler

open Fallible
open Text (Blanks)

/-! ### What a token leaves -/

namespace Scan

variable {total : Nat} {c : Char} {cs rest : List Char} {token : Token}

/-- What is behind the closing quote is left. -/
theorem takeQuoted_suffix {quote : Char} {word : List Char}
    (h : takeQuoted quote cs = some (word, rest)) : rest <:+ cs := by
  rw [takeQuoted_inv h]
  exact (List.suffix_cons quote rest).trans (List.suffix_append _ _)

theorem takeFraction_suffix (cs : List Char) : (takeFraction cs).2 <:+ cs := by
  unfold takeFraction
  split
  · exact (List.dropWhile_suffix _).trans (List.suffix_cons _ _)
  · exact List.suffix_rfl

/-- Of an exponent that is none, all is left. -/
theorem takeExponent_suffix (cs : List Char) : (takeExponent cs).2 <:+ cs := by
  have behind : ∀ (e : Char) (digits : List Char), (takeDigits digits).2 <:+ e :: digits :=
    fun e digits => (List.dropWhile_suffix _).trans (List.suffix_cons e digits)
  unfold takeExponent
  split
  next e rest =>
    split
    next =>
      split
      next s d others =>
        split
        next => exact (behind s (d :: others)).trans (List.suffix_cons e _)
        next =>
          split
          next => exact behind e (s :: d :: others)
          next => exact List.suffix_rfl
      next => split <;> simp
      next => exact List.suffix_rfl
    next => exact List.suffix_rfl
  next => exact List.suffix_rfl

/-- A number takes its first digit at least. -/
theorem takeNumber_suffix (digit : c.isDigit) (cs : List Char) :
    (takeNumber (c :: cs)).2 <:+ cs := by
  have whole : (takeDigits (c :: cs)).2 <:+ cs := by
    rw [takeDigits, List.dropWhile_cons_of_pos digit]
    exact List.dropWhile_suffix _
  have numeral := (takeExponent_suffix _).trans ((takeFraction_suffix _).trans whole)
  unfold takeNumber
  dsimp only
  split
  next after eq =>
    rw [eq] at numeral
    exact (List.suffix_cons '%' after).trans numeral
  next => exact numeral

/-- An operator takes one character or two. -/
theorem takeSymbol_suffix (h : takeSymbol (c :: cs) = some (token, rest)) : rest <:+ cs := by
  unfold takeSymbol at h
  split at h
  case h_17 => cases h
  all_goals
    rename_i eq
    cases h
    cases eq
    simp

/-- The fault is where some end of the text is left, and it is not that the text is empty. -/
structure FaultIn (total : Nat) (cs : List Char) (e : ParseError) : Prop where
  position : ∃ rest, rest <:+ cs ∧ e.position = offset total rest
  cause : e.cause ≠ .empty

/-- A fault in the end of a text is one in the text. -/
theorem FaultIn.of_suffix {e : ParseError} (fault : FaultIn total rest e) (behind : rest <:+ cs) :
    FaultIn total cs e := by
  obtain ⟨⟨left, suffix, position⟩, cause⟩ := fault
  exact ⟨⟨left, suffix.trans behind, position⟩, cause⟩

theorem faultIn_here (cs : List Char) {cause : ParseCause} (solid : cause ≠ .empty) :
    FaultIn total cs ⟨offset total cs, cause⟩ :=
  ⟨⟨cs, List.suffix_rfl, rfl⟩, solid⟩

/-- Cutting takes at least the first character, or stops at a fault in the text. -/
def Cuts (total : Nat) (c : Char) (cs : List Char) (x : Except ParseError (Token × List Char)) :
    Prop :=
  Ends (fun found => found.2 <:+ cs) (FaultIn total (c :: cs)) x

/-- A text takes its quote; one that is not closed is a fault where it starts. -/
theorem cuts_takeText (total : Nat) (c : Char) (cs : List Char) :
    Cuts total c cs (takeText total (c :: cs)) := by
  unfold takeText
  split
  next => exact faultIn_here _ (by simp)
  next found => exact takeQuoted_suffix found

/-- A quoted sheet name takes its quote, or there is a fault where it starts or behind it. -/
theorem cuts_takeSheet (total : Nat) (c : Char) (cs : List Char) :
    Cuts total c cs (takeSheet total (c :: cs)) := by
  unfold takeSheet
  split
  next => exact faultIn_here _ (by simp)
  next => exact faultIn_here _ (by simp)
  next rest _ found => exact (List.suffix_cons '!' rest).trans (takeQuoted_suffix found)
  next rest _ _ found =>
    have behind := (takeQuoted_suffix found).trans (List.suffix_cons c cs)
    exact (faultIn_here rest (by simp)).of_suffix behind

/-- A word takes all its characters, or is the fault. -/
theorem cuts_takeWord (total : Nat) (first : isWordChar c) (cs : List Char) :
    Cuts total c cs (takeWord total (c :: cs)) := by
  have behind : (c :: cs).dropWhile isWordChar <:+ cs := by
    rw [List.dropWhile_cons_of_pos first]
    exact List.dropWhile_suffix _
  unfold takeWord
  dsimp only
  split
  next after eq =>
    rw [eq] at behind
    split
    · exact (List.suffix_cons '!' after).trans behind
    · exact faultIn_here _ (by simp)
  next =>
    split
    · exact behind
    · split
      · exact faultIn_here _ (by simp)
      · exact behind

theorem isWordChar_of_start (start : c.isAlpha || c == '_' || c == '$') : isWordChar c := by
  simp only [Bool.or_eq_true] at start
  simp only [isWordChar, Char.isAlphanum, Bool.or_eq_true]
  tauto

/-- Whatever comes first is cut off, or there is a fault. -/
theorem cuts_takeToken (total : Nat) (c : Char) (cs : List Char) :
    Cuts total c cs (takeToken total c cs) := by
  unfold takeToken
  split
  next found => exact takeSymbol_suffix found
  next =>
    split
    · exact cuts_takeText total c cs
    · split
      · exact cuts_takeSheet total c cs
      · split
        next digit => exact takeNumber_suffix digit cs
        next =>
          split
          next start => exact cuts_takeWord total (isWordChar_of_start start) cs
          next => exact faultIn_here _ (by simp)

end Scan

/-! ### Tokens in their text -/

/-- The tokens lie in the text one behind the other, with blanks between them, up to its end or to a
fault. -/
inductive Placed (total : Nat) : List Char → Tokens → Prop
  | done {gap : List Char} (blank : Blanks gap) : Placed total gap (.done total)
  | fault {cs : List Char} {e : ParseError} (inside : Scan.FaultIn total cs e) :
    Placed total cs (.fault e)
  | token {gap cs rest : List Char} {c : Char} {first : Token} {ts : Tokens} (blank : Blanks gap)
    (taken : rest <:+ cs) (next : Placed total rest ts) :
    Placed total (gap ++ c :: cs)
      (.token first (Scan.offset total (c :: cs)) (Scan.offset total rest) ts)

/-- The tokens are placed, by induction on the fuel: what a token leaves is shorter. -/
theorem placed_tokensOf {total fuel : Nat} {cs : List Char} (enough : cs.length < fuel) :
    Placed total cs (Scan.tokensOf total fuel cs) := by
  induction fuel generalizing cs with
  | zero => omega
  | succ fuel ih =>
    have whole : cs = cs.takeWhile Text.isBlank ++ Text.trimLeft cs :=
      List.takeWhile_append_dropWhile.symm
    have blank : Blanks (cs.takeWhile Text.isBlank) := fun c mem => List.mem_takeWhile_imp mem
    unfold Scan.tokensOf
    split
    next trimmed => exact .done (List.dropWhile_eq_nil_iff.1 trimmed)
    next c more trimmed =>
      rw [trimmed] at whole
      split
      next e failed =>
        have fault := (Scan.cuts_takeToken total c more).of_error failed
        refine .fault (fault.of_suffix ?_)
        rw [← trimmed]
        exact List.dropWhile_suffix _
      next token rest taken =>
        have behind : rest <:+ more := (Scan.cuts_takeToken total c more).of_ok taken
        have shorter := behind.length_le
        have size := congrArg List.length whole
        rw [List.length_append, List.length_cons] at size
        have first : Placed total (cs.takeWhile Text.isBlank ++ c :: more)
            (.token token (Scan.offset total (c :: more)) (Scan.offset total rest)
              (Scan.tokensOf total fuel rest)) := .token blank behind (ih (by omega))
        rwa [← whole] at first

/-- The tokens of a text are placed in it. -/
theorem placed_scan (cs : List Char) : Placed (Text.byteSize cs) cs (Tokens.scan cs) :=
  placed_tokensOf (Nat.lt_succ_self _)

namespace Tokens

/-- Where the first token starts, or the end of the text. -/
def position : Tokens → Nat
  | done position => position
  | fault e => e.position
  | token _ start _ _ => start

/-- The complaint is about one of the tokens or the end of the text, or it is the fault. -/
def Blames : Tokens → ParseError → Prop
  | done position, e => e.position = position ∧ e.cause ≠ .empty
  | fault found, e => e = found
  | token _ start _ rest, e => e.position = start ∧ e.cause ≠ .empty ∨ rest.Blames e

/-- Some of the first tokens can be taken off, or none, to leave these. -/
inductive Leaves : Tokens → Tokens → Prop
  | none (ts : Tokens) : Leaves ts ts
  | token {first : Token} {start stop : Nat} {ts rest : Tokens} (others : Leaves ts rest) :
    Leaves (.token first start stop ts) rest

/-- The first token is taken off, and maybe others, to leave these. -/
def Passes : Tokens → Tokens → Prop
  | token _ _ _ more, rest => more.Leaves rest
  | _, _ => False

section

variable {ts more rest : Tokens}

theorem Leaves.trans (h : ts.Leaves more) (h' : more.Leaves rest) : ts.Leaves rest := by
  induction h with
  | none => exact h'
  | token others ih => exact .token (ih h')

/-- Taking tokens off leaves no more of them. -/
theorem Leaves.length_le (h : ts.Leaves rest) : rest.length ≤ ts.length := by
  induction h with
  | none => exact Nat.le_refl _
  | token others ih => exact Nat.le_succ_of_le ih

/-- A complaint about what is left is one about all the tokens. -/
theorem Leaves.blames (h : ts.Leaves rest) {e : ParseError} (blamed : rest.Blames e) :
    ts.Blames e := by
  induction h with
  | none => exact blamed
  | token others ih => exact .inr (ih blamed)

theorem passes_next {first : Token} {start stop : Nat} :
    (token first start stop rest).Passes rest :=
  Leaves.none rest

theorem Passes.leaves (h : ts.Passes rest) : ts.Leaves rest := by
  cases ts with
  | token => exact .token h
  | done | fault => cases h

theorem Passes.trans (h : ts.Passes more) (h' : more.Leaves rest) : ts.Passes rest := by
  cases ts with
  | token => exact Leaves.trans h h'
  | done | fault => cases h

theorem Leaves.passes (h : ts.Leaves more) (h' : more.Passes rest) : ts.Passes rest := by
  cases h with
  | none => exact h'
  | token others => exact others.trans h'.leaves

/-- Going past a token leaves fewer of them. -/
theorem Passes.length_lt (h : ts.Passes rest) : rest.length < ts.length := by
  cases ts with
  | token => exact Nat.lt_succ_of_le (Leaves.length_le h)
  | done | fault => cases h

end

end Tokens

namespace Placed

variable {total : Nat} {cs : List Char} {ts rest : Tokens}

/-- The first token does not start before the text that it was cut from. -/
theorem offset_le_position (placed : Placed total cs ts) : Scan.offset total cs ≤ ts.position := by
  cases placed with
  | done => exact Nat.sub_le _ _
  | fault inside =>
    obtain ⟨rest, ⟨before, rfl⟩, position⟩ := inside.position
    simp only [Tokens.position, position, Scan.offset, Text.byteSize_append]
    omega
  | token blank taken next =>
    simp only [Tokens.position, Scan.offset, Text.byteSize_append]
    omega

/-- A token starts in front of everything behind it. -/
theorem position_lt {first : Token} {start stop : Nat} (inside : Text.byteSize cs ≤ total)
    (placed : Placed total cs (.token first start stop ts)) : start < ts.position := by
  cases placed with
  | @token gap cs rest c first _ blank taken next =>
    have later := next.offset_le_position
    obtain ⟨word, rfl⟩ := taken
    have positive := c.utf8Size_pos
    simp only [Text.byteSize_append, Text.byteSize_cons] at inside
    simp only [Scan.offset, Text.byteSize_append, Text.byteSize_cons] at later ⊢
    omega

/-- What is left of the tokens lies in what is left of the text. -/
theorem leaves (placed : Placed total cs ts) (h : ts.Leaves rest) :
    ∃ behind, behind <:+ cs ∧ Placed total behind rest := by
  induction h generalizing cs with
  | none => exact ⟨cs, List.suffix_rfl, placed⟩
  | token others ih =>
    cases placed with
    | @token gap cs rest c _ _ blank taken next =>
      obtain ⟨behind, suffix, placed⟩ := ih next
      refine ⟨behind, suffix.trans (taken.trans ?_), placed⟩
      exact (List.suffix_cons c cs).trans (List.suffix_append gap _)

/-- What is left starts no earlier. -/
theorem position_le_of_leaves (inside : Text.byteSize cs ≤ total) (placed : Placed total cs ts)
    (h : ts.Leaves rest) : ts.position ≤ rest.position := by
  induction h generalizing cs with
  | none => exact Nat.le_refl _
  | @token first start stop ts rest others ih =>
    obtain ⟨behind, suffix, next⟩ := placed.leaves Tokens.passes_next.leaves
    have fits := Nat.le_trans (Text.byteSize_le_of_suffix suffix) inside
    have later := ih fits next
    exact Nat.le_trans (Nat.le_of_lt (placed.position_lt inside)) later

/-- Behind a token, what is left starts later. -/
theorem position_lt_of_passes (inside : Text.byteSize cs ≤ total) (placed : Placed total cs ts)
    (h : ts.Passes rest) : ts.position < rest.position := by
  cases ts with
  | token first start stop more =>
    obtain ⟨behind, suffix, next⟩ := placed.leaves Tokens.passes_next.leaves
    have fits := Nat.le_trans (Text.byteSize_le_of_suffix suffix) inside
    have others := next.position_le_of_leaves fits h
    exact Nat.lt_of_lt_of_le (placed.position_lt inside) others
  | done | fault => cases h

/-- A complaint about the tokens is a fault in their text. -/
theorem faultIn_of_blames (placed : Placed total cs ts) {e : ParseError} (blamed : ts.Blames e) :
    Scan.FaultIn total cs e := by
  induction placed with
  | @done gap blank =>
    obtain ⟨position, cause⟩ := blamed
    exact ⟨⟨[], List.nil_suffix, position⟩, cause⟩
  | fault inside =>
    obtain rfl := blamed
    exact inside
  | @token gap cs rest c _ _ blank taken next ih =>
    rcases blamed with ⟨position, cause⟩ | behind
    · exact ⟨⟨c :: cs, List.suffix_append gap _, position⟩, cause⟩
    · refine (ih behind).of_suffix (taken.trans ?_)
      exact (List.suffix_cons c cs).trans (List.suffix_append gap _)

end Placed

/-- Such a fault is between two characters of the text or at an end. -/
theorem Scan.FaultIn.isValid {s : String} {e : ParseError}
    (fault : FaultIn (Text.byteSize s.toList) s.toList e) :
    (⟨e.position⟩ : String.Pos.Raw).IsValid s := by
  obtain ⟨rest, ⟨before, text⟩, position⟩ := fault.position
  refine Text.isValid_iff.2 ⟨before, rest, text.symm, ?_⟩
  rw [position, offset, ← text, Text.byteSize_append, Nat.add_sub_cancel_right]

end SheetCompiler
