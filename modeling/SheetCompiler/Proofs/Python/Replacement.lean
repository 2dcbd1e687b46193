import Mathlib.Data.List.Infix
import SheetCompiler.Proofs.Grid.RoundTrip
import SheetCompiler.Python.Inputs

/-!
# Replacing a token

What `replaceToken` does to a text that is cut at a character which neither the token nor a name
can hold: it replaces the token on both sides, each side as if it stood alone
(`replaceToken_append_break`, and `replaceToken_append_sign` for punctuation). A text that the token
does not stand in stays as it is.
-/

namespace SheetCompiler

namespace Text

variable {c : Char} {part left right : List Char}

/-- What starts a text without holding the character `c` ends before it. -/
theorem prefix_left (outside : c ∉ part) (h : part <+: left ++ c :: right) : part <+: left := by
  rcases List.prefix_or_prefix_of_prefix h (List.prefix_append left (c :: right)) with
    within | ⟨more, rfl⟩
  · exact within
  · have beyond := (List.prefix_append_right_inj left).1 h
    cases more with
    | nil => simp
    | cons d more =>
      obtain ⟨rfl, -⟩ := List.cons_prefix_cons.1 beyond
      simp at outside

/-- What stands in a text without holding the character `c` stands on one side of it. -/
theorem infix_left_or_right (outside : c ∉ part) (h : part <:+: left ++ c :: right) :
    part <:+: left ∨ part <:+: right := by
  induction left with
  | nil =>
    rcases List.infix_cons_iff.1 h with starts | later
    · have within : part <+: [] := prefix_left outside starts
      exact .inl within.isInfix
    · exact .inr later
  | cons d left ih =>
    rcases List.infix_cons_iff.1 h with starts | later
    · have within : part <+: d :: left := prefix_left outside starts
      exact .inl within.isInfix
    · exact (ih later).imp_left fun h => List.infix_cons_iff.2 (.inr h)

end Text

namespace Python

/-- Punctuation between the names and literals of an expression. -/
def isSign (c : Char) : Bool :=
  ['(', ')', ',', ' ', '+', '-', '*', '/', '<', '>', '='].contains c

theorem isWord_of_isSign {c : Char} (h : isSign c) : Text.isWord c = false := by
  simp only [isSign, List.contains_eq_mem, decide_eq_true_eq, List.mem_cons, List.not_mem_nil,
    or_false] at h
  rcases h with rfl | rfl | rfl | rfl | rfl | rfl | rfl | rfl | rfl | rfl | rfl <;> decide

theorem isAttributeChar_of_isSign {c : Char} (h : isSign c) : isAttributeChar c = false := by
  simp only [isSign, List.contains_eq_mem, decide_eq_true_eq, List.mem_cons, List.not_mem_nil,
    or_false] at h
  rcases h with rfl | rfl | rfl | rfl | rfl | rfl | rfl | rfl | rfl | rfl | rfl <;> decide

/-- A character that neither a word nor a name goes on with. -/
structure Breaks (c : Char) : Prop where
  endsWord : Text.isWord c = false
  endsName : isAttributeChar c = false

theorem breaks_of_isSign {c : Char} (h : isSign c) : Breaks c :=
  ⟨isWord_of_isSign h, isAttributeChar_of_isSign h⟩

/-- No punctuation stands in the text. -/
def Unbroken (cs : List Char) : Prop := ∀ c ∈ cs, isSign c = false

theorem Unbroken.notMem {cs : List Char} (unbroken : Unbroken cs) {c : Char} (sign : isSign c) :
    c ∉ cs :=
  fun mem => by simp [unbroken c mem] at sign

theorem isSign_of_isIdentifierChar {c : Char} (h : Text.isIdentifierChar c) : isSign c = false := by
  cases sign : isSign c with
  | false => rfl
  | true =>
    have outside := isAttributeChar_of_isSign sign
    rw [isAttributeChar, h] at outside
    exact outside

section

variable {token replacement : List Char} {before : Option Char}

/-! ### One step -/

theorem tokenAt_nil (nonempty : token ≠ []) : tokenAt token before [] = false := by
  obtain ⟨x, xs, rfl⟩ := List.exists_cons_of_ne_nil nonempty
  simp [tokenAt]

theorem replaceToken_nil (nonempty : token ≠ []) :
    replaceToken token replacement before [] = [] := by
  rw [replaceToken]
  simp [tokenAt_nil nonempty]

/-- Where the token does not match, a character is passed over. -/
theorem replaceToken_of_not_match {c : Char} {cs : List Char}
    (h : tokenAt token before (c :: cs) = false) :
    replaceToken token replacement before (c :: cs) =
      c :: replaceToken token replacement (some c) cs := by
  rw [replaceToken]
  simp [h]

/-- Where the token matches, its replacement is written and the text behind it is next. -/
theorem replaceToken_of_match (nonempty : token ≠ []) {cs : List Char}
    (h : tokenAt token before cs) :
    replaceToken token replacement before cs = replacementAt token replacement before ++
      replaceToken token replacement token.getLast? (cs.drop token.length) := by
  obtain ⟨x, xs, rfl⟩ := List.exists_cons_of_ne_nil nonempty
  cases cs with
  | nil => simp [tokenAt] at h
  | cons c cs =>
    rw [replaceToken]
    simp only [h, if_true]

/-- A match needs only the text from it on, since the token itself stands before its end. -/
theorem tokenAt_congr (nonempty : token ≠ []) (other : Option Char) (cs : List Char) :
    tokenAt token before cs = tokenAt token other cs := by
  obtain ⟨x, xs, rfl⟩ := List.exists_cons_of_ne_nil nonempty
  simp [tokenAt, List.getLast?_cons]

theorem exists_append_of_tokenAt {cs : List Char} (h : tokenAt token before cs) :
    ∃ rest, cs = token ++ rest := by
  simp only [tokenAt, Bool.and_eq_true, List.isPrefixOf_iff_prefix] at h
  obtain ⟨rest, rfl⟩ := h.1
  exact ⟨rest, rfl⟩

/-- Induction along the matches of a token: a text is empty, or starts with a match, or with a
character that is passed over. -/
@[elab_as_elim]
theorem match_induction {motive : Option Char → List Char → Prop} (nonempty : token ≠ [])
    (nil : ∀ before, motive before [])
    (matched : ∀ before rest, tokenAt token before (token ++ rest) → motive token.getLast? rest →
      motive before (token ++ rest))
    (passed : ∀ before c cs, tokenAt token before (c :: cs) = false → motive (some c) cs →
      motive before (c :: cs))
    (before : Option Char) (cs : List Char) : motive before cs := by
  cases found : tokenAt token before cs with
  | true =>
    obtain ⟨rest, eq⟩ := exists_append_of_tokenAt found
    have shorter : rest.length < cs.length := by
      have := List.length_pos_of_ne_nil nonempty
      rw [eq, List.length_append]
      omega
    have later := match_induction nonempty nil matched passed token.getLast? rest
    rw [eq] at found ⊢
    exact matched before rest found later
  | false =>
    cases cs with
    | nil => exact nil before
    | cons c cs =>
      have later := match_induction nonempty nil matched passed (some c) cs
      exact passed before c cs found later
termination_by cs.length
decreasing_by
  · exact Nat.lt_succ_self _
  · exact shorter

/-- A break in front of a text counts for nothing, like the start of a text. -/
theorem replaceToken_after_break (nonempty : token ≠ []) {c : Char} (breaks : Breaks c)
    (cs : List Char) :
    replaceToken token replacement (some c) cs = replaceToken token replacement none cs := by
  cases cs with
  | nil => rw [replaceToken_nil nonempty, replaceToken_nil nonempty]
  | cons d cs =>
    have same : tokenAt token (some c) (d :: cs) = tokenAt token none (d :: cs) :=
      tokenAt_congr nonempty none (d :: cs)
    cases found : tokenAt token none (d :: cs) with
    | false => rw [replaceToken_of_not_match (same.trans found), replaceToken_of_not_match found]
    | true =>
      rw [replaceToken_of_match nonempty (same.trans found), replaceToken_of_match nonempty found]
      simp [replacementAt, breaks.endsName]

theorem replaceToken_after_sign (nonempty : token ≠ []) {c : Char} (sign : isSign c)
    (cs : List Char) :
    replaceToken token replacement (some c) cs = replaceToken token replacement none cs :=
  replaceToken_after_break nonempty (breaks_of_isSign sign) cs

/-! ### Whole texts -/

/-- A match ends before a break, or would have to hold it. -/
theorem tokenAt_append_break {c : Char} (outside : c ∉ token) (breaks : Breaks c)
    (left right : List Char) :
    tokenAt token before (left ++ c :: right) = tokenAt token before left := by
  have starts : token.isPrefixOf (left ++ c :: right) = token.isPrefixOf left := by
    rw [Bool.eq_iff_iff, List.isPrefixOf_iff_prefix, List.isPrefixOf_iff_prefix]
    exact ⟨Text.prefix_left outside, fun h => h.trans (List.prefix_append _ _)⟩
  cases found : token.isPrefixOf left with
  | false => simp [tokenAt, starts, found]
  | true =>
    obtain ⟨rest, rfl⟩ := List.isPrefixOf_iff_prefix.1 found
    have next : ((token ++ rest ++ c :: right).drop token.length).head? =
        some (rest.head?.getD c) := by
      cases rest <;> simp
    have ends : Text.isBoundary (token.getLast? <|> before) (some (rest.head?.getD c)) =
        Text.isBoundary (token.getLast? <|> before) rest.head? := by
      cases rest with
      | nil => simp [Text.isBoundary, breaks.endsWord]
      | cons d rest => simp
    simp only [tokenAt, starts, next, ends, List.drop_left]

theorem tokenAt_append_sign (unbroken : Unbroken token) {c : Char}
    (sign : isSign c) (left right : List Char) :
    tokenAt token before (left ++ c :: right) = tokenAt token before left :=
  tokenAt_append_break (unbroken.notMem sign) (breaks_of_isSign sign) left right

/-- Tokens on both sides of a break are replaced as if each side stood alone. -/
theorem replaceToken_append_break {before : Option Char} (nonempty : token ≠ []) {c : Char}
    (outside : c ∉ token) (breaks : Breaks c) (left right : List Char) :
    replaceToken token replacement before (left ++ c :: right) =
      replaceToken token replacement before left ++
        c :: replaceToken token replacement none right := by
  have same : ∀ before left, tokenAt token before (left ++ c :: right) = tokenAt token before left :=
    fun before left => tokenAt_append_break outside breaks left right
  induction before, left using match_induction nonempty with
  | nil before =>
    have passed : tokenAt token before (c :: right) = false :=
      (same before []).trans (tokenAt_nil nonempty)
    rw [List.nil_append, replaceToken_of_not_match passed, replaceToken_nil nonempty,
      replaceToken_after_break nonempty breaks, List.nil_append]
  | matched before rest found ih =>
    rw [replaceToken_of_match nonempty ((same before _).trans found),
      replaceToken_of_match nonempty found, List.append_assoc token, List.drop_left,
      List.drop_left, ih, List.append_assoc]
  | passed before d left found ih =>
    have passed : tokenAt token before (d :: (left ++ c :: right)) = false :=
      (same before (d :: left)).trans found
    rw [List.cons_append, replaceToken_of_not_match passed, replaceToken_of_not_match found, ih,
      List.cons_append]

theorem replaceToken_append_sign (nonempty : token ≠ []) (unbroken : Unbroken token) {c : Char}
    (sign : isSign c) (left right : List Char) :
    replaceToken token replacement before (left ++ c :: right) =
      replaceToken token replacement before left ++
        c :: replaceToken token replacement none right :=
  replaceToken_append_break nonempty (unbroken.notMem sign) (breaks_of_isSign sign) left right

/-- A text that the token does not stand in stays as it is. -/
theorem replaceToken_of_absent {cs : List Char} (absent : ¬token <:+: cs) :
    replaceToken token replacement before cs = cs := by
  have nonempty : token ≠ [] := by
    rintro rfl
    exact absent List.nil_infix
  induction cs generalizing before with
  | nil => exact replaceToken_nil nonempty
  | cons c cs ih =>
    have unmatched : tokenAt token before (c :: cs) = false := by
      cases found : tokenAt token before (c :: cs) with
      | false => rfl
      | true =>
        obtain ⟨rest, eq⟩ := exists_append_of_tokenAt found
        exact absurd (eq ▸ (List.prefix_append token rest).isInfix) absent
    rw [replaceToken_of_not_match unmatched,
      ih fun h => absent (h.trans (List.suffix_cons c cs).isInfix)]

/-- Replacing brings in no characters but those of the replacement. -/
theorem mem_replaceToken {before : Option Char} (nonempty : token ≠ []) {cs : List Char} {c : Char}
    (h : c ∈ replaceToken token replacement before cs) : c ∈ cs ∨ c ∈ replacement := by
  induction before, cs using match_induction nonempty with
  | nil before =>
    rw [replaceToken_nil nonempty] at h
    exact .inl h
  | matched before rest found ih =>
    rw [replaceToken_of_match nonempty found, List.drop_left, List.mem_append] at h
    rcases h with here | later
    · unfold replacementAt at here
      split at here
      · exact .inl (List.mem_append_left _ here)
      · exact .inr here
    · exact (ih later).imp_left (List.mem_append_right _)
  | passed before d cs found ih =>
    rw [replaceToken_of_not_match found, List.mem_cons] at h
    rcases h with rfl | later
    · exact .inl List.mem_cons_self
    · exact (ih later).imp_left (List.mem_cons_of_mem d)

end

end Python

end SheetCompiler
