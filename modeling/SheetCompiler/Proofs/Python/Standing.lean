import SheetCompiler.Proofs.Python.Substitution

/-!
# Names that substitution leaves alone

A name that stands between two signs is out of reach of a token (`replaceToken_standing`): a token
without punctuation would have to match inside the name, and a key with a quoted sheet name would have
to hold the whole name and the signs around it (`Encloses`). So the texts before and after the name
are rewritten as if each stood alone, and the name stays if it would stay alone, which the name of an
input does (`replaceToken_input`).
-/

namespace SheetCompiler

/-- What ends a text without holding the character `c` starts after it. -/
theorem Text.suffix_right {c : Char} {part left right : List Char} (outside : c ∉ part)
    (h : part <:+ left ++ c :: right) : part <:+ right := by
  rw [← List.reverse_prefix] at h ⊢
  have reversed : part.reverse <+: right.reverse ++ c :: left.reverse := by simpa using h
  exact prefix_left (by simpa using outside) reversed

namespace Python

/-- A text that is empty or ends in a sign. -/
def Closes (cs : List Char) : Prop := ∀ c ∈ cs.getLast?, isSign c

/-- A text that is empty or starts with a sign. -/
def Opens (cs : List Char) : Prop := ∀ c ∈ cs.head?, isSign c

/-- Only characters of names and attributes. -/
def IsName (cs : List Char) : Prop := ∀ c ∈ cs, isAttributeChar c

/-- The token holds the name between two signs. -/
def Encloses (token name : List Char) : Prop :=
  ∃ c ∈ token, ∃ d ∈ token, isSign c ∧ isSign d ∧ c :: (name ++ [d]) <:+: token

instance (token name : List Char) : Decidable (Encloses token name) :=
  decidable_of_iff (token.any fun c => token.any fun d =>
    isSign c && isSign d && decide (c :: (name ++ [d]) <:+: token)) (by
    simp [Encloses, and_assoc])

/-- A token that starts with the quote if it holds a quoted sheet name. -/
structure IsWholeToken (token : List Char) : Prop extends IsToken token where
  opening : quotedEnd? token ≠ none → token.head? = some '\''

section

variable {token replacement : List Char} {before : Option Char}

/-! ### Texts that no match crosses -/

theorem tokenAt_of_absent {cs : List Char} (h : ¬token <+: cs) :
    tokenAt token before cs = false := by
  rw [← List.isPrefixOf_iff_prefix, Bool.not_eq_true] at h
  rw [tokenAt, h, Bool.false_and]

/-- A token matches in front of more text if a word ends there. -/
theorem tokenAt_append (more : List Char) :
    tokenAt token before (token ++ more) =
      Text.isBoundary (token.getLast? <|> before) more.head? := by
  have starts : token.isPrefixOf (token ++ more) :=
    List.isPrefixOf_iff_prefix.2 (List.prefix_append ..)
  rw [tokenAt, starts, Bool.true_and, List.drop_left]

/-- If no match crosses from one text to the next, tokens are replaced in each. -/
theorem replaceToken_append (before : Option Char) (nonempty : token ≠ []) {left right : List Char}
    (clear : ∀ b, b <:+ left → b ≠ [] →
      tokenAt token none (b ++ right) = tokenAt token none b) :
    replaceToken token replacement before (left ++ right) =
      replaceToken token replacement before left ++
        replaceToken token replacement (left.getLast?.or before) right := by
  have anywhere : ∀ before left, tokenAt token none (left ++ right) = tokenAt token none left →
      tokenAt token before (left ++ right) = tokenAt token before left := by
    intro before left same
    rw [tokenAt_congr nonempty none, same, tokenAt_congr nonempty before]
  induction before, left using match_induction nonempty with
  | nil before =>
    rw [replaceToken_nil nonempty]
    rfl
  | matched before more found ih =>
    have filled : token ++ more ≠ [] := List.append_ne_nil_of_left_ne_nil nonempty more
    have same := anywhere before _ (clear _ List.suffix_rfl filled)
    have rest := ih fun b suffix => clear b (suffix.trans (List.suffix_append token more))
    rw [replaceToken_of_match nonempty (same.trans found), replaceToken_of_match nonempty found,
      List.append_assoc, List.drop_left, List.drop_left, rest, List.append_assoc,
      List.getLast?_append, Option.or_assoc]
    obtain ⟨x, xs, rfl⟩ := List.exists_cons_of_ne_nil nonempty
    simp [List.getLast?_cons]
  | passed before d left found ih =>
    have same := anywhere before _ (clear _ List.suffix_rfl (List.cons_ne_nil d left))
    have rest := ih fun b suffix => clear b (suffix.trans (List.suffix_cons d left))
    rw [List.cons_append] at same ⊢
    rw [replaceToken_of_not_match (same.trans found), replaceToken_of_not_match found, rest]
    cases left <;> simp [List.getLast?_cons]

/-- A token is replaced by itself. -/
theorem replaceToken_self {before : Option Char} (nonempty : token ≠ []) (cs : List Char) :
    replaceToken token token before cs = cs := by
  induction before, cs using match_induction nonempty with
  | nil before => exact replaceToken_nil nonempty
  | matched before more found ih =>
    rw [replaceToken_of_match nonempty found, List.drop_left, ih, replacementAt, ite_self]
  | passed before c cs found ih => rw [replaceToken_of_not_match found, ih]

/-! ### The ends of a token -/

namespace IsWholeToken

variable (whole : IsWholeToken token)

include whole

/-- No token starts with punctuation. -/
theorem isSign_head {c : Char} (h : c ∈ token.head?) : isSign c = false := by
  cases quoted : quotedEnd? token with
  | none => exact whole.unquoted quoted c (List.mem_of_mem_head? h)
  | some tail =>
    have quote := whole.opening (by simp [quoted])
    rw [Option.mem_def.1 h] at quote
    cases quote
    decide

/-- None ends with it, either. -/
theorem isSign_last {c : Char} (h : c ∈ token.getLast?) : isSign c = false := by
  cases quoted : quotedEnd? token with
  | none => exact whole.unquoted quoted c (List.mem_of_mem_getLast? h)
  | some tail =>
    obtain ⟨⟨front, rfl⟩, unbroken, dollar, -⟩ := whole.quoted tail quoted
    have nonempty := List.ne_nil_of_mem dollar
    rw [List.getLast?_append_of_ne_nil _ nonempty] at h
    exact unbroken c (List.mem_of_mem_getLast? h)

/-- No token starts with a sign. -/
theorem tokenAt_sign {c : Char} (sign : isSign c) (cs : List Char) :
    tokenAt token before (c :: cs) = false := by
  cases found : tokenAt token before (c :: cs) with
  | false => rfl
  | true =>
    obtain ⟨more, eq⟩ := exists_append_of_tokenAt found
    obtain ⟨x, xs, rfl⟩ := List.exists_cons_of_ne_nil whole.ne_nil
    cases eq
    rw [whole.isSign_head rfl] at sign
    cases sign

/-- A sign is passed over, and what is behind it is rewritten as if it stood alone. -/
theorem replaceToken_sign {c : Char} (sign : isSign c) (cs : List Char) :
    replaceToken token replacement before (c :: cs) =
      c :: replaceToken token replacement none cs := by
  rw [replaceToken_of_not_match (whole.tokenAt_sign sign cs),
    replaceToken_after_sign whole.ne_nil sign]

/-- A text that starts with a sign is rewritten in the same way whatever stands before it. -/
theorem replaceToken_opens {cs : List Char} (opens : Opens cs) :
    replaceToken token replacement before cs = replaceToken token replacement none cs := by
  cases cs with
  | nil => rw [replaceToken_nil whole.ne_nil, replaceToken_nil whole.ne_nil]
  | cons c cs => rw [whole.replaceToken_sign (opens c rfl), whole.replaceToken_sign (opens c rfl)]

/-- A sign at the front of a text stays there. -/
theorem opens_replaceToken {cs : List Char} (opens : Opens cs) :
    Opens (replaceToken token replacement none cs) := by
  cases cs with
  | nil => rwa [replaceToken_nil whole.ne_nil]
  | cons c cs =>
    rw [whole.replaceToken_sign (opens c rfl)]
    exact opens

/-- A sign at the end of a text stays there. -/
theorem getLast?_replaceToken {before : Option Char} {c : Char} (sign : isSign c) {cs : List Char}
    (h : cs.getLast? = some c) : (replaceToken token replacement before cs).getLast? = some c := by
  induction before, cs using match_induction whole.ne_nil with
  | nil before => cases h
  | matched before more found ih =>
    have ends : more.getLast? = some c := by
      cases last : more.getLast? with
      | some d =>
        rw [List.getLast?_append, last] at h
        exact h
      | none =>
        rw [List.getLast?_append, last, Option.none_or] at h
        rw [whole.isSign_last h] at sign
        cases sign
    rw [replaceToken_of_match whole.ne_nil found, List.drop_left, List.getLast?_append, ih ends]
    rfl
  | passed before d cs found ih =>
    rw [replaceToken_of_not_match found, List.getLast?_cons]
    cases cs with
    | nil =>
      rw [replaceToken_nil whole.ne_nil]
      exact h
    | cons e cs =>
      rw [List.getLast?_cons_cons] at h
      rw [ih h]
      rfl

/-- So does one at its end. -/
theorem closes_replaceToken {cs : List Char} (closes : Closes cs) :
    Closes (replaceToken token replacement before cs) := by
  cases last : cs.getLast? with
  | none =>
    rw [List.getLast?_eq_none_iff.1 last, replaceToken_nil whole.ne_nil]
    nofun
  | some c =>
    intro d h
    have sign := closes c last
    rw [whole.getLast?_replaceToken sign last] at h
    cases h
    exact sign

/-! ### A name between two signs -/

variable {gap name rest : List Char}

/-- After its last sign a token has a quote, which no name has. -/
theorem not_within {c : Char} (sign : isSign c) (bare : IsName name) {front beyond : List Char}
    (eq : token = front ++ c :: beyond) (within : beyond <+: name) : False := by
  cases quoted : quotedEnd? token with
  | none =>
    have plain := whole.unquoted quoted c (by simp [eq])
    rw [plain] at sign
    cases sign
  | some tail =>
    obtain ⟨suffix, unbroken, -, quote⟩ := whole.quoted tail quoted
    rw [eq] at suffix
    have inside := (Text.suffix_right (unbroken.notMem sign) suffix).subset quote
    exact absurd (bare _ (within.subset inside)) (by decide)

/-- A match does not reach the name from before it. -/
theorem tokenAt_before (closes : Closes gap) (opens : Opens rest) (bare : IsName name)
    (apart : ¬Encloses token name) {b : List Char} (suffix : b <:+ gap) (nonempty : b ≠ []) :
    tokenAt token none (b ++ (name ++ rest)) = tokenAt token none b := by
  obtain ⟨front, c, rfl⟩ := (List.eq_nil_or_concat b).resolve_left nonempty
  rw [List.concat_eq_append] at suffix nonempty ⊢
  have sign : isSign c := by
    obtain ⟨more, rfl⟩ := suffix
    exact closes c (by simp)
  by_cases starts : token <+: front ++ [c]
  · obtain ⟨more, eq⟩ := starts
    -- the token ends before the sign, so that the text after it starts in the same way
    have further : more ≠ [] := by
      rintro rfl
      rw [List.append_nil] at eq
      have := whole.isSign_last (c := c) (by simp [eq])
      rw [this] at sign
      cases sign
    obtain ⟨d, more, rfl⟩ := List.exists_cons_of_ne_nil further
    rw [← eq, List.append_assoc, tokenAt_append, tokenAt_append]
    rfl
  · have absent : ¬token <+: front ++ [c] ++ (name ++ rest) := by
      intro across
      obtain ⟨beyond, rfl⟩ : front ++ [c] <+: token :=
        (List.prefix_or_prefix_of_prefix across (List.prefix_append ..)).resolve_left starts
      have ahead : beyond <+: name ++ rest := (List.prefix_append_right_inj _).1 across
      rcases List.prefix_or_prefix_of_prefix ahead (List.prefix_append name rest) with
        within | ⟨more, rfl⟩
      · exact whole.not_within sign bare (by rw [List.append_assoc]; rfl) within
      · cases more with
        | nil =>
          rw [List.append_nil] at whole
          exact whole.not_within sign bare (by rw [List.append_assoc]; rfl) List.prefix_rfl
        | cons d more =>
          obtain ⟨after, rfl⟩ := (List.prefix_append_right_inj name).1 ahead
          refine apart ⟨c, by simp, d, by simp, sign, opens d rfl, front, more, ?_⟩
          simp
    rw [tokenAt_of_absent absent, tokenAt_of_absent starts]

/-- A match that starts in the name ends in it. -/
theorem tokenAt_inside (opens : Opens rest) (bare : IsName name) {b : List Char}
    (suffix : b <:+ name) (nonempty : b ≠ []) :
    tokenAt token none (b ++ rest) = tokenAt token none b := by
  cases rest with
  | nil => rw [List.append_nil]
  | cons d rest =>
    cases quoted : quotedEnd? token with
    | none => exact tokenAt_append_sign (whole.unquoted quoted) (opens d rfl) b rest
    | some tail =>
      have quote := whole.opening (by simp [quoted])
      obtain ⟨x, xs, rfl⟩ := List.exists_cons_of_ne_nil whole.ne_nil
      obtain ⟨y, ys, rfl⟩ := List.exists_cons_of_ne_nil nonempty
      cases quote
      have other : '\'' ≠ y := by
        rintro rfl
        exact absurd (bare _ (suffix.subset List.mem_cons_self)) (by decide)
      rw [List.cons_append, tokenAt_of_absent fun h => other (List.cons_prefix_cons.1 h).1,
        tokenAt_of_absent fun h => other (List.cons_prefix_cons.1 h).1]

end IsWholeToken

/-- A name that stands between two signs stays if it would stay alone. -/
theorem replaceToken_standing (whole : IsWholeToken token) {gap name rest : List Char}
    (closes : Closes gap) (opens : Opens rest) (bare : IsName name) (apart : ¬Encloses token name)
    (alone : replaceToken token replacement none name = name) :
    replaceToken token replacement none (gap ++ (name ++ rest)) =
      replaceToken token replacement none gap ++
        (name ++ replaceToken token replacement none rest) := by
  rw [replaceToken_append none whole.ne_nil fun b suffix nonempty =>
      whole.tokenAt_before closes opens bare apart suffix nonempty,
    replaceToken_append _ whole.ne_nil fun b suffix nonempty =>
      whole.tokenAt_inside opens bare suffix nonempty, whole.replaceToken_opens opens]
  cases last : gap.getLast? with
  | none =>
    rw [Option.none_or, alone]
  | some c =>
    rw [Option.some_or, replaceToken_after_sign whole.ne_nil (closes c last), alone]

end

/-- So does it if one token after the other is replaced. -/
theorem replaceAll_standing {steps : List (List Char × List Char)} {gap name rest : List Char}
    (closes : Closes gap) (opens : Opens rest) (bare : IsName name)
    (whole : ∀ step ∈ steps, IsWholeToken step.1) (apart : ∀ step ∈ steps, ¬Encloses step.1 name)
    (alone : ∀ step ∈ steps, replaceToken step.1 step.2 none name = name) :
    replaceAll steps (gap ++ (name ++ rest)) =
      replaceAll steps gap ++ (name ++ replaceAll steps rest) := by
  induction steps generalizing gap rest with
  | nil => rfl
  | cons step steps ih =>
    simp only [List.forall_mem_cons] at whole apart alone
    change replaceAll steps (replaceToken step.1 step.2 none _) = _
    rw [replaceToken_standing whole.1 closes opens bare apart.1 alone.1]
    exact ih (whole.1.closes_replaceToken closes) (whole.1.opens_replaceToken opens) whole.2
      apart.2 alone.2

/-! ### Pieces between two signs -/

/-- A sign in front does not change the end. -/
theorem closes_cons {c : Char} (sign : isSign c) {cs : List Char} (closes : Closes cs) :
    Closes (c :: cs) := by
  intro d last
  rw [List.getLast?_cons, Option.mem_some] at last
  cases ends : cs.getLast? with
  | none => simpa [← last, ends] using sign
  | some e =>
    rw [ends, Option.getD_some] at last
    exact closes d (ends.trans (congrArg some last))

/-- On both sides of a piece that is no punctuation there is some, unless the text ends there. -/
theorem Spaced.around {ps qs : List Piece} {q : Piece} (spaced : Spaced (ps ++ q :: qs))
    (solid : ∀ c, q ≠ .sign c) : Closes (Piece.write ps) ∧ Opens (Piece.write qs) := by
  -- By induction on the pieces, with the place of this one moving along.
  generalize eq : ps ++ q :: qs = whole at spaced
  induction spaced generalizing ps with
  | nil => simp at eq
  | sign sign _ ih =>
    cases ps with
    | nil =>
      cases eq
      exact absurd rfl (solid _)
    | cons p ps =>
      cases eq
      obtain ⟨closes, opens⟩ := ih rfl
      exact ⟨closes_cons sign closes, opens⟩
  | last =>
    cases ps with
    | nil =>
      cases eq
      exact ⟨nofun, nofun⟩
    | cons p ps => simp at eq
  | next _ sign _ ih =>
    cases ps with
    | nil =>
      cases eq
      refine ⟨nofun, fun c first => ?_⟩
      cases first
      exact sign
    | cons p ps =>
      cases ps with
      | nil =>
        cases eq
        exact absurd rfl (solid _)
      | cons p' ps =>
        cases eq
        obtain ⟨closes, opens⟩ := ih rfl
        refine ⟨fun d last => closes_cons sign closes d ?_, opens⟩
        rw [Piece.write_cons, Piece.write_cons, Piece.chars_sign, List.singleton_append,
          List.getLast?_append_of_ne_nil _ (List.cons_ne_nil _ _)] at last
        exact last

/-! ### The tokens of inputs -/

/-- A key is a whole token: its sheet name is bare, or the key starts with the quote. -/
theorem isWholeToken_keyChars (sheet : Option String) (r : Range) :
    IsWholeToken (Reference.keyChars sheet r) := by
  refine ⟨isToken_keyChars sheet r, fun quoted => ?_⟩
  obtain ⟨-, quoteless, -⟩ := plain_pinned r
  unfold Reference.keyChars Reference.onSheet at quoted ⊢
  cases sheet with
  | none => exact absurd (quotedEnd?_of_notMem quoteless) quoted
  | some sheet =>
    unfold SheetName.quoteChars at quoted ⊢
    dsimp only at quoted ⊢
    split at quoted
    next bare =>
      refine absurd (quotedEnd?_of_notMem ?_) quoted
      simp only [List.mem_append, List.mem_cons, not_or]
      refine ⟨fun mem => ?_, by decide, quoteless⟩
      exact absurd (SheetName.isIdentifierChar_of_mem bare mem) (by decide)
    next quotes =>
      rw [if_neg quotes]
      rfl

/-- So is the attribute that a key suggests. -/
theorem isWholeToken_suggested (key : String) :
    IsWholeToken ("self.".toList ++ (identifierOfKey key).toList) :=
  ⟨isToken_suggested key, fun quoted =>
    absurd (quotedEnd?_of_notMem (quoteless_suggested key)) quoted⟩

/-- All keys hold marks. -/
theorem dollar_mem_keyChars (sheet : Option String) (r : Range) :
    '$' ∈ Reference.keyChars sheet r := by
  obtain ⟨-, -, dollar⟩ := plain_pinned r
  unfold Reference.keyChars Reference.onSheet
  cases sheet with
  | none => exact dollar
  | some sheet => simp [dollar]

/-- No identifier is empty. -/
theorem identifierOfKey_ne (key : String) : (identifierOfKey key).toList ≠ [] := by
  unfold identifierOfKey
  dsimp only
  split
  next eq =>
    split
    · simp [eq]
    · simp
  next => decide

theorem isWord_of_isIdentifierChar {c : Char} (h : Text.isIdentifierChar c) : Text.isWord c := by
  have ascii : c.toNat < 128 := by
    rcases Bool.or_eq_true_iff.1 h with letter | mark
    · have := Text.toNat_of_isAlphanum letter
      omega
    · cases beq_iff_eq.1 mark
      decide
  rw [Text.isWord, if_pos ascii]
  exact h

/-- An attribute is replaced by no other attribute. -/
theorem replaceToken_attribute {other name : List Char} (nonempty : other ≠ [])
    (letters : ∀ c ∈ other, Text.isIdentifierChar c) (identifier : ∀ c ∈ name, Text.isIdentifierChar c)
    (differ : other ≠ name) (replacement : List Char) :
    replaceToken ("self.".toList ++ other) replacement none ("self.".toList ++ name) =
      "self.".toList ++ name := by
  have unmatched : tokenAt ("self.".toList ++ other) none ("self.".toList ++ name) = false := by
    by_cases starts : other <+: name
    · obtain ⟨more, rfl⟩ := starts
      cases more with
      | nil => exact absurd (List.append_nil other).symm differ
      | cons d more =>
        -- the name goes on, so that no word ends here
        obtain ⟨front, c, rfl⟩ := (List.eq_nil_or_concat other).resolve_left nonempty
        have last := isWord_of_isIdentifierChar (letters c (by simp))
        have next := isWord_of_isIdentifierChar (identifier d (by simp))
        rw [← List.append_assoc, tokenAt_append]
        simp [Text.isBoundary, List.getLast?_cons, last, next]
    · exact tokenAt_of_absent fun h => starts ((List.prefix_append_right_inj _).1 h)
  have point : '.' ∉ name := fun mem => absurd (identifier _ mem) (by decide)
  have self : "self.".toList = ['s', 'e', 'l', 'f', '.'] := by decide
  rw [self] at unmatched ⊢
  have inside : ¬ 's' :: 'e' :: 'l' :: 'f' :: '.' :: other <:+: name := fun h =>
    point (h.subset (by simp))
  have later : ¬['s', 'e', 'l', 'f', '.'] ++ other <:+: 'e' :: 'l' :: 'f' :: '.' :: name := by
    simp [List.infix_cons_iff, inside]
  have first : ['s', 'e', 'l', 'f', '.'] ++ name = 's' :: 'e' :: 'l' :: 'f' :: '.' :: name := rfl
  rw [first] at unmatched ⊢
  rw [replaceToken_of_not_match unmatched, replaceToken_of_absent later]

/-- An identifier is a name, bare or as an attribute. -/
theorem isName_qualify {name : String} (identifier : Text.isIdentifier name) (symbols : Symbols) :
    IsName (symbols.qualify name).toList := by
  have letters : IsName name.toList := fun c mem => by
    rw [isAttributeChar, SheetName.isIdentifierChar_of_mem identifier mem, Bool.true_or]
  unfold Symbols.qualify
  split
  · exact letters
  · have self : "self.".toList.all isAttributeChar := by decide
    rw [String.toList_append]
    intro c mem
    exact (List.mem_append.1 mem).elim (List.all_eq_true.1 self c) (letters c)

/-- The name of an input stays where inputs are substituted: a token that could match it is the
attribute that another key suggests, and that is either in use for the key or not in use at all. -/
theorem replaceToken_input {t : AliasTable} {inputs : List (String × String)}
    (bound : ∀ input ∈ inputs, t.lookup input.1 = some input.2)
    (keys : ∀ input ∈ inputs, ∃ sheet range, input.1.toList = Reference.keyChars sheet range)
    {name : String} (identifier : Text.isIdentifier name) (used : name ∈ t.used)
    (symbols : Symbols) {step : List Char × List Char} (mem : step ∈ replacements t inputs) :
    replaceToken step.1 step.2 none (symbols.qualify name).toList =
      (symbols.qualify name).toList := by
  have letters : ∀ c ∈ name.toList, Text.isIdentifierChar c := fun c mem =>
    SheetName.isIdentifierChar_of_mem identifier mem
  obtain ⟨input, hinput, mem⟩ := List.mem_flatMap.1 mem
  obtain ⟨token, htoken, rfl⟩ := List.mem_map.1 mem
  rcases List.mem_append.1 htoken with suggested | key
  · split at suggested
    next denotes =>
      cases List.mem_singleton.1 suggested
      rw [AliasTable.denotes, bound input hinput, Bool.or_eq_true_iff] at denotes
      rcases denotes with own | free
      · -- the attribute is replaced by itself
        rw [Option.some.inj (beq_iff_eq.1 own)]
        exact replaceToken_self (isWholeToken_suggested _).ne_nil _
      · have differ : identifierOfKey input.1 ≠ name := by
          rintro rfl
          simp [AliasTable.isUsed_eq, used] at free
        unfold Symbols.qualify
        split
        · exact replaceToken_of_absent fun h =>
            absurd (letters '.' (h.subset (by simp))) (by decide)
        · rw [String.toList_append]
          exact replaceToken_attribute (identifierOfKey_ne _)
            (fun c => isIdentifierChar_of_mem_identifierOfKey) letters
            (fun same => differ (String.toList_inj.1 same)) _
    next => cases suggested
  · cases List.mem_singleton.1 key
    obtain ⟨sheet, range, eq⟩ := keys input hinput
    have dollar : '$' ∈ input.1.toList := eq ▸ dollar_mem_keyChars sheet range
    exact replaceToken_of_absent fun h =>
      absurd (isName_qualify identifier symbols '$' (h.subset dollar)) (by decide)

/-- Where the name of an input stands between two signs, inputs are substituted before it and after
it, unless a key encloses the name. -/
theorem substituteInputs_standing {t : AliasTable} {inputs : List (String × String)}
    (bound : ∀ input ∈ inputs, t.lookup input.1 = some input.2)
    (keys : ∀ input ∈ inputs, ∃ sheet range, input.1.toList = Reference.keyChars sheet range)
    {name : String} (identifier : Text.isIdentifier name) (used : name ∈ t.used) {symbols : Symbols}
    (apart : ∀ input ∈ inputs, ¬Encloses input.1.toList (symbols.qualify name).toList)
    {gap rest : List Char} (closes : Closes gap) (opens : Opens rest) :
    substituteInputs t inputs (String.ofList (gap ++ ((symbols.qualify name).toList ++ rest))) =
      substituteInputs t inputs (String.ofList gap) ++ symbols.qualify name ++
        substituteInputs t inputs (String.ofList rest) := by
  apply String.toList_injective
  simp only [String.toList_append, substituteInputs_eq, String.toList_ofList, List.append_assoc]
  apply replaceAll_standing closes opens (isName_qualify identifier symbols)
  · intro step mem
    obtain ⟨input, hinput, -, suggested | key⟩ := mem_replacements mem
    · rw [suggested]
      exact isWholeToken_suggested input.1
    · obtain ⟨sheet, range, eq⟩ := keys input hinput
      rw [key, eq]
      exact isWholeToken_keyChars sheet range
  · intro step mem
    obtain ⟨input, hinput, -, suggested | key⟩ := mem_replacements mem
    · rw [suggested]
      rintro ⟨c, hc, -, -, sign, -⟩
      have unquoted := quotedEnd?_of_notMem (quoteless_suggested input.1)
      rw [(isToken_suggested input.1).unquoted unquoted c hc] at sign
      cases sign
    · rw [key]
      exact apart input hinput
  · intro step mem
    exact replaceToken_input bound keys identifier used symbols mem

end Python

end SheetCompiler
