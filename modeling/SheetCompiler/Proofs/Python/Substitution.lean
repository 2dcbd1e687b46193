import SheetCompiler.Proofs.Python.Pieces

/-!
# Substituting inputs

`substituteInputs` replaces one token after the other in the text of an expression, for each input
the attribute that its key suggests and the key itself. `Spaced.replaceAll_write` says what is left
of the pieces of the expression: attributes are rewritten, each as if it stood alone, and all else
stays. Numbers and bare names never hold a token; of the texts this is asked for (`Spares`).
-/

namespace SheetCompiler

/-! ### Characters of numbers -/

namespace Number

/-- What a number text is made of. -/
def isNumeric (c : Char) : Bool :=
  c.isDigit || ['.', '+', '-', 'e', 'E', 'i', 'n', 'f', 'N', 'a'].contains c

/-- A text of such characters. -/
def Numeric (cs : List Char) : Prop := ∀ c ∈ cs, isNumeric c

theorem isNumeric_of_isDigit {c : Char} (h : c.isDigit) : isNumeric c := by
  simp [isNumeric, h]

namespace Numeric

variable {left right : List Char}

theorem append (first : Numeric left) (others : Numeric right) : Numeric (left ++ right) := by
  intro c mem
  exact (List.mem_append.1 mem).elim (first c) (others c)

theorem cons {c : Char} (h : isNumeric c) (others : Numeric right) : Numeric (c :: right) := by
  intro d mem
  rcases List.mem_cons.1 mem with rfl | mem
  · exact h
  · exact others d mem

theorem nil : Numeric [] := nofun

theorem toDigits (n : Nat) : Numeric (Nat.toDigits 10 n) := fun _ mem =>
  isNumeric_of_isDigit (Nat.isDigit_of_mem_toDigits (by decide) (by decide) mem)

theorem zeros (n : Nat) : Numeric (Number.zeros n) := by
  intro c mem
  rw [List.eq_of_mem_replicate mem]
  decide

theorem take (h : Numeric left) (n : Nat) : Numeric (left.take n) := fun c mem =>
  h c (List.mem_of_mem_take mem)

theorem drop (h : Numeric left) (n : Nat) : Numeric (left.drop n) := fun c mem =>
  h c (List.mem_of_mem_drop mem)

theorem integerChars (n : Int) (plusSign : Bool) : Numeric (Number.integerChars n plusSign) := by
  unfold Number.integerChars
  dsimp only
  split
  · exact .cons (by decide) (.toDigits _)
  · split
    · exact .cons (by decide) (.toDigits _)
    · exact .toDigits _

/-- Digits with a point and zeros are numeric. -/
theorem positional (pointZero : Bool) (d : Decimal) : Numeric (Number.positional pointZero d) := by
  unfold Number.positional
  dsimp only
  split
  · refine ((toDigits _).append (zeros _)).append ?_
    split
    · exact .cons (by decide) (.cons (by decide) .nil)
    · exact .nil
  · split
    · exact ((toDigits _).take _).append (.cons (by decide) ((toDigits _).drop _))
    · exact .cons (by decide) (.cons (by decide) ((zeros _).append (toDigits _)))

/-- Digits with an exponent are numeric. -/
theorem scientific (plusSign : Bool) (d : Decimal) : Numeric (Number.scientific plusSign d) := by
  have digits := toDigits d.digits
  unfold Number.scientific
  dsimp only
  refine append ?_ (.cons (by decide) (integerChars _ _))
  split
  · exact .nil
  · next c eq => exact eq ▸ digits
  · next c cs _ eq =>
    rw [eq] at digits
    refine .cons (digits c List.mem_cons_self) (.cons (by decide) ?_)
    exact fun x mem => digits x (List.mem_cons_of_mem c mem)

/-- The text of a double. -/
theorem layout (l : Layout) (x : Float) : Numeric (l.chars x) := by
  have magnitude : Numeric (if x.isInf then ['i', 'n', 'f']
      else if (parts x).mantissa = 0 then Number.positional l.pointZero ⟨0, 0⟩
      else l.decimal ((parts x).shortest l.tie)) := by
    split
    · exact .cons (by decide) (.cons (by decide) (.cons (by decide) .nil))
    · split
      · exact positional _ _
      · unfold Layout.decimal
        dsimp only
        split
        · exact positional _ _
        · exact scientific _ _
  unfold Layout.chars
  dsimp only
  split
  · exact .cons (by decide) (.cons (by decide) (.cons (by decide) .nil))
  · split
    · exact .cons (by decide) magnitude
    · exact magnitude

/-- So is the text of a scaled decimal. -/
theorem scaled (x : Scaled) : Numeric x.toChars := by
  unfold Scaled.toChars
  dsimp only
  have digits : Numeric (List.replicate ((Scaled.normalize x.mantissa x.scale).2 + 1 -
      (Nat.toDigits 10 (Scaled.normalize x.mantissa x.scale).1).length) '0' ++
      Nat.toDigits 10 (Scaled.normalize x.mantissa x.scale).1) :=
    (zeros _).append (toDigits _)
  refine append (append ?_ (digits.take _)) (.cons (by decide) ?_)
  · split
    · exact .cons (by decide) .nil
    · exact .nil
  · split
    · exact .cons (by decide) .nil
    · exact digits.drop _

/-- A number as a formula writes it. -/
theorem isNumber {cs : List Char} (h : Scan.IsNumber cs) : Numeric cs := by
  have allDigits : ∀ {cs : List Char}, (∀ c ∈ cs, c.isDigit) → Numeric cs :=
    fun h c mem => isNumeric_of_isDigit (h c mem)
  have allSigns : ∀ {cs : List Char}, Scan.IsSign cs → Numeric cs := by
    rintro cs (rfl | rfl | rfl)
    · exact .nil
    · exact .cons (by decide) .nil
    · exact .cons (by decide) .nil
  obtain ⟨sign, numeral, rfl, hsign, whole, fraction, exponent, rfl, hwhole, hfraction,
    hexponent⟩ := h
  refine (allSigns hsign).append ((allDigits hwhole.2).append (append ?_ ?_))
  · rcases hfraction with rfl | ⟨digits, rfl, hdigits⟩
    · exact .nil
    · exact .cons (by decide) (allDigits hdigits)
  · rcases hexponent with rfl | ⟨mark, sign, digits, rfl, hmark, hsign, hdigits⟩
    · exact .nil
    · refine .cons ?_ ((allSigns hsign).append (allDigits hdigits.2))
      rcases hmark with rfl | rfl <;> decide

/-- A number of a formula is numeric when it is written out, percentage or not. -/
theorem numberLiteral {digits : String} (h : Scan.IsNumber digits.toList) (percent : Bool) :
    Numeric (Python.numberLiteral digits percent).toList := by
  unfold Python.numberLiteral
  split
  · dsimp only
    split
    · simpa using scaled _
    · split
      · simpa [Layout.text] using layout _ _
      · exact isNumber h
  · exact isNumber h

end Numeric

end Number

namespace Python

/-! ### Code -/

/-- No key and no attribute stands in code. -/
def Piece.Inert : Piece → Prop
  | .code cs => '$' ∉ cs ∧ ('.' ∉ cs ∨ 's' ∉ cs)
  | _ => True

/-- The bytes of a character stand among those of a text that holds it. -/
theorem mem_bytes {s : String} {c : Char} {b : UInt8} (code : b ∈ String.utf8EncodeChar c)
    (h : c ∈ s.toList) : b ∈ s.toByteArray.data.toList := by
  rw [← String.utf8Encode_toList, List.utf8Encode, List.data_toByteArray, List.toList_toArray]
  exact List.mem_flatMap.2 ⟨c, h, code⟩

/-- No function holds a mark or a small letter. -/
theorem inert_functions :
    ∀ name ∈ spreadsheetFunctions, '$' ∉ name.toList ∧ 's' ∉ name.toList := by
  -- On the bytes, which cost the kernel less than the characters.
  have bytes : spreadsheetFunctions.all (fun name =>
      name.toByteArray.data.toList.all fun b => b != 36 && b != 115) := by decide +kernel
  intro name mem
  have free := List.all_eq_true.1 (List.all_eq_true.1 bytes name mem)
  exact ⟨fun h => absurd (free 36 (mem_bytes (by decide) h)) (by decide),
    fun h => absurd (free 115 (mem_bytes (by decide) h)) (by decide)⟩

theorem inert_keywords : ∀ name ∈ keywords, '$' ∉ name.toList ∧ '.' ∉ name.toList := by
  decide +kernel

/-- The names that are declared as global are identifiers. -/
def Symbols.Proper (s : Symbols) : Prop := ∀ name ∈ s.externals, Text.isIdentifier name

theorem notMem_of_isIdentifier {name : String} (h : Text.isIdentifier name) {c : Char}
    (outside : Text.isIdentifierChar c = false) : c ∉ name.toList := by
  intro mem
  have inside := SheetName.isIdentifierChar_of_mem h mem
  rw [outside] at inside
  exact absurd inside (by decide)

/-- Bare names are functions, reserved words or declared names, and none of them holds a token. -/
theorem Symbols.inert_piece {s : Symbols} (proper : s.Proper) (identifier : String) :
    (s.piece identifier).Inert := by
  unfold piece
  split
  next known =>
    simp only [contains, isFunction, isKeyword, Bool.or_eq_true, List.contains_iff_mem] at known
    rcases known with (function | keyword) | declared
    · have := inert_functions identifier function
      exact ⟨this.1, .inr this.2⟩
    · have := inert_keywords identifier keyword
      exact ⟨this.1, .inl this.2⟩
    · have name := proper identifier declared
      exact ⟨notMem_of_isIdentifier name (by decide), .inl (notMem_of_isIdentifier name (by decide))⟩
  next => trivial

/-- Nothing but attributes and texts can hold a token. -/
theorem Scope.writes_inert {scope : Scope} (proper : scope.symbols.Proper)
    (free : scope.locals = []) : scope.Writes (fun _ => True) Piece.Inert where
  resolve _ _ _ := trivial
  sign _ := trivial
  text _ := trivial
  relation := ⟨by decide, .inl (by decide)⟩
  null := ⟨by decide, .inl (by decide)⟩
  number digits percent h := by
    have numeric := Number.Numeric.numberLiteral h percent
    exact ⟨fun mem => absurd (numeric _ mem) (by decide),
      .inr fun mem => absurd (numeric _ mem) (by decide)⟩
  name t n _ _ := by
    unfold Scope.namePiece
    simp only [free, List.contains_nil, Bool.false_eq_true, if_false]
    split
    · exact ⟨by decide, .inl (by decide)⟩
    · split
      · exact ⟨by decide, .inl (by decide)⟩
      · exact Symbols.inert_piece proper _
  range t r _ := Symbols.inert_piece proper _

/-! ### Attributes without quotes -/

/-- An attribute holds no quote. -/
def Piece.Quoteless : Piece → Prop
  | .member cs => '\'' ∉ cs
  | _ => True

end Python

/-- No quote stands in an identifier of the table. -/
structure AliasTable.Quoteless (t : AliasTable) : Prop where
  bound : ∀ key b, t.binding? key = some b → '\'' ∉ b.identifier.toList
  renamed : ∀ name identifier, Assoc.find? name t.renames = some identifier →
    '\'' ∉ identifier.toList

/-- The identifier of a key is made of letters, digits and underscores. -/
theorem isIdentifierChar_of_mem_identifierOfKey {key : String} {c : Char}
    (h : c ∈ (identifierOfKey key).toList) : Text.isIdentifierChar c := by
  have kept : ∀ {d}, d ∈ key.toList.filter Char.isAlphanum → Text.isIdentifierChar d := by
    intro d mem
    simp [Text.isIdentifierChar, (List.mem_filter.1 mem).2]
  have mark : ∀ {d}, d ∈ "ref_".toList → Text.isIdentifierChar d := by
    intro d mem
    have all : "ref_".toList.all Text.isIdentifierChar := by decide
    exact List.all_eq_true.1 all d mem
  unfold identifierOfKey at h
  dsimp only at h
  split at h
  next =>
    split at h
    · exact kept (by simpa using h)
    · rw [String.toList_append, List.mem_append] at h
      exact h.elim mark fun mem => kept (by simpa using mem)
  next => exact mark h

namespace AliasTable

variable {t : AliasTable}

/-- So is the one that is free for it. -/
theorem isIdentifierChar_of_mem_fresh {key : String} {c : Char}
    (h : c ∈ (t.fresh (identifierOfKey key)).toList) : Text.isIdentifierChar c := by
  by_cases used : identifierOfKey key ∈ t.used
  · obtain ⟨n, -, eq, -⟩ := fresh_of_mem used
    rw [eq, suffixed, String.toList_append, String.toList_append, List.mem_append,
      List.mem_append] at h
    rcases h with (base | mark) | digits
    · exact isIdentifierChar_of_mem_identifierOfKey base
    · obtain rfl : c = '_' := by simpa using mark
      decide
    · have digit : c.isDigit :=
        Nat.isDigit_of_mem_toDigits (by decide) (Nat.le_refl 10) (by simpa using digits)
      simp [Text.isIdentifierChar, Char.isAlphanum, digit]
  · rw [fresh_of_notMem used] at h
    exact isIdentifierChar_of_mem_identifierOfKey h

theorem Quoteless.rename (quoteless : t.Quoteless) {name : String} (h : '\'' ∉ name.toList) :
    '\'' ∉ (t.rename name).toList := by
  unfold AliasTable.rename
  cases found : Assoc.find? name t.renames with
  | none => exact h
  | some identifier => exact quoteless.renamed name identifier found

theorem quoteless_fresh (key : String) : '\'' ∉ (t.fresh (identifierOfKey key)).toList :=
  fun mem => absurd (isIdentifierChar_of_mem_fresh mem) (by decide)

/-- Resolving gives no identifier with a quote, and keeps the table without one. -/
theorem Quoteless.resolve (quoteless : t.Quoteless) (r : Reference) (current : Option String) :
    '\'' ∉ (t.resolve r current).1.toList ∧ (t.resolve r current).2.Quoteless := by
  obtain ⟨b, bound, eq⟩ | ⟨-, eq⟩ := t.resolve_cases r current
  · rw [eq]
    exact ⟨quoteless.bound _ b bound, quoteless⟩
  · rw [eq]
    refine ⟨quoteless_fresh _, fun key b h => ?_, fun name identifier h => ?_⟩
    · rw [binding?_synthesize] at h
      split at h
      · cases h
        exact quoteless_fresh _
      · exact quoteless.bound key b h
    · rw [renames_synthesize] at h
      exact quoteless.renamed name identifier h

end AliasTable

namespace Python

theorem Symbols.quoteless_piece (s : Symbols) {identifier : String} (h : '\'' ∉ identifier.toList) :
    (s.piece identifier).Quoteless := by
  unfold piece
  split
  · trivial
  · intro mem
    rcases List.mem_append.1 mem with self | name
    · exact absurd self (by decide)
    · exact h name

/-- A name of a formula holds no quote. -/
theorem quoteless_word {word : List Char} (h : Scan.isSheetWord word ∨ Scan.IsCell word) :
    '\'' ∉ word := by
  rcases h with name | cell
  · intro mem
    cases word with
    | nil => simp at mem
    | cons c cs =>
      simp only [Scan.isSheetWord, Bool.and_eq_true, List.all_eq_true] at name
      rcases List.mem_cons.1 mem with rfl | mem
      · exact absurd name.1 (by decide)
      · exact absurd (name.2 _ mem) (by decide)
  · obtain ⟨colMark, letters, rowMark, digits, rfl, ⟨-, upper⟩, -, digit⟩ := cell
    have marked : ∀ fixed : Bool, '\'' ∉ Address.mark fixed := by decide
    simp only [List.mem_append, not_or]
    exact ⟨marked _, fun mem => absurd (upper _ mem) (by decide), marked _,
      fun mem => absurd (digit _ mem) (by decide)⟩

/-- No kind of piece that is an attribute has a quote. -/
theorem Scope.writes_quoteless (scope : Scope) :
    scope.Writes AliasTable.Quoteless Piece.Quoteless where
  resolve t r h := (h.resolve r scope.sheet).2
  sign _ := trivial
  text _ := trivial
  relation := trivial
  null := trivial
  number _ _ _ := trivial
  name t n h word := by
    unfold Scope.namePiece
    dsimp only
    split
    · trivial
    · split
      · trivial
      · split
        · trivial
        · exact scope.symbols.quoteless_piece (h.rename (quoteless_word word))
  range t r h := scope.symbols.quoteless_piece (h.resolve r scope.sheet).1

/-! ### Tokens -/

/-- The tokens that stand for the cells of a key. -/
def inputTokens (t : AliasTable) (key : String) : List (List Char) :=
  (if t.denotes (identifierOfKey key) key then ["self.".toList ++ (identifierOfKey key).toList]
    else []) ++ [key.toList]

/-- All tokens that are replaced for inputs, each with what takes its place. -/
def replacements (t : AliasTable) (inputs : List (String × String)) :
    List (List Char × List Char) :=
  inputs.flatMap fun input => (inputTokens t input.1).map (·, "self.".toList ++ input.2.toList)

/-- Replaces one token after the other. -/
def replaceAll (steps : List (List Char × List Char)) (cs : List Char) : List Char :=
  steps.foldl (fun cs step => replaceToken step.1 step.2 none cs) cs

/-- Substituting inputs is replacing one token after the other. -/
theorem substituteInputs_eq (t : AliasTable) (inputs : List (String × String)) (s : String) :
    (substituteInputs t inputs s).toList = replaceAll (replacements t inputs) s.toList := by
  have step : ∀ (input : String × String) (cs : List Char), substituteInput t input.1 input.2 cs =
      replaceAll ((inputTokens t input.1).map (·, "self.".toList ++ input.2.toList)) cs := by
    intro input cs
    unfold substituteInput inputTokens replaceAll
    dsimp only
    split <;> rfl
  unfold substituteInputs
  rw [String.toList_ofList]
  generalize s.toList = cs
  induction inputs generalizing cs with
  | nil => rfl
  | cons input inputs ih =>
    have first := step input cs
    rw [List.foldl_cons, ih, replacements, replacements, List.flatMap_cons]
    dsimp only at first ⊢
    rw [first]
    simp only [replaceAll, List.foldl_append]

/-- A key with a quoted sheet name, from the closing quote on. -/
def quotedEnd? (token : List Char) : Option (List Char) :=
  (Text.cutLast '\'' token).map fun parts => '\'' :: parts.2

/-- What is known of the tokens: they cannot stand in code, and only a quoted sheet name holds
punctuation. -/
structure IsToken (token : List Char) : Prop where
  foreign : '$' ∈ token ∨ '.' ∈ token ∧ 's' ∈ token
  unquoted : quotedEnd? token = none → Unbroken token
  quoted : ∀ tail, quotedEnd? token = some tail →
    tail <:+ token ∧ Unbroken tail ∧ '$' ∈ tail ∧ '\'' ∈ tail

theorem IsToken.ne_nil {token : List Char} (h : IsToken token) : token ≠ [] := by
  rintro rfl
  simpa using h.foreign

/-- No token stands in code. -/
theorem IsToken.not_infix_code {token cs : List Char} (h : IsToken token)
    (inert : (Piece.code cs).Inert) : ¬token <:+: cs := by
  intro stands
  rcases h.foreign with dollar | ⟨point, letter⟩
  · exact inert.1 (stands.subset dollar)
  · exact inert.2.elim (· (stands.subset point)) (· (stands.subset letter))

theorem quotedEnd?_of_notMem {token : List Char} (h : '\'' ∉ token) : quotedEnd? token = none := by
  simp [quotedEnd?, Text.cutLast_of_notMem h]

theorem isToken_of_quoteless {token : List Char} (unbroken : Unbroken token)
    (quoteless : '\'' ∉ token) (foreign : '$' ∈ token ∨ '.' ∈ token ∧ 's' ∈ token) :
    IsToken token := by
  refine ⟨foreign, fun _ => unbroken, fun tail quoted => ?_⟩
  simp [quotedEnd?_of_notMem quoteless] at quoted

/-- The part of a key after its sheet. -/
theorem plain_pinned (r : Range) :
    Unbroken r.pinned.toChars ∧ '\'' ∉ r.pinned.toChars ∧ '$' ∈ r.pinned.toChars := by
  have plain : ∀ c ∈ r.pinned.toChars, isSign c = false ∧ c ≠ '\'' := by
    have corner : ∀ {a : Address} {c : Char}, c ∈ a.toChars → isSign c = false ∧ c ≠ '\'' := by
      intro a c mem
      rcases Address.mem_toChars mem with rfl | alphanumeric
      · decide
      · refine ⟨isSign_of_isIdentifierChar (by simp [Text.isIdentifierChar, alphanumeric]), ?_⟩
        rintro rfl
        exact absurd alphanumeric (by decide)
    intro c mem
    unfold Range.toChars at mem
    split at mem
    · exact corner mem
    · rcases List.mem_append.1 mem with first | mem
      · exact corner first
      · rcases List.mem_cons.1 mem with rfl | last
        · decide
        · exact corner last
  refine ⟨fun c mem => (plain c mem).1, fun mem => (plain _ mem).2 rfl, ?_⟩
  have first : '$' ∈ r.pinned.first.toChars := by
    simp [Range.pinned, Address.pinned, Address.toChars, Address.mark]
  unfold Range.toChars
  split
  · exact first
  · exact List.mem_append_left _ first

/-- A key without quotes is a token without punctuation. -/
theorem isToken_bare {sheet : List Char} (bare : Text.isIdentifierChars sheet) {range : List Char}
    (unbroken : Unbroken range) (quoteless : '\'' ∉ range) (dollar : '$' ∈ range) :
    IsToken (sheet ++ '!' :: range) := by
  have plain : ∀ c ∈ sheet ++ '!' :: range, isSign c = false ∧ c ≠ '\'' := by
    intro c mem
    simp only [List.mem_append, List.mem_cons] at mem
    rcases mem with name | rfl | rest
    · have inName := SheetName.isIdentifierChar_of_mem bare name
      refine ⟨isSign_of_isIdentifierChar inName, ?_⟩
      rintro rfl
      exact absurd inName (by decide)
    · decide
    · exact ⟨unbroken c rest, fun eq => quoteless (eq ▸ rest)⟩
  exact isToken_of_quoteless (fun c mem => (plain c mem).1) (fun mem => (plain _ mem).2 rfl)
    (.inl (by simp [dollar]))

/-- A key with a quoted sheet name ends in a token without punctuation: the closing quote is the last
one, since none stands in the range. -/
theorem isToken_quoted (sheet : List Char) {range : List Char} (unbroken : Unbroken range)
    (quoteless : '\'' ∉ range) (dollar : '$' ∈ range) :
    IsToken (sheet ++ '\'' :: '!' :: range) := by
  have ends : quotedEnd? (sheet ++ '\'' :: '!' :: range) = some ('\'' :: '!' :: range) := by
    have last : '\'' ∉ '!' :: range := by simp [quoteless]
    rw [quotedEnd?, Text.cutLast_append last]
    rfl
  refine ⟨.inl (by simp [dollar]), fun unquoted => ?_, fun tail quoted => ?_⟩
  · exact absurd (ends.symm.trans unquoted) (by simp)
  · obtain rfl := Option.some.inj (ends.symm.trans quoted)
    refine ⟨List.suffix_append _ _, fun c mem => ?_, by simp [dollar], List.mem_cons_self⟩
    simp only [List.mem_cons] at mem
    rcases mem with rfl | rfl | rest
    · decide
    · decide
    · exact unbroken c rest

/-- Every key is a token. -/
theorem isToken_keyChars (sheet : Option String) (r : Range) :
    IsToken (Reference.keyChars sheet r) := by
  obtain ⟨unbroken, quoteless, dollar⟩ := plain_pinned r
  unfold Reference.keyChars Reference.onSheet
  cases sheet with
  | none => exact isToken_of_quoteless unbroken quoteless (.inl dollar)
  | some sheet =>
    unfold SheetName.quoteChars
    dsimp only
    split
    next bare => exact isToken_bare bare unbroken quoteless dollar
    next =>
      rw [List.append_assoc]
      exact isToken_quoted _ unbroken quoteless dollar

theorem quoteless_suggested (key : String) :
    '\'' ∉ "self.".toList ++ (identifierOfKey key).toList := by
  intro mem
  rcases List.mem_append.1 mem with self | name
  · exact absurd self (by decide)
  · exact absurd (isIdentifierChar_of_mem_identifierOfKey name) (by decide)

/-- So is every attribute that a key suggests. -/
theorem isToken_suggested (key : String) :
    IsToken ("self.".toList ++ (identifierOfKey key).toList) := by
  refine isToken_of_quoteless (fun c mem => ?_) (quoteless_suggested key)
    (.inr ⟨List.mem_append_left _ (by decide), List.mem_append_left _ (by decide)⟩)
  rcases List.mem_append.1 mem with self | name
  · have apart : "self.".toList.all fun c => !isSign c := by decide
    simpa using List.all_eq_true.1 apart c self
  · exact isSign_of_isIdentifierChar (isIdentifierChar_of_mem_identifierOfKey name)

/-- What is replaced for inputs are the attributes that their keys suggest, and the keys. -/
theorem mem_replacements {t : AliasTable} {inputs : List (String × String)}
    {step : List Char × List Char} (h : step ∈ replacements t inputs) :
    ∃ input ∈ inputs, step.2 = "self.".toList ++ input.2.toList ∧
      (step.1 = "self.".toList ++ (identifierOfKey input.1).toList ∨ step.1 = input.1.toList) := by
  obtain ⟨input, mem, h⟩ := List.mem_flatMap.1 h
  obtain ⟨token, htoken, rfl⟩ := List.mem_map.1 h
  refine ⟨input, mem, rfl, ?_⟩
  rcases List.mem_append.1 htoken with suggested | key
  · split at suggested
    · exact .inl (List.mem_singleton.1 suggested)
    · simp at suggested
  · exact .inr (List.mem_singleton.1 key)

/-- Replacing a token changes nothing in the literal of a text, and the token cannot end in it after
it began before it. -/
structure Spares (token replacement : List Char) (content : String) : Prop where
  alone : replaceToken token replacement none (stringChars content.toList) =
    stringChars content.toList
  apart : ∀ tail ∈ quotedEnd? token, ¬tail <:+: stringChars content.toList

instance (token replacement : List Char) (content : String) :
    Decidable (Spares token replacement content) :=
  decidable_of_iff (_ ∧ _) ⟨fun h => ⟨h.1, h.2⟩, fun h => ⟨h.alone, h.apart⟩⟩

/-! ### Replacing tokens in the pieces of an expression -/

open Piece (write)

/-- A function that treats both sides of punctuation apart acts on each piece. -/
theorem Spaced.map_write {f : List Char → List Char} {ps : List Piece} (spaced : Spaced ps)
    (empty : f [] = [])
    (split : ∀ c left right, isSign c → f (left ++ c :: right) = f left ++ c :: f right)
    (fixed : ∀ p ∈ ps, (∀ c, p ≠ .sign c) → f p.chars = (p.rewrite f).chars) :
    f (write ps) = write (ps.map (Piece.rewrite f)) := by
  induction spaced with
  | nil => exact empty
  | @sign c ps h _ ih =>
    have first : f (write (.sign c :: ps)) = c :: f (write ps) := by
      simpa [empty] using split c [] (write ps) h
    rw [first, ih fun p mem => fixed p (List.mem_cons_of_mem _ mem)]
    rfl
  | @last p solid => simpa using fixed p List.mem_cons_self solid
  | @next p c ps solid h _ ih =>
    have first : f (write (p :: .sign c :: ps)) = f p.chars ++ c :: f (write ps) :=
      split c p.chars (write ps) h
    rw [first, fixed p List.mem_cons_self solid,
      ih fun q mem => fixed q (List.mem_cons_of_mem _ (List.mem_cons_of_mem _ mem))]
    rfl

section

variable {ps : List Piece} {token replacement : List Char}

/-- A key with a quoted sheet name stands nowhere, since its end stands in no piece. -/
theorem Spaced.not_infix_write (spaced : Spaced ps) (h : IsToken token) {tail : List Char}
    (quoted : quotedEnd? token = some tail) (inert : ∀ p ∈ ps, p.Inert)
    (quoteless : ∀ p ∈ ps, p.Quoteless)
    (texts : ∀ content, .text content ∈ ps → ¬tail <:+: stringChars content.toList) :
    ¬token <:+: write ps := by
  intro stands
  obtain ⟨suffix, unbroken, dollar, quote⟩ := h.quoted tail quoted
  obtain ⟨p, mem, within⟩ := spaced.exists_piece (List.ne_nil_of_mem dollar) unbroken
    (suffix.isInfix.trans stands)
  cases p with
  | sign c =>
    have sign := spaced.isSign_of_mem mem
    obtain rfl : '$' = c := by simpa using within.subset dollar
    exact absurd sign (by decide)
  | code cs => exact (inert _ mem).1 (within.subset dollar)
  | member cs => exact quoteless _ mem (within.subset quote)
  | text content => exact texts content mem within

/-- Replacing a token rewrites attributes, each as if it stood alone, and leaves all else. -/
theorem Spaced.replaceToken_write (spaced : Spaced ps) (h : IsToken token)
    (inert : ∀ p ∈ ps, p.Inert)
    (quoteless : quotedEnd? token ≠ none → ∀ p ∈ ps, p.Quoteless)
    (spared : ∀ content, .text content ∈ ps → Spares token replacement content) :
    replaceToken token replacement none (write ps) =
      write (ps.map (Piece.rewrite (replaceToken token replacement none))) := by
  cases quoted : quotedEnd? token with
  | none =>
    have unbroken := h.unquoted quoted
    refine spaced.map_write (replaceToken_nil h.ne_nil)
      (fun c left right sign => replaceToken_append_sign h.ne_nil unbroken sign left right)
      fun p mem solid => ?_
    cases p with
    | sign c => exact absurd rfl (solid c)
    | code cs => exact replaceToken_of_absent (h.not_infix_code (inert _ mem))
    | member cs => rfl
    | text content => exact (spared content mem).alone
  | some tail =>
    have plain := quoteless (by simp [quoted])
    obtain ⟨suffix, -, -, quote⟩ := h.quoted tail quoted
    -- The token stands in no attribute either, so that rewriting these does nothing.
    have still : ps.map (Piece.rewrite (replaceToken token replacement none)) = ps := by
      refine (List.map_congr_left fun p mem => ?_).trans (List.map_id ps)
      cases p with
      | member cs =>
        have absent : ¬token <:+: cs := fun stands =>
          plain _ mem (stands.subset (suffix.subset quote))
        exact congrArg Piece.member (replaceToken_of_absent absent)
      | sign | code | text => rfl
    rw [still, replaceToken_of_absent (spaced.not_infix_write h quoted inert plain
      fun content mem => (spared content mem).apart tail quoted)]

/-- So does replacing one token after the other. -/
theorem Spaced.replaceAll_write {steps : List (List Char × List Char)} (spaced : Spaced ps)
    (tokens : ∀ step ∈ steps, IsToken step.1) (inert : ∀ p ∈ ps, p.Inert)
    (quoteless : (∃ step ∈ steps, quotedEnd? step.1 ≠ none) →
      (∀ p ∈ ps, p.Quoteless) ∧ ∀ step ∈ steps, '\'' ∉ step.2)
    (spared : ∀ step ∈ steps, ∀ content, .text content ∈ ps → Spares step.1 step.2 content) :
    replaceAll steps (write ps) = write (ps.map (Piece.rewrite (replaceAll steps))) := by
  induction steps generalizing ps with
  | nil =>
    have still : ps.map (Piece.rewrite (replaceAll [])) = ps := by
      refine (List.map_congr_left fun p _ => ?_).trans (List.map_id ps)
      cases p <;> rfl
    rw [still]
    rfl
  | cons step steps ih =>
    have first := spaced.replaceToken_write (tokens step List.mem_cons_self) inert
      (fun quoted => (quoteless ⟨step, List.mem_cons_self, quoted⟩).1)
      (spared step List.mem_cons_self)
    have twice : ps.map (Piece.rewrite (replaceAll (step :: steps))) =
        (ps.map (Piece.rewrite (replaceToken step.1 step.2 none))).map
          (Piece.rewrite (replaceAll steps)) := by
      rw [List.map_map]
      refine List.map_congr_left fun p _ => ?_
      cases p <;> rfl
    have nonempty := (tokens step List.mem_cons_self).ne_nil
    change replaceAll steps (replaceToken step.1 step.2 none (write ps)) = _
    rw [first, twice]
    -- What the other tokens ask of the pieces still holds after the first one.
    refine ih (spaced.rewrite _) (fun s mem => tokens s (List.mem_cons_of_mem _ mem)) ?_ ?_ ?_
    · intro p mem
      obtain ⟨q, old, rfl⟩ := List.mem_map.1 mem
      have same := inert q old
      cases q <;> exact same
    · rintro ⟨s, mem, quoted⟩
      obtain ⟨plain, parameters⟩ := quoteless ⟨s, List.mem_cons_of_mem _ mem, quoted⟩
      refine ⟨fun p mem => ?_, fun s mem => parameters s (List.mem_cons_of_mem _ mem)⟩
      obtain ⟨q, hq, rfl⟩ := List.mem_map.1 mem
      have old := plain q hq
      cases q with
      | member cs =>
        intro quote
        -- A quote would come from the attribute or from the parameter.
        rcases mem_replaceToken nonempty quote with before | new
        · exact old before
        · exact parameters step List.mem_cons_self new
      | sign | code | text => trivial
    · intro s mem content text
      obtain ⟨q, hq, eq⟩ := List.mem_map.1 text
      cases q with
      | text other =>
        cases eq
        exact spared s (List.mem_cons_of_mem _ mem) _ hq
      | sign | code | member => cases eq

end

end Python

end SheetCompiler
