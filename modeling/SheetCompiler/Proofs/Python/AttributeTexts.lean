import SheetCompiler.Proofs.Python.Standing

/-!
# Inputs in texts of attributes

A text of attributes with gaps between them (`Segment.Laid`) is the case that inputs are substituted
for. One token rewrites the attributes that are spelled like it, and no part of a longer one, since
a match starts after a gap and ends at the end of a word (`Segment.Laid.replaceToken_member`). Keys
stand nowhere in such a text: between the two dollar signs of a key there are letters only, and
between two gaps there is an attribute with its point (`Segment.Laid.not_infix_key`). So
substituting all inputs renames each attribute once (`substituteInputs_attributes`).
-/

namespace SheetCompiler

/-- What starts with a character that the first part does not hold stands in the second. -/
theorem Text.infix_of_notMem_left {c : Char} {part left right : List Char} (outside : c ∉ left)
    (h : c :: part <:+: left ++ right) : c :: part <:+: right := by
  induction left with
  | nil => exact h
  | cons d left ih =>
    rcases List.infix_cons_iff.1 h with starts | later
    · exact absurd (List.cons_prefix_cons.1 starts).1 (fun eq => outside (eq ▸ List.mem_cons_self))
    · exact ih (fun mem => outside (List.mem_cons_of_mem d mem)) later

/-- In every key there are two dollar signs with nothing but letters between them. -/
theorem Reference.exists_letters_infix_keyChars (sheet : Option String) (r : Range) :
    ∃ letters : List Char, letters ≠ [] ∧ (∀ c ∈ letters, c.isAlpha) ∧
      '$' :: (letters ++ ['$']) <:+: keyChars sheet r := by
  refine ⟨columnLetters r.first.col, columnLetters_ne_nil _,
    fun c => isAlpha_of_mem_columnLetters, ?_⟩
  have corner : '$' :: (columnLetters r.first.col ++ ['$']) <+: r.pinned.first.toChars := by
    simp [Range.pinned, Address.pinned, Address.toChars, Address.mark]
  have range : '$' :: (columnLetters r.first.col ++ ['$']) <:+: r.pinned.toChars := by
    unfold Range.toChars
    split
    · exact corner.isInfix
    · exact (corner.trans (List.prefix_append _ _)).isInfix
  unfold keyChars onSheet
  cases sheet with
  | none => exact range
  | some sheet => exact range.trans (List.suffix_append_of_suffix (List.suffix_cons _ _)).isInfix

namespace Python

/-- What may stand between attributes: an ASCII character that no attribute goes on with. -/
def isGap (c : Char) : Bool := c.toNat < 128 && !isAttributeChar c

/-- No name and no word goes on behind a gap. -/
theorem breaks_of_isGap {c : Char} (h : isGap c) : Breaks c := by
  simp only [isGap, Bool.and_eq_true, decide_eq_true_eq, Bool.not_eq_true'] at h
  refine ⟨?_, h.2⟩
  rw [Text.isWord, if_pos h.1]
  exact (Bool.or_eq_false_iff.1 h.2).1

/-- A character between attributes, or an attribute of the instance. -/
inductive Segment where
  | gap (c : Char)
  | member (identifier : String)
deriving DecidableEq, Repr

namespace Segment

def chars : Segment → List Char
  | gap c => [c]
  | member identifier => "self.".toList ++ identifier.toList

def text (segments : List Segment) : List Char := segments.flatMap chars

/-- Gives attributes other names. -/
def rename (f : String → String) : Segment → Segment
  | gap c => gap c
  | member identifier => member (f identifier)

/-- Attributes are called by identifiers, and between any two of them there is a gap. -/
inductive Laid : List Segment → Prop
  | nil : Laid []
  | gap {c : Char} {segments : List Segment} (h : isGap c) (rest : Laid segments) :
    Laid (.gap c :: segments)
  | last {identifier : String} (h : Text.isIdentifier identifier) : Laid [.member identifier]
  | next {identifier : String} {c : Char} {segments : List Segment}
    (h : Text.isIdentifier identifier) (gap : isGap c) (rest : Laid segments) :
    Laid (.member identifier :: .gap c :: segments)

@[simp] theorem text_nil : text [] = [] := rfl

@[simp] theorem text_cons (s : Segment) (segments : List Segment) :
    text (s :: segments) = s.chars ++ text segments := rfl

@[simp] theorem chars_gap (c : Char) : (gap c).chars = [c] := rfl

@[simp] theorem chars_member (identifier : String) :
    (member identifier).chars = "self.".toList ++ identifier.toList := rfl

/-- Attributes hold no gap. -/
theorem isAttributeChar_of_mem_member {identifier : String}
    (letters : ∀ c ∈ identifier.toList, Text.isIdentifierChar c) {c : Char}
    (mem : c ∈ (member identifier).chars) : isAttributeChar c := by
  have self : "self.".toList.all isAttributeChar := by decide
  rcases List.mem_append.1 mem with mem | mem
  · exact List.all_eq_true.1 self c mem
  · rw [isAttributeChar, letters c mem, Bool.true_or]

/-- An attribute ends in a word character, so at the end of a text it ends at a word's end. -/
theorem tokenAt_member {identifier : String} (nonempty : identifier.toList ≠ [])
    (letters : ∀ c ∈ identifier.toList, Text.isIdentifierChar c) :
    tokenAt (member identifier).chars none (member identifier).chars := by
  obtain ⟨front, c, last⟩ := (List.eq_nil_or_concat identifier.toList).resolve_left nonempty
  have word := isWord_of_isIdentifierChar (letters c (by simp [last]))
  have ends : (member identifier).chars.getLast? = some c := by
    rw [chars_member, last, List.concat_eq_append, ← List.append_assoc, List.getLast?_concat]
  have whole := @tokenAt_append (member identifier).chars none []
  rw [List.append_nil, ends] at whole
  rw [whole]
  simp [Text.isBoundary, word]

theorem map_rename_id (segments : List Segment) : segments.map (rename id) = segments := by
  refine (List.map_congr_left fun s _ => ?_).trans (List.map_id segments)
  cases s <;> rfl

theorem map_rename_comp (f g : String → String) (segments : List Segment) :
    (segments.map (rename f)).map (rename g) = segments.map (rename fun id => g (f id)) := by
  rw [List.map_map]
  refine List.map_congr_left fun s _ => ?_
  cases s <;> rfl

namespace Laid

variable {segments : List Segment}

/-- Renaming attributes leaves the gaps between them. -/
theorem map_rename (laid : Laid segments) {f : String → String}
    (identifiers : ∀ id, Text.isIdentifier id → Text.isIdentifier (f id)) :
    Laid (segments.map (rename f)) := by
  induction laid with
  | nil => exact .nil
  | gap h _ ih => exact .gap h ih
  | last h => exact .last (identifiers _ h)
  | next h gap _ ih => exact .next (identifiers _ h) gap ih

/-- A function that treats both sides of a gap apart acts on each attribute. -/
theorem map_text (laid : Laid segments) {f : List Char → List Char} {g : String → String}
    (empty : f [] = [])
    (split : ∀ c left right, isGap c → f (left ++ c :: right) = f left ++ c :: f right)
    (alone : ∀ id, Text.isIdentifier id → f (member id).chars = (member (g id)).chars) :
    f (text segments) = text (segments.map (rename g)) := by
  induction laid with
  | nil => exact empty
  | @gap c segments h _ ih =>
    have first := split c [] (text segments) h
    rw [List.nil_append, empty, List.nil_append] at first
    rw [text_cons, chars_gap, List.singleton_append, first, ih]
    rfl
  | @last id h => simpa [rename] using alone id h
  | @next id c segments h gap _ ih =>
    have first := split c (member id).chars (text segments) gap
    rw [alone id h, ih] at first
    exact first

/-! ### Attributes -/

/-- A token that is an attribute renames the attributes that are spelled like it, and no others. -/
theorem replaceToken_member (laid : Laid segments) {old new : String} (nonempty : old.toList ≠ [])
    (letters : ∀ c ∈ old.toList, Text.isIdentifierChar c) :
    replaceToken (member old).chars (member new).chars none (text segments) =
      text (segments.map (rename fun id => if id = old then new else id)) := by
  have token : (member old).chars ≠ [] := by simp
  refine laid.map_text (replaceToken_nil token) (fun c left right gap => ?_) fun id h => ?_
  · have outside : c ∉ (member old).chars := fun mem => by
      have inside := isAttributeChar_of_mem_member letters mem
      rw [(breaks_of_isGap gap).endsName] at inside
      cases inside
    exact replaceToken_append_break token outside (breaks_of_isGap gap) left right
  · by_cases same : id = old
    · rw [if_pos same, same, replaceToken_of_match token (tokenAt_member nonempty letters),
        List.drop_length, replaceToken_nil token, List.append_nil]
      rfl
    · rw [if_neg same]
      exact replaceToken_attribute nonempty letters (fun c => SheetName.isIdentifierChar_of_mem h)
        (fun eq => same (String.toList_inj.1 eq).symm) _

/-! ### Keys -/

/-- Where a text starts with letters, these are the name of the instance, and a point follows. -/
theorem not_prefix_letters (laid : Laid segments) {letters : List Char} (nonempty : letters ≠ [])
    (alpha : ∀ c ∈ letters, c.isAlpha) : ¬letters ++ ['$'] <+: text segments := by
  have named : ∀ rest : List Char, ¬letters ++ ['$'] <+: "self.".toList ++ rest := by
    intro rest starts
    have point : '.' ∉ letters ++ ['$'] := by
      simpa using fun mem => absurd (alpha _ mem) (by decide)
    have within : letters ++ ['$'] <+: "self".toList := Text.prefix_left point starts
    exact absurd (within.subset (by simp : '$' ∈ letters ++ ['$'])) (by decide)
  intro starts
  cases laid with
  | nil => simp at starts
  | gap h _ =>
    obtain ⟨c, letters, rfl⟩ := List.exists_cons_of_ne_nil nonempty
    obtain ⟨rfl, -⟩ := List.cons_prefix_cons.1 starts
    have inside : isAttributeChar c := by
      simp [isAttributeChar, Text.isIdentifierChar, Char.isAlphanum, alpha c List.mem_cons_self]
    rw [(breaks_of_isGap h).endsName] at inside
    cases inside
  | last h =>
    rw [text_cons, chars_member, List.append_assoc] at starts
    exact named _ starts
  | next h _ _ =>
    rw [text_cons, chars_member, List.append_assoc] at starts
    exact named _ starts

/-- Nowhere in the text do letters alone stand between two dollar signs, by induction on the
segments. -/
theorem not_infix_letters (laid : Laid segments) {letters : List Char} (nonempty : letters ≠ [])
    (alpha : ∀ c ∈ letters, c.isAlpha) : ¬('$' :: (letters ++ ['$']) <:+: text segments) := by
  have after : ∀ {c : Char} {segments : List Segment}, Laid segments →
      ¬('$' :: (letters ++ ['$']) <:+: text segments) →
      ¬('$' :: (letters ++ ['$']) <:+: c :: text segments) := by
    intro c segments laid later stands
    rcases List.infix_cons_iff.1 stands with starts | within
    · exact laid.not_prefix_letters nonempty alpha (List.cons_prefix_cons.1 starts).2
    · exact later within
  have outside : ∀ {id : String}, Text.isIdentifier id → '$' ∉ (member id).chars := by
    intro id h mem
    have named := isAttributeChar_of_mem_member (fun c => SheetName.isIdentifierChar_of_mem h) mem
    exact absurd named (by decide)
  induction laid with
  | nil => simp
  | gap _ rest ih => exact after rest ih
  | last h => exact fun stands => by simpa using Text.infix_of_notMem_left (outside h) stands
  | next h _ rest ih =>
    exact fun stands => after rest ih (Text.infix_of_notMem_left (outside h) stands)

/-- No key stands in the text. -/
theorem not_infix_key (laid : Laid segments) (sheet : Option String) (r : Range) :
    ¬Reference.keyChars sheet r <:+: text segments := by
  obtain ⟨letters, nonempty, alpha, stands⟩ := Reference.exists_letters_infix_keyChars sheet r
  exact fun h => laid.not_infix_letters nonempty alpha (stands.trans h)

end Laid

end Segment

/-! ### All inputs -/

/-- A reference is known under the key. -/
def IsKey (key : String) : Prop := ∃ (r : Reference) (current : Option String), r.key current = key

/-- The name that one input gives an attribute: its parameter, if its key suggests the attribute and
the attribute can mean nothing else. -/
def parameterOf (t : AliasTable) (input : String × String) (identifier : String) : Option String :=
  if identifierOfKey input.1 = identifier ∧ t.denotes identifier input.1 then some input.2 else none

/-- The name of an attribute once inputs are substituted: the first that an input gives it, or else
its own. -/
def parameterFor (t : AliasTable) (inputs : List (String × String)) (identifier : String) :
    String :=
  (inputs.findSome? (parameterOf t · identifier)).getD identifier

variable {t : AliasTable} {inputs : List (String × String)}

theorem parameterOf_of_unsuggested {input : String × String} {identifier : String}
    (h : identifierOfKey input.1 ≠ identifier) : parameterOf t input identifier = none :=
  if_neg fun suggested => h suggested.1

/-- An attribute that no key suggests keeps its name. -/
theorem parameterFor_of_unsuggested {identifier : String}
    (h : ∀ input ∈ inputs, identifierOfKey input.1 ≠ identifier) :
    parameterFor t inputs identifier = identifier := by
  have none : inputs.findSome? (parameterOf t · identifier) = none :=
    List.findSome?_eq_none_iff.2 fun input mem => parameterOf_of_unsuggested (h input mem)
  rw [parameterFor, none, Option.getD_none]

/-- What the first input renames is suggested by no other one, so the others leave it. -/
theorem parameterFor_cons {input : String × String}
    (apart : ∀ other ∈ inputs, identifierOfKey other.1 ≠ input.2) (identifier : String) :
    parameterFor t (input :: inputs) identifier =
      parameterFor t inputs ((parameterOf t input identifier).getD identifier) := by
  cases given : parameterOf t input identifier with
  | none => simp [parameterFor, given]
  | some parameter =>
    obtain rfl : input.2 = parameter := by
      unfold parameterOf at given
      split at given
      · exact Option.some.inj given
      · cases given
    rw [Option.getD_some, parameterFor_of_unsuggested apart]
    simp [parameterFor, given]

namespace Segment.Laid

variable {segments : List Segment}

/-- The attribute that a key suggests is renamed if it can mean nothing else. -/
theorem replace_suggested (laid : Laid segments) (input : String × String) :
    (if t.denotes (identifierOfKey input.1) input.1 then
        replaceToken (member (identifierOfKey input.1)).chars (member input.2).chars none
          (text segments)
      else text segments) =
      text (segments.map (rename fun id => (parameterOf t input id).getD id)) := by
  cases means : t.denotes (identifierOfKey input.1) input.1 with
  | true =>
    have given : (fun id => (parameterOf t input id).getD id) =
        fun id => if id = identifierOfKey input.1 then input.2 else id := by
      funext id
      by_cases suggested : identifierOfKey input.1 = id
      · subst suggested
        simp [parameterOf, means]
      · rw [parameterOf_of_unsuggested suggested, if_neg (Ne.symm suggested), Option.getD_none]
    rw [if_pos rfl, given, laid.replaceToken_member (identifierOfKey_ne input.1)
      fun c => isIdentifierChar_of_mem_identifierOfKey]
  | false =>
    have given : (fun id => (parameterOf t input id).getD id) = id := by
      funext id
      have refused : ¬(identifierOfKey input.1 = id ∧ t.denotes id input.1) := by
        rintro ⟨rfl, denotes⟩
        exact absurd (means ▸ denotes) Bool.false_ne_true
      rw [parameterOf, if_neg refused, Option.getD_none, id_eq]
    rw [if_neg Bool.false_ne_true, given, map_rename_id]

/-- What one input renames is still a text of attributes. -/
theorem map_parameterOf (laid : Laid segments) {input : String × String}
    (identifier : Text.isIdentifier input.2) :
    Laid (segments.map (rename fun id => (parameterOf t input id).getD id)) := by
  refine laid.map_rename fun id h => ?_
  unfold parameterOf
  split
  · exact identifier
  · exact h

/-- One input renames attributes, and its key stands nowhere. -/
theorem substituteInput (laid : Laid segments) {input : String × String} (key : IsKey input.1)
    (identifier : Text.isIdentifier input.2) :
    Python.substituteInput t input.1 input.2 (text segments) =
      text (segments.map (rename fun id => (parameterOf t input id).getD id)) := by
  obtain ⟨r, current, key⟩ := key
  have renamed := laid.map_parameterOf (t := t) identifier
  have absent := renamed.not_infix_key (r.sheetOr current) r.range
  rw [← String.toList_ofList (l := Reference.keyChars _ _), ← Reference.key, key] at absent
  have suggested := laid.replace_suggested (t := t) input
  unfold Python.substituteInput
  dsimp only [chars_member] at suggested ⊢
  rw [suggested, replaceToken_of_absent absent]

/-- Inputs rename attributes, and change nothing else. -/
theorem foldl_substituteInput (laid : Laid segments) (keys : ∀ input ∈ inputs, IsKey input.1)
    (parameters : ∀ input ∈ inputs, Text.isIdentifier input.2)
    (apart : ∀ input ∈ inputs, ∀ other ∈ inputs, identifierOfKey other.1 ≠ input.2) :
    inputs.foldl (fun cs input => Python.substituteInput t input.1 input.2 cs) (text segments) =
      text (segments.map (rename (parameterFor t inputs))) := by
  induction inputs generalizing segments with
  | nil =>
    have kept : parameterFor t [] = id := rfl
    rw [List.foldl_nil, kept, map_rename_id]
  | cons input inputs ih =>
    have first := laid.substituteInput (t := t) (keys input List.mem_cons_self)
      (parameters input List.mem_cons_self)
    have others : ∀ other ∈ inputs, identifierOfKey other.1 ≠ input.2 := fun other mem =>
      apart input List.mem_cons_self other (List.mem_cons_of_mem input mem)
    have steps : (fun id => parameterFor t inputs ((parameterOf t input id).getD id)) =
        parameterFor t (input :: inputs) :=
      funext fun id => (parameterFor_cons others id).symm
    rw [List.foldl_cons, first,
      ih (laid.map_parameterOf (parameters input List.mem_cons_self))
        (fun other mem => keys other (List.mem_cons_of_mem input mem))
        (fun other mem => parameters other (List.mem_cons_of_mem input mem))
        (fun other mem another mem' => apart other (List.mem_cons_of_mem input mem) another
          (List.mem_cons_of_mem input mem')),
      map_rename_comp, steps]

end Segment.Laid

/-- In a text of attributes with gaps between them, substituting inputs gives an attribute the name
of the parameter whose key suggests it and which it can only mean, and leaves everything else. -/
theorem substituteInputs_attributes (t : AliasTable) (inputs : List (String × String))
    (segments : List Segment) (keys : ∀ input ∈ inputs, IsKey input.1)
    (parameters : ∀ input ∈ inputs, Text.isIdentifier input.2)
    (apart : ∀ input ∈ inputs, ∀ other ∈ inputs, identifierOfKey other.1 ≠ input.2)
    (laid : Segment.Laid segments) :
    (substituteInputs t inputs (String.ofList (Segment.text segments)) =
      String.ofList (Segment.text (segments.map (Segment.rename (parameterFor t inputs))))) ∧
    ∀ identifier, (∀ input ∈ inputs, identifierOfKey input.1 ≠ identifier) →
      parameterFor t inputs identifier = identifier := by
  refine ⟨?_, fun identifier unsuggested => parameterFor_of_unsuggested unsuggested⟩
  rw [substituteInputs, String.toList_ofList]
  exact congrArg String.ofList (laid.foldl_substituteInput keys parameters apart)

/-- Three cells and their parameters; the identifier of the first starts that of the second. -/
def loanInputs : List (String × String) :=
  [("Inputs!$D$1", "Amount"), ("Inputs!$D$12", "Months"), ("Rates!$B$2", "Rate")]

/-- A table in which another cell has the identifier that the third key suggests. -/
def takenRate : AliasTable :=
  ({} : AliasTable).bind "Costs!$A$1" "RatesB2" .definedName

/-- The text `self.InputsD1+(self.InputsD12-self.MyInputsD1)*self.RatesB2`. -/
def loanSegments : List Segment :=
  [.member "InputsD1", .gap '+', .gap '(', .member "InputsD12", .gap '-', .member "MyInputsD1",
    .gap ')', .gap '*', .member "RatesB2"]

/-- The name of the first input is not taken for a part of the second one, and the identifier that
means another cell stays. -/
theorem substituteInputs_attributes_loan :
    substituteInputs takenRate loanInputs
        "self.InputsD1+(self.InputsD12-self.MyInputsD1)*self.RatesB2" =
      "self.Amount+(self.Months-self.MyInputsD1)*self.RatesB2" := by
  have keys : ∀ input ∈ loanInputs, IsKey input.1 := by
    simp only [loanInputs, List.forall_mem_cons]
    exact ⟨⟨.cell "Inputs" { row := 0, col := 3 }, none, by decide +kernel⟩,
      ⟨.cell "Inputs" { row := 11, col := 3 }, none, by decide +kernel⟩,
      ⟨.cell "Rates" { row := 1, col := 1 }, none, by decide +kernel⟩, nofun⟩
  have laid : Segment.Laid loanSegments :=
    .next (by decide) (by decide) (.gap (by decide) (.next (by decide) (by decide)
      (.next (by decide) (by decide) (.gap (by decide) (.last (by decide))))))
  have substituted := (substituteInputs_attributes takenRate loanInputs loanSegments keys
    (by decide +kernel) (by decide +kernel) laid).1
  have before : String.ofList (Segment.text loanSegments) =
      "self.InputsD1+(self.InputsD12-self.MyInputsD1)*self.RatesB2" := by decide +kernel
  have after : String.ofList (Segment.text
        (loanSegments.map (Segment.rename (parameterFor takenRate loanInputs)))) =
      "self.Amount+(self.Months-self.MyInputsD1)*self.RatesB2" := by decide +kernel
  rw [before, after] at substituted
  exact substituted

end Python

end SheetCompiler
