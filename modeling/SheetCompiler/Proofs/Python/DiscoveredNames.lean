import SheetCompiler.Proofs.Alias.Table
import SheetCompiler.Proofs.Grid.RoundTrip
import SheetCompiler.Python.Expression

/-!
# The identifiers of discovered cells

An identifier that is made up for cells consists of the letters and digits of their key, so it ends
in the digits of a row. No reserved word does (`Python.isLegal_fresh`), but eight spreadsheet
functions do, and an identifier that is spelled like a function is written bare. `Python.misread`
lists the cells that get such an identifier, and `Python.discovered_attribute_iff` says that all
others are read as attributes.
-/

namespace SheetCompiler

/-- A name that Python takes: a letter or `_`, then letters, digits and `_`, and no reserved word. -/
def Python.IsLegal (name : String) : Prop :=
  (∃ c cs, name.toList = c :: cs ∧ (c.isAlpha ∨ c = '_') ∧ ∀ d ∈ cs, d.isAlphanum ∨ d = '_') ∧
    name ∉ Python.keywords

/-! ### Made-up identifiers -/

/-- An identifier is made of the letters and digits of a key, with `ref_` in front where they do not
start with a letter. -/
theorem identifierOfKey_eq (key : String) : identifierOfKey key =
    if (key.toList.filter Char.isAlphanum).head?.any Char.isAlpha then
      .ofList (key.toList.filter Char.isAlphanum)
    else "ref_" ++ .ofList (key.toList.filter Char.isAlphanum) := by
  unfold identifierOfKey
  cases key.toList.filter Char.isAlphanum with
  | nil => rfl
  | cons c cs => rfl

/-- The last character is a digit. -/
def Text.EndsInDigit (cs : List Char) : Prop := ∃ front d, cs = front ++ [d] ∧ d.isDigit

namespace Text.EndsInDigit

variable {cs : List Char}

theorem append (ends : EndsInDigit cs) (before : List Char) : EndsInDigit (before ++ cs) := by
  obtain ⟨front, d, rfl, digit⟩ := ends
  exact ⟨before ++ front, d, by simp, digit⟩

theorem toDigits (n : Nat) : EndsInDigit (Nat.toDigits 10 n) := by
  have nonempty : Nat.toDigits 10 n ≠ [] := Nat.toDigits_ne_nil
  refine ⟨_, _, (List.dropLast_append_getLast nonempty).symm, ?_⟩
  exact Nat.isDigit_of_mem_toDigits (by decide) (by decide) (List.getLast_mem nonempty)

theorem address (a : Address) : EndsInDigit a.toChars := (toDigits _).append _

/-- The text of a range ends in the digits of a row. -/
theorem range (r : Range) : EndsInDigit r.toChars := by
  unfold Range.toChars
  split
  · exact address _
  · have written := (address r.last).append (r.first.toChars ++ [':'])
    simpa using written

/-- So does the key of a reference. -/
theorem keyChars (sheet : Option String) (r : Range) : EndsInDigit (Reference.keyChars sheet r) := by
  cases sheet with
  | none => exact range _
  | some sheet =>
    have written := (range r.pinned).append (SheetName.quoteChars sheet.toList ++ ['!'])
    simpa [Reference.keyChars, Reference.onSheet] using written

/-- Leaving out what is neither letter nor digit keeps the digit at the end. -/
theorem filter (ends : EndsInDigit cs) : EndsInDigit (cs.filter Char.isAlphanum) := by
  obtain ⟨front, d, rfl, digit⟩ := ends
  have kept : d.isAlphanum := by simp [Char.isAlphanum, digit]
  exact ⟨front.filter Char.isAlphanum, d, by simp [kept], digit⟩

end Text.EndsInDigit

namespace Python

/-- No reserved word ends in a digit. -/
theorem notMem_keywords {name : String} (ends : Text.EndsInDigit name.toList) : name ∉ keywords := by
  have last : keywords.all (fun word => !word.toList.getLast?.any Char.isDigit) := by decide
  intro mem
  obtain ⟨front, d, chars, digit⟩ := ends
  have noDigit := List.all_eq_true.1 last name mem
  simp [chars, digit] at noDigit

/-- A letter, then letters, digits and `_`, and a digit at the end. -/
structure MadeUp (name : String) : Prop where
  word : ∃ c cs, name.toList = c :: cs ∧ c.isAlpha ∧ ∀ d ∈ cs, d.isAlphanum ∨ d = '_'
  ends : Text.EndsInDigit name.toList

namespace MadeUp

variable {name : String}

theorem isLegal (made : MadeUp name) : IsLegal name := by
  obtain ⟨c, cs, chars, letter, rest⟩ := made.word
  exact ⟨⟨c, cs, chars, .inl letter, rest⟩, notMem_keywords made.ends⟩

/-- A number behind a made-up identifier makes another one. -/
theorem suffixed (made : MadeUp name) (n : Nat) : MadeUp (AliasTable.suffixed name n) := by
  obtain ⟨c, cs, chars, letter, rest⟩ := made.word
  have digit : ∀ d ∈ Nat.toDigits 10 n, d.isAlphanum := fun d mem => by
    simp [Char.isAlphanum, Nat.isDigit_of_mem_toDigits (by decide) (by decide) mem]
  have written : (AliasTable.suffixed name n).toList = name.toList ++ '_' :: Nat.toDigits 10 n := by
    simp [AliasTable.suffixed]
  refine ⟨⟨c, cs ++ '_' :: Nat.toDigits 10 n, by simp [written, chars], letter, ?_⟩, ?_⟩
  · intro d mem
    rcases List.mem_append.1 mem with old | new
    · exact rest d old
    · exact (List.mem_cons.1 new).symm.imp_left (digit d)
  · rw [written]
    simpa using (Text.EndsInDigit.toDigits n).append (name.toList ++ ['_'])

/-- What is made of a key is made up, with or without the front that is put before digits. -/
theorem identifierOfKey {key : String} (ends : Text.EndsInDigit key.toList) :
    MadeUp (identifierOfKey key) := by
  have kept : ∀ d ∈ key.toList.filter Char.isAlphanum, d.isAlphanum :=
    fun d mem => (List.mem_filter.1 mem).2
  have ends := ends.filter
  rw [identifierOfKey_eq]
  split
  next letter =>
    cases chars : key.toList.filter Char.isAlphanum with
    | nil => simp [chars] at letter
    | cons c cs =>
      rw [chars] at kept ends letter
      refine ⟨⟨c, cs, String.toList_ofList, letter, fun d mem => ?_⟩, by rwa [String.toList_ofList]⟩
      exact .inl (kept d (List.mem_cons_of_mem c mem))
  next =>
    have written : ("ref_" ++ String.ofList (key.toList.filter Char.isAlphanum)).toList =
        ['r', 'e', 'f', '_'] ++ key.toList.filter Char.isAlphanum := by
      simp
    refine ⟨⟨'r', ['e', 'f', '_'] ++ key.toList.filter Char.isAlphanum, written, by decide,
      fun d mem => ?_⟩, by rw [written]; exact ends.append _⟩
    rcases List.mem_append.1 mem with before | mem
    · simp only [List.mem_cons, List.not_mem_nil, or_false] at before
      rcases before with rfl | rfl | rfl <;> decide
    · exact .inl (kept d mem)

end MadeUp

/-- Whatever is in use, the identifier that is free for a key is made up. -/
theorem madeUp_fresh (t : AliasTable) {key : String} (ends : Text.EndsInDigit key.toList) :
    MadeUp (t.fresh (identifierOfKey key)) := by
  have made := MadeUp.identifierOfKey ends
  by_cases used : identifierOfKey key ∈ t.used
  · obtain ⟨n, -, written, -⟩ := AliasTable.fresh_of_mem used
    rw [written]
    exact made.suffixed n
  · rwa [AliasTable.fresh_of_notMem used]

/-- A made-up identifier is legal, whatever was in use before. -/
theorem isLegal_fresh (t : AliasTable) {key : String} (ends : Text.EndsInDigit key.toList) :
    IsLegal (t.fresh (identifierOfKey key)) := (madeUp_fresh t ends).isLegal

end Python

/-! ### What is left of a key -/

namespace SheetName

/-- Quotes leave no trace in identifiers. -/
theorem filter_doubleQuotes (cs : List Char) :
    (doubleQuotes cs).filter Char.isAlphanum = cs.filter Char.isAlphanum := by
  have quote : ('\'').isAlphanum = false := by decide
  induction cs with
  | nil => rfl
  | cons c cs ih =>
    rw [doubleQuotes]
    split
    next same => simp [same, quote, ih]
    next => simp [List.filter_cons, ih]

/-- Quoted or not, a sheet leaves its letters and digits. -/
theorem filter_quoteChars (cs : List Char) :
    (quoteChars cs).filter Char.isAlphanum = cs.filter Char.isAlphanum := by
  have quote : ('\'').isAlphanum = false := by decide
  unfold quoteChars
  split
  · rfl
  · simp [quote, filter_doubleQuotes]

end SheetName

/-- The marks of an address are left out. -/
theorem Address.filter_pinned (a : Address) :
    a.pinned.toChars.filter Char.isAlphanum = a.unpinned.toChars := by
  have letters : (columnLetters a.col).filter Char.isAlphanum = columnLetters a.col :=
    List.filter_eq_self.2 fun c mem => by simp [Char.isAlphanum, isAlpha_of_mem_columnLetters mem]
  have digits : (Nat.toDigits 10 (a.row + 1)).filter Char.isAlphanum = Nat.toDigits 10 (a.row + 1) :=
    List.filter_eq_self.2 fun c mem => by
      simp [Char.isAlphanum, Nat.isDigit_of_mem_toDigits (by decide) (by decide) mem]
  have mark : ('$').isAlphanum = false := by decide
  simp [toChars, pinned, unpinned, Address.mark, letters, digits, mark]

theorem Address.filter_unpinned (a : Address) :
    a.unpinned.toChars.filter Char.isAlphanum = a.unpinned.toChars := by
  rw [← filter_pinned, List.filter_filter]
  simp only [Bool.and_self]

namespace Range

variable (r : Range)

theorem toChars_unpinned : r.unpinned.toChars =
    if r.isSingle then r.first.unpinned.toChars
    else r.first.unpinned.toChars ++ ':' :: r.last.unpinned.toChars := rfl

theorem filter_unpinned : r.unpinned.toChars.filter Char.isAlphanum =
    if r.isSingle then r.first.unpinned.toChars
    else r.first.unpinned.toChars ++ r.last.unpinned.toChars := by
  have colon : (':').isAlphanum = false := by decide
  rw [toChars_unpinned]
  split <;> simp [Address.filter_unpinned, colon]

theorem filter_pinned :
    r.pinned.toChars.filter Char.isAlphanum = r.unpinned.toChars.filter Char.isAlphanum := by
  have colon : (':').isAlphanum = false := by decide
  have same : r.pinned.toChars = if r.isSingle then r.first.pinned.toChars
      else r.first.pinned.toChars ++ ':' :: r.last.pinned.toChars := rfl
  rw [filter_unpinned, same]
  split <;> simp [Address.filter_pinned, colon]

end Range

/-- The letters and digits of the name of a sheet. -/
def SheetName.remains (sheet : Option String) : List Char :=
  (sheet.getD "").toList.filter Char.isAlphanum

/-- What is left of a key are the letters and digits of the sheet, then those of the cells. -/
theorem Reference.filter_keyChars (sheet : Option String) (r : Range) :
    (keyChars sheet r).filter Char.isAlphanum =
      SheetName.remains sheet ++ r.unpinned.toChars.filter Char.isAlphanum := by
  have bang : ('!').isAlphanum = false := by decide
  cases sheet with
  | none => exact r.filter_pinned
  | some sheet =>
    simp [keyChars, onSheet, SheetName.remains, SheetName.filter_quoteChars, bang, r.filter_pinned]

/-! ### Functions that end in a digit -/

/-- The ways to cut a text in two. -/
def Text.cuts (cs : List Char) : List (List Char × List Char) :=
  (List.range (cs.length + 1)).map fun n => (cs.take n, cs.drop n)

theorem Text.mem_cuts (front back : List Char) : (front, back) ∈ cuts (front ++ back) := by
  refine List.mem_map.2 ⟨front.length, List.mem_range.2 ?_, by simp⟩
  rw [List.length_append]
  omega

def Text.isDigitByte (b : UInt8) : Bool := 48 ≤ b && b ≤ 57

namespace Python

/-- The spreadsheet functions whose names end in a digit. -/
def digitFunctions : List String :=
  ["ATAN2", "DAYS360", "IMLOG10", "IMLOG2", "LOG10", "SUMX2MY2", "SUMX2PY2", "SUMXMY2"]

/-- The last byte of a text that ends in a digit is this digit. -/
theorem lastByte_of_endsInDigit {name : String} (ends : Text.EndsInDigit name.toList) :
    name.toByteArray.data.toList.getLast?.any Text.isDigitByte := by
  obtain ⟨front, d, chars, digit⟩ := ends
  have byte : ∀ n : Fin 128, (Char.ofNat n).isDigit →
      (String.utf8EncodeChar (Char.ofNat n)).getLast?.any Text.isDigitByte := by
    decide
  have last := Text.of_ascii
    (P := fun c => c.isDigit → (String.utf8EncodeChar c).getLast?.any Text.isDigitByte)
    byte (.inr digit) digit
  obtain ⟨b, found, inside⟩ := (Option.any_eq_true _ _).1 last
  rw [← String.utf8Encode_toList, List.utf8Encode, List.data_toByteArray, List.toList_toArray, chars,
    List.flatMap_append, List.flatMap_singleton, List.getLast?_append, found]
  exact inside

/-- Of the functions, only those of the list end in a digit. -/
theorem isFunction_iff_of_endsInDigit {name : String} (ends : Text.EndsInDigit name.toList) :
    isFunction name ↔ name ∈ digitFunctions := by
  -- On the bytes, which cost the kernel less than the characters.
  have found : spreadsheetFunctions.filter
      (fun name => name.toByteArray.data.toList.getLast?.any Text.isDigitByte) = digitFunctions := by
    decide +kernel
  rw [isFunction, List.contains_iff_mem, ← found, List.mem_filter,
    and_iff_left (lastByte_of_endsInDigit ends)]

/-- The letters and digits of a sheet, and cells on it, that together spell a function. -/
def misread : List (String × String) :=
  [("ATA", "N2"), ("AT", "AN2"), ("A", "TAN2"),
    ("DAY", "S360"), ("DA", "YS360"), ("D", "AYS360"),
    ("IMLO", "G10"), ("IML", "OG10"), ("IM", "LOG10"),
    ("IMLO", "G2"), ("IML", "OG2"), ("IM", "LOG2"),
    ("LO", "G10"), ("L", "OG10"), ("", "LOG10"),
    ("SUMX2M", "Y2"), ("SUMX2", "MY2"), ("SUM", "X2:MY2"), ("SU", "MX2:MY2"), ("S", "UMX2:MY2"),
    ("SUMX2P", "Y2"), ("SUMX2", "PY2"), ("SUM", "X2:PY2"), ("SU", "MX2:PY2"), ("S", "UMX2:PY2"),
    ("SUMXM", "Y2"), ("SUMX", "MY2")]

/-- The listed cells spell functions. -/
theorem misread_functions : misread.all (fun pair =>
    digitFunctions.contains (.ofList (pair.1.toList ++ pair.2.toList.filter Char.isAlphanum))) := by
  decide +kernel

/-- A cell that, with what stands before it, spells a function is listed. -/
theorem cells_misread : digitFunctions.all fun name => (Text.cuts name.toList).all fun cut =>
    !(Address.ofChars cut.2).toOption.isSome ||
      misread.contains (.ofList cut.1, .ofList cut.2) := by
  decide +kernel

/-- Two corners that, with what stands before them, spell a function are listed. -/
theorem corners_misread : digitFunctions.all fun name => (Text.cuts name.toList).all fun cut =>
    (Text.cuts cut.2).all fun corners =>
      !((Address.ofChars corners.1).toOption.isSome && (Address.ofChars corners.2).toOption.isSome) ||
        misread.contains (.ofList cut.1, .ofList (corners.1 ++ ':' :: corners.2)) := by
  decide +kernel

/-- Cells spell a function together with what is left of their sheet exactly if they are listed. -/
theorem mem_misread_iff {sheet : List Char} {r : Range} (here : r.InSheet) :
    (.ofList sheet, r.unpinned.text) ∈ misread ↔
      .ofList (sheet ++ r.unpinned.toChars.filter Char.isAlphanum) ∈ digitFunctions := by
  constructor
  · intro mem
    have spelled := List.all_eq_true.1 misread_functions _ mem
    simpa [Range.text] using spelled
  · intro mem
    have read : ∀ a : Address, a.InSheet → (Address.ofChars a.unpinned.toChars).toOption.isSome :=
      fun a inside => by rw [Address.ofChars_toChars (a := a.unpinned) inside]; rfl
    have cells := List.all_eq_true.1 cells_misread _ mem
    have corners := List.all_eq_true.1 corners_misread _ mem
    rw [String.toList_ofList] at cells corners
    have cut := Text.mem_cuts sheet (r.unpinned.toChars.filter Char.isAlphanum)
    have cells := List.all_eq_true.1 cells _ cut
    have corners := List.all_eq_true.1 corners _ cut
    rw [Range.text, Range.toChars_unpinned]
    rw [Range.filter_unpinned] at cells corners
    -- The colon between two corners is lost, so where one ends and the next starts is tried out.
    cases single : r.isSingle with
    | true =>
      simp only [single, if_true] at cells ⊢
      simpa [read _ here.1] using cells
    | false =>
      simp only [single, Bool.false_eq_true, if_false] at corners ⊢
      have corners := List.all_eq_true.1 corners _ (Text.mem_cuts _ _)
      simpa [read _ here.1, read _ here.2] using corners

theorem underscore_notMem_of_mem {name : String} (function : name ∈ digitFunctions) :
    '_' ∉ name.toList := by
  have plain : digitFunctions.all (fun name => !name.toList.contains '_') := by decide
  simpa using List.all_eq_true.1 plain name function

theorem isAlpha_head_of_mem {name : String} (function : name ∈ digitFunctions) :
    name.toList.head?.any Char.isAlpha := by
  have letter : digitFunctions.all (fun name => name.toList.head?.any Char.isAlpha) := by decide
  exact List.all_eq_true.1 letter name function

/-- A made-up identifier is a function exactly if the letters and digits of its key are one, and
nothing else has them as its identifier. -/
theorem isFunction_fresh_iff (t : AliasTable) {key : String} (ends : Text.EndsInDigit key.toList) :
    isFunction (t.fresh (identifierOfKey key)) ↔ identifierOfKey key ∉ t.used ∧
      .ofList (key.toList.filter Char.isAlphanum) ∈ digitFunctions := by
  rw [isFunction_iff_of_endsInDigit (madeUp_fresh t ends).ends]
  constructor
  · intro function
    by_cases used : identifierOfKey key ∈ t.used
    · obtain ⟨n, -, written, -⟩ := AliasTable.fresh_of_mem used
      exact absurd (by simp [written, AliasTable.suffixed]) (underscore_notMem_of_mem function)
    · rw [AliasTable.fresh_of_notMem used, identifierOfKey_eq] at function
      split at function
      · exact ⟨used, function⟩
      · exact absurd (by simp) (underscore_notMem_of_mem function)
  · rintro ⟨free, function⟩
    have letter := isAlpha_head_of_mem function
    rw [String.toList_ofList] at letter
    rwa [AliasTable.fresh_of_notMem free, identifierOfKey_eq, if_pos letter]

/-- A name is written as an attribute unless it is a global symbol. -/
theorem Symbols.qualify_eq_self_iff (symbols : Symbols) (name : String) :
    symbols.qualify name = "self." ++ name ↔ symbols.contains name = false := by
  unfold qualify
  split
  next bare =>
    have longer : name ≠ "self." ++ name := by
      intro h
      have := congrArg String.length h
      rw [String.length_append] at this
      have : "self.".length = 5 := by decide
      omega
    simp [longer, bare]
  next other => simpa using other

/-- Where nothing is declared, a legal name is a global symbol if it is a function. -/
theorem Symbols.contains_of_isLegal {identifier : String} (legal : IsLegal identifier) :
    ({} : Symbols).contains identifier = isFunction identifier := by
  have word : isKeyword identifier = false := by
    simpa [isKeyword] using legal.2
  simp [contains, word]

/-- The cells that are met for the first time get a legal identifier. It is a function, and then not
read as an attribute, exactly if the cells are listed in `misread` and no identifier is spelled like
theirs. -/
theorem discovered_attribute_iff (t : AliasTable) {r : Reference} (current : Option String)
    (here : r.range.InSheet) (new : t.lookup (t.key r current) = none) :
    IsLegal (t.resolve r current).1 ∧
    (isFunction (t.resolve r current).1 ↔ identifierOfKey (t.key r current) ∉ t.used ∧
      (.ofList (SheetName.remains (t.sheetFor r current)), r.range.unpinned.text) ∈ misread) ∧
    ((Scope.term { sheet := current } (.range r) t).1 = "self." ++ (t.resolve r current).1 ↔
      isFunction (t.resolve r current).1 = false) := by
  have made : (t.resolve r current).1 = t.fresh (identifierOfKey (t.key r current)) := by
    rw [AliasTable.resolve_of_unbound (AliasTable.lookup_eq_none_iff.1 new), AliasTable.synthesize_fst]
  have chars : (t.key r current).toList = Reference.keyChars (t.sheetFor r current) r.range :=
    String.toList_ofList
  have ends : Text.EndsInDigit (t.key r current).toList := chars ▸ .keyChars _ _
  have legal : IsLegal (t.resolve r current).1 := made ▸ isLegal_fresh t ends
  refine ⟨legal, ?_, ?_⟩
  · rw [made, isFunction_fresh_iff t ends, chars, Reference.filter_keyChars, mem_misread_iff here]
  · rw [← Symbols.contains_of_isLegal legal]
    exact Symbols.qualify_eq_self_iff {} _

/-- The cell `A!TAN2`. -/
def tangent : Reference := .cell "A" { row := 1, col := 13559 }

/-- Its identifier is the name of the arctangent, which is written bare. -/
theorem tangent_misread :
    tangent.range.InSheet ∧ AliasTable.lookup {} (AliasTable.key {} tangent none) = none ∧
    (AliasTable.resolve {} tangent none).1 = "ATAN2" ∧ isFunction "ATAN2" ∧
    (Scope.formulaText {} "=A!TAN2*2" {}).toOption.map (·.1) = some "ATAN2*2" := by
  decide +kernel

/-- A table where the name of the arctangent is not free. -/
def arctangentTaken : AliasTable := { used := ["ATAN2"] }

/-- There the cell is read as an attribute. -/
theorem discovered_attribute_iff_taken :
    tangent.range.InSheet ∧ arctangentTaken.lookup (arctangentTaken.key tangent none) = none ∧
    (arctangentTaken.resolve tangent none).1 = "ATAN2_2" ∧ IsLegal "ATAN2_2" ∧
    (Scope.term {} (.range tangent) arctangentTaken).1 = "self.ATAN2_2" := by
  have here : tangent.range.InSheet := by decide
  have new : arctangentTaken.lookup (arctangentTaken.key tangent none) = none := rfl
  have identifier : (arctangentTaken.resolve tangent none).1 = "ATAN2_2" := by decide +kernel
  have taken : identifierOfKey (arctangentTaken.key tangent none) ∈ arctangentTaken.used := by
    decide +kernel
  obtain ⟨legal, function, read⟩ := discovered_attribute_iff arctangentTaken none here new
  rw [identifier] at legal function read
  have bare : isFunction "ATAN2_2" = false := Bool.eq_false_iff.2 fun h => (function.1 h).1 taken
  exact ⟨here, new, identifier, legal, read.2 bare⟩

end Python

end SheetCompiler
