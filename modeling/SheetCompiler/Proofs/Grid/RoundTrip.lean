import SheetCompiler.AliasTable
import SheetCompiler.Proofs.Grid.AddressText

/-!
# Reading back what was written

Ranges and references are read as they were written, since addresses are: `Range.ofChars_toChars`,
`Reference.ofChars_onSheet`. So the key of a reference names the reference's cells with all marks set,
and has itself as its key (`AliasTable.parse_key`, `AliasTable.key_of_parse_key`).
-/

namespace SheetCompiler

open Fallible

namespace Text

/-- A text is cut at the first separator. -/
theorem cutFirst_append {sep : Char} {before after : List Char} (h : sep ∉ before) :
    cutFirst sep (before ++ sep :: after) = some (before, after) := by
  induction before with
  | nil => simp [cutFirst]
  | cons c before ih =>
    simp only [List.mem_cons, not_or] at h
    simp [cutFirst, Ne.symm h.1, ih h.2]

theorem cutFirst_of_notMem {sep : Char} {cs : List Char} (h : sep ∉ cs) : cutFirst sep cs = none := by
  induction cs with
  | nil => rfl
  | cons c cs ih =>
    simp only [List.mem_cons, not_or] at h
    simp [cutFirst, Ne.symm h.1, ih h.2]

theorem cutLast_of_notMem {sep : Char} {cs : List Char} (h : sep ∉ cs) : cutLast sep cs = none := by
  induction cs with
  | nil => rfl
  | cons c cs ih =>
    simp only [List.mem_cons, not_or] at h
    simp [cutLast, Ne.symm h.1, ih h.2]

/-- A text is cut at the last separator. -/
theorem cutLast_append {sep : Char} {before after : List Char} (h : sep ∉ after) :
    cutLast sep (before ++ sep :: after) = some (before, after) := by
  induction before with
  | nil => simp [cutLast, cutLast_of_notMem h]
  | cons c before ih => simp [cutLast, ih]

theorem dropMark_of_head? {mark : Char} {cs : List Char} (h : ∀ c ∈ cs.head?, c ≠ mark) :
    dropMark mark cs = cs := by
  cases cs with
  | nil => rfl
  | cons c cs => simp [dropMark, h c (by simp)]

end Text

/-! ### Ranges -/

namespace Address

/-- A moved cell is on the sheet, as far away as asked. -/
theorem of_offset {a b : Address} {rows cols : Int} (h : a.offset rows cols = some b) :
    b.InSheet ∧ (b.row : Int) = a.row + rows ∧ (b.col : Int) = a.col + cols := by
  unfold offset at h
  dsimp only at h
  split at h
  next inside =>
    cases h
    obtain ⟨rowZero, colZero, row, col⟩ := inside
    refine ⟨⟨?_, ?_⟩, Int.toNat_of_nonneg rowZero, Int.toNat_of_nonneg colZero⟩
    · dsimp only
      omega
    · dsimp only
      omega
  next => cases h

end Address

namespace Range

/-- The range lies on the sheet and starts at its upper left corner. -/
structure Normalized (r : Range) : Prop where
  inSheet : r.InSheet
  ordered : r.Ordered

/-- The range between two cells of the sheet lies on it. -/
theorem normalized_ofCorners {a b : Address} (ha : a.InSheet) (hb : b.InSheet) :
    (ofCorners a b).Normalized := by
  obtain ⟨rowA, colA⟩ := ha
  obtain ⟨rowB, colB⟩ := hb
  refine ⟨⟨⟨?_, ?_⟩, ⟨?_, ?_⟩⟩, ⟨?_, ?_⟩⟩ <;> dsimp only [ofCorners] <;> omega

/-- Corners in order stay as they are. -/
theorem ofCorners_of_ordered {r : Range} (h : r.Ordered) : ofCorners r.first r.last = r := by
  obtain ⟨rows, cols⟩ := h
  simp only [ofCorners, Nat.min_eq_left rows, Nat.min_eq_left cols, Nat.max_eq_right rows,
    Nat.max_eq_right cols]

/-- Moving a range moves both corners. -/
theorem of_offset {r r' : Range} (ordered : r.Ordered) {rows cols : Int}
    (h : r.offset rows cols = some r') :
    (r'.first.row : Int) = r.first.row + rows ∧ (r'.first.col : Int) = r.first.col + cols ∧
    (r'.last.row : Int) = r.last.row + rows ∧ (r'.last.col : Int) = r.last.col + cols := by
  obtain ⟨first, hfirst, h⟩ := Option.bind_eq_some_iff.1 h
  obtain ⟨last, hlast, h⟩ := Option.bind_eq_some_iff.1 h
  obtain ⟨-, top, left⟩ := Address.of_offset hfirst
  obtain ⟨-, bottom, right⟩ := Address.of_offset hlast
  obtain ⟨rowsOrdered, colsOrdered⟩ := ordered
  have moved : (⟨first, last⟩ : Range).Ordered := ⟨by dsimp only; omega, by dsimp only; omega⟩
  cases h
  rw [ofCorners_of_ordered moved]
  exact ⟨top, left, bottom, right⟩

/-- Ranges hold no blanks and nothing that divides references. -/
theorem plain_of_mem_toChars {r : Range} {c : Char} (h : c ∈ r.toChars) :
    Text.isBlank c = false ∧ c ≠ '!' ∧ c ≠ '=' := by
  have corner : ∀ {a : Address}, c ∈ a.toChars → Text.isBlank c = false ∧ c ≠ '!' ∧ c ≠ '=' :=
    fun h => ⟨(Address.plain_of_mem_toChars h).1, (Address.plain_of_mem_toChars h).2.2⟩
  unfold toChars at h
  split at h
  · exact corner h
  · rcases List.mem_append.1 h with h | h
    · exact corner h
    · rcases List.mem_cons.1 h with rfl | h
      · decide
      · exact corner h

theorem toChars_ne_nil (r : Range) : r.toChars ≠ [] := by
  unfold toChars
  split
  · exact r.first.toChars_ne_nil
  · simp

/-- A range is read as it was written; a single cell is written once. -/
theorem ofChars_toChars {r : Range} (h : r.Normalized) :
    ofChars r.toChars = .ok (if r.isSingle then .single r.first else r) := by
  have tight := Text.tight_of_forall fun c hc => (plain_of_mem_toChars (r := r) hc).1
  have noColon : ∀ a : Address, ':' ∉ a.toChars := fun a hc =>
    (Address.plain_of_mem_toChars hc).2.1 rfl
  simp only [ofChars, Text.trim_of_tight tight]
  by_cases single : r.isSingle
  · have text : r.toChars = r.first.toChars := by simp [toChars, single]
    rw [text, Text.cutFirst_of_notMem (noColon r.first), if_pos single]
    dsimp only
    rw [Address.ofChars_toChars h.inSheet.1]
    rfl
  · have text : r.toChars = r.first.toChars ++ ':' :: r.last.toChars := by simp [toChars, single]
    rw [text, Text.cutFirst_append (noColon r.first), if_neg single]
    dsimp only
    rw [Address.ofChars_toChars h.inSheet.1, Address.ofChars_toChars h.inSheet.2]
    exact congrArg Except.ok (ofCorners_of_ordered h.ordered)

theorem pinned_of_isSingle {r : Range} (h : r.isSingle) : .single r.first.pinned = r.pinned := by
  obtain ⟨row, col⟩ := Address.sameCell_iff.1 h
  simp [single, pinned, Address.pinned, row, col]

/-- What the text of a range with all marks is read as. -/
theorem ofChars_pinned {r : Range} (h : r.Normalized) : ofChars r.pinned.toChars = .ok r.pinned := by
  have pinned : r.pinned.Normalized := ⟨h.inSheet, h.ordered⟩
  rw [ofChars_toChars pinned]
  split
  next single => exact congrArg Except.ok (pinned_of_isSingle single)
  next => rfl

/-- What is read as a range lies on the sheet, its corners in order. -/
theorem normalized_of_ofChars {cs : List Char} {r : Range} (h : ofChars cs = .ok r) :
    r.Normalized := by
  unfold ofChars at h
  dsimp only at h
  split at h
  next left right _ =>
    obtain ⟨a, ha, h⟩ := Fallible.bind_eq_ok_iff.1 h
    obtain ⟨b, hb, h⟩ := Fallible.bind_eq_ok_iff.1 h
    cases h
    exact normalized_ofCorners (Address.inSheet_of_ofChars (Fallible.mapError_eq_ok_iff.1 ha))
      (Address.inSheet_of_ofChars (Fallible.mapError_eq_ok_iff.1 hb))
  next =>
    obtain ⟨a, ha, h⟩ := Fallible.bind_eq_ok_iff.1 (Fallible.mapError_eq_ok_iff.1 h)
    cases h
    have inSheet := Address.inSheet_of_ofChars ha
    exact ⟨⟨inSheet, inSheet⟩, Nat.le_refl _, Nat.le_refl _⟩

end Range

/-! ### References -/

namespace SheetName

theorem isBlank_of_isIdentifierChar {c : Char} (h : Text.isIdentifierChar c) :
    Text.isBlank c = false := by
  rcases Bool.or_eq_true_iff.1 h with h | h
  · exact Text.isBlank_of_isAlphanum h
  · rw [beq_iff_eq.1 h]
    decide

/-- All characters of an identifier are of one class, also the first one. -/
theorem isIdentifierChar_of_mem {cs : List Char} (h : Text.isIdentifierChars cs) {c : Char}
    (hc : c ∈ cs) : Text.isIdentifierChar c := by
  cases cs with
  | nil => simp at hc
  | cons first rest =>
    obtain ⟨start, others⟩ := Bool.and_eq_true_iff.1 h
    rcases List.mem_cons.1 hc with rfl | hc
    · rcases Bool.or_eq_true_iff.1 start with alpha | mark
      · simp [Text.isIdentifierChar, Char.isAlphanum, alpha]
      · simp [Text.isIdentifierChar, beq_iff_eq.1 mark]
    · exact List.all_eq_true.1 others c hc

/-- A sheet name in a reference starts and ends with a quote or a character of an identifier. -/
theorem tight_quoteChars (sheet : List Char) : Text.Tight (quoteChars sheet) := by
  unfold quoteChars
  split
  next identifier =>
    exact Text.tight_of_forall fun c hc =>
      isBlank_of_isIdentifierChar (isIdentifierChar_of_mem identifier hc)
  next =>
    have quote : Text.isBlank '\'' = false := by decide
    refine ⟨by simp [quote], ?_⟩
    rw [List.getLast?_append]
    simp [quote]

/-- A sheet name does not start like a formula. -/
theorem ne_of_mem_head?_quoteChars {sheet : List Char} {c : Char}
    (h : c ∈ (quoteChars sheet).head?) : c ≠ '=' := by
  rintro rfl
  unfold quoteChars at h
  split at h
  next identifier =>
    exact absurd (isIdentifierChar_of_mem identifier (List.mem_of_mem_head? h)) (by decide)
  next => exact absurd h (by simp)

theorem quoteChars_ne_nil (sheet : List Char) : quoteChars sheet ≠ [] := by
  unfold quoteChars
  split
  next identifier =>
    rintro rfl
    simp [Text.isIdentifierChars] at identifier
  next => simp

/-- A sheet name is read as it was written, in quotes or without. -/
theorem unquote_quoteChars (sheet : List Char) :
    unquote (quoteChars sheet) = .ok (String.ofList sheet) := by
  rw [unquote, Text.trim_of_tight (tight_quoteChars sheet)]
  by_cases identifier : Text.isIdentifierChars sheet
  · rw [quoteChars, if_pos identifier]
    cases sheet with
    | nil => simp [Text.isIdentifierChars] at identifier
    | cons c cs =>
      split
      next eq => simp at eq
      next eq =>
        have := isIdentifierChar_of_mem identifier List.mem_cons_self
        rw [(List.cons.inj eq).1] at this
        exact absurd this (by decide)
      next => rfl
  · have last : (doubleQuotes sheet ++ ['\'']).getLast? = some '\'' := by simp
    have inner : (doubleQuotes sheet ++ ['\'']).dropLast = doubleQuotes sheet := by simp
    rw [quoteChars, if_neg identifier, List.cons_append]
    simp only [last, if_true, inner, collapseQuotes_doubleQuotes]

end SheetName

namespace Reference

/-- The text of a range on a sheet is read as the sheet and what the range alone is read as. -/
theorem ofChars_onSheet (sheet : Option String) {r r' : Range}
    (h : Range.ofChars r.toChars = .ok r') : ofChars (onSheet sheet r.toChars) = .ok ⟨sheet, r'⟩ := by
  have noMark : '!' ∉ r.toChars := fun hc => (Range.plain_of_mem_toChars hc).2.1 rfl
  have tightRange : Text.Tight r.toChars :=
    Text.tight_of_forall fun c hc => (Range.plain_of_mem_toChars hc).1
  cases sheet with
  | none =>
    have unmarked : Text.dropMark '=' r.toChars = r.toChars := Text.dropMark_of_head? fun c hc =>
      (Range.plain_of_mem_toChars (List.mem_of_mem_head? hc)).2.2
    simp only [ofChars, onSheet, Text.trim_of_tight tightRange, unmarked,
      Text.cutLast_of_notMem noMark, h]
    rfl
  | some sheet =>
    have head : (SheetName.quoteChars sheet.toList ++ '!' :: r.toChars).head? =
        (SheetName.quoteChars sheet.toList).head? := by
      rw [List.head?_append_of_ne_nil _ (SheetName.quoteChars_ne_nil _)]
    have tight : Text.Tight (SheetName.quoteChars sheet.toList ++ '!' :: r.toChars) := by
      refine ⟨head ▸ (SheetName.tight_quoteChars sheet.toList).1, ?_⟩
      rw [List.getLast?_append, List.getLast?_cons_of_ne_nil r.toChars_ne_nil]
      simpa [r.toChars_ne_nil] using tightRange.2
    have unmarked : Text.dropMark '=' (SheetName.quoteChars sheet.toList ++ '!' :: r.toChars) =
        SheetName.quoteChars sheet.toList ++ '!' :: r.toChars :=
      Text.dropMark_of_head? fun c hc => SheetName.ne_of_mem_head?_quoteChars (head ▸ hc)
    simp only [ofChars, onSheet, Text.trim_of_tight tight, unmarked, Text.cutLast_append noMark,
      SheetName.unquote_quoteChars, h]
    simp only [String.ofList_toList]
    rfl

/-- What is read as a reference lies on its sheet. -/
theorem normalized_of_parse {s : String} {r : Reference} (h : parse s = .ok r) :
    r.range.Normalized := by
  unfold parse ofChars at h
  dsimp only at h
  split at h
  · obtain ⟨sheet, -, h⟩ := Fallible.bind_eq_ok_iff.1 h
    obtain ⟨range, hrange, h⟩ := Fallible.bind_eq_ok_iff.1 h
    cases h
    exact Range.normalized_of_ofChars (Fallible.mapError_eq_ok_iff.1 hrange)
  · obtain ⟨range, hrange, h⟩ := Fallible.bind_eq_ok_iff.1 h
    cases h
    exact Range.normalized_of_ofChars (Fallible.mapError_eq_ok_iff.1 hrange)

end Reference

/-! ### Keys -/

namespace AliasTable

variable (t : AliasTable) {r : Reference}

/-- Which spelling is registered depends on the letters alone. -/
theorem registered?_congr {a b : String} (h : Text.sameLetters a b) :
    t.registered? a = t.registered? b := by
  unfold registered?
  congr 1
  funext known
  refine Bool.eq_iff_iff.2 ⟨fun ha => ?_, fun hb => ?_⟩
  · exact Text.sameLetters_trans ha h
  · exact Text.sameLetters_trans hb (Text.sameLetters_symm h)

/-- Keys spell a sheet in one way. -/
theorem registered?_getD (sheet : String) :
    (t.registered? ((t.registered? sheet).getD sheet)).getD ((t.registered? sheet).getD sheet) =
      (t.registered? sheet).getD sheet := by
  cases h : t.registered? sheet with
  | none => simp [h]
  | some known =>
    have same : Text.sameLetters known sheet := by simpa using List.find?_some h
    simp [t.registered?_congr same, h]

/-- A key is read as its cells with all marks set, on the sheet as keys spell it. -/
theorem parse_key (h : r.range.Normalized) (current : Option String) :
    Reference.parse (t.key r current) = .ok ⟨t.sheetFor r current, r.range.pinned⟩ := by
  rw [Reference.parse, key, String.toList_ofList]
  exact Reference.ofChars_onSheet _ (Range.ofChars_pinned h)

/-- What a key is read as has this key. -/
theorem key_of_parse_key (h : r.range.Normalized) (current : Option String) {q : Reference}
    (parsed : Reference.parse (t.key r current) = .ok q) : t.key q none = t.key r current := by
  rw [parse_key t h current] at parsed
  cases parsed
  have sheet : t.sheetFor ⟨t.sheetFor r current, r.range.pinned⟩ none = t.sheetFor r current := by
    unfold sheetFor Reference.sheetOr
    cases r.sheet <|> current with
    | none => rfl
    | some sheet => simp [registered?_getD]
  rw [key, key, sheet]
  rfl

end AliasTable

end SheetCompiler
