import SheetCompiler.Proofs.Alias.Resolution

/-!
# Keys and the cells they stand for

The key of a reference is one text: the sheet, bare or in quotes, then the corners of the range.
Sheet names may hold quotes, exclamation marks and dollar signs, or look like keys themselves, and
still the text can be taken apart in one way only (`Reference.keyChars_inj`). So two references
have one key exactly if they stand for the same cells (`AliasTable.key_eq_iff`), and a formula can
be spelled with either of them: what is written for it, and the table after it, stay the same
(`Python.Scope.formula_congr`).
-/

namespace SheetCompiler

/-! ### Taking a key apart -/

/-- The corners of the ranges are the same cells, whatever their marks. -/
def Range.SameCells (r q : Range) : Prop :=
  r.first.sameCell q.first ∧ r.last.sameCell q.last

instance (r q : Range) : Decidable (r.SameCells q) :=
  inferInstanceAs (Decidable (_ ∧ _))

/-- With all marks set, addresses differ in their cells only. -/
theorem Address.pinned_eq_iff {a b : Address} : a.pinned = b.pinned ↔ a.sameCell b := by
  rw [sameCell_iff]
  simp [pinned]

/-- An address can be read back, so its text tells it. -/
theorem Address.toChars_inj {a b : Address} (ha : a.InSheet) (hb : b.InSheet)
    (h : a.toChars = b.toChars) : a = b := by
  have read : ofChars a.toChars = ofChars b.toChars := by rw [h]
  rw [ofChars_toChars ha, ofChars_toChars hb] at read
  exact Except.ok.inj read

namespace Range

theorem eq_of_corners {r q : Range} (first : r.first = q.first) (last : r.last = q.last) :
    r = q := by
  obtain ⟨a, b⟩ := r
  obtain rfl : a = q.first := first
  obtain rfl : b = q.last := last
  rfl

/-- With all marks set, ranges differ in their corners only. -/
theorem pinned_eq_iff {r q : Range} : r.pinned = q.pinned ↔ r.SameCells q := by
  unfold pinned SameCells
  rw [Range.mk.injEq, Address.pinned_eq_iff, Address.pinned_eq_iff]

/-- A range of one cell with all marks is that cell twice. -/
theorem last_pinned_of_isSingle {r : Range} (h : r.isSingle) : r.pinned.last = r.pinned.first := by
  rw [← pinned_of_isSingle h]
  rfl

/-- The text of a range with all marks tells its corners, in whatever order they are. -/
theorem toChars_pinned_inj {r q : Range} (hr : r.InSheet) (hq : q.InSheet)
    (h : r.pinned.toChars = q.pinned.toChars) : r.pinned = q.pinned := by
  have noColon : ∀ a : Address, ':' ∉ a.toChars := fun a hc =>
    (Address.plain_of_mem_toChars hc).2.1 rfl
  have single : ∀ {r : Range}, r.isSingle → Text.cutFirst ':' r.pinned.toChars = none ∧
      r.pinned.toChars = r.pinned.first.toChars := by
    intro r hr
    have text : r.pinned.toChars = r.pinned.first.toChars := if_pos hr
    exact ⟨text ▸ Text.cutFirst_of_notMem (noColon _), text⟩
  have double : ∀ {r : Range}, ¬r.isSingle → Text.cutFirst ':' r.pinned.toChars =
      some (r.pinned.first.toChars, r.pinned.last.toChars) := by
    intro r hr
    have text : r.pinned.toChars = r.pinned.first.toChars ++ ':' :: r.pinned.last.toChars :=
      if_neg hr
    rw [text, Text.cutFirst_append (noColon _)]
  have hr : r.pinned.InSheet := hr
  have hq : q.pinned.InSheet := hq
  -- A colon tells single cells from others.
  by_cases hr' : r.isSingle <;> by_cases hq' : q.isSingle
  · have first : r.pinned.first = q.pinned.first := by
      apply Address.toChars_inj hr.1 hq.1
      rw [← (single hr').2, h, (single hq').2]
    have last : r.pinned.last = q.pinned.last := by
      rw [last_pinned_of_isSingle hr', last_pinned_of_isSingle hq', first]
    exact Range.eq_of_corners first last
  · have cut := double hq'
    rw [← h, (single hr').1] at cut
    cases cut
  · have cut := double hr'
    rw [h, (single hq').1] at cut
    cases cut
  · have cut := double hq'
    rw [← h, double hr', Option.some.injEq, Prod.mk.injEq] at cut
    have first := Address.toChars_inj hr.1 hq.1 cut.1
    have last := Address.toChars_inj hr.2 hq.2 cut.2
    exact Range.eq_of_corners first last

end Range

/-- A quoted name can be unquoted, so it tells the name. -/
theorem SheetName.quoteChars_inj {a b : List Char} (h : quoteChars a = quoteChars b) : a = b := by
  have read : unquote (quoteChars a) = unquote (quoteChars b) := by rw [h]
  rw [unquote_quoteChars, unquote_quoteChars] at read
  exact String.ofList_injective (Except.ok.inj read)

/-- A key tells its sheet and its cells: the last exclamation mark divides them. -/
theorem Reference.keyChars_inj {sheet other : Option String} {r q : Range} (hr : r.InSheet)
    (hq : q.InSheet) (h : keyChars sheet r = keyChars other q) :
    sheet = other ∧ r.pinned = q.pinned := by
  have noMark : ∀ r : Range, '!' ∉ r.pinned.toChars := fun r hc =>
    (Range.plain_of_mem_toChars hc).2.1 rfl
  have named : ∀ (name : String) (r : Range), Text.cutLast '!' (keyChars (some name) r) =
      some (SheetName.quoteChars name.toList, r.pinned.toChars) :=
    fun name r => Text.cutLast_append (noMark r)
  have unnamed : ∀ r : Range, Text.cutLast '!' (keyChars none r) = none :=
    fun r => Text.cutLast_of_notMem (noMark r)
  have cut : Text.cutLast '!' (keyChars sheet r) = Text.cutLast '!' (keyChars other q) := by rw [h]
  cases sheet with
  | none =>
    cases other with
    | none => exact ⟨rfl, Range.toChars_pinned_inj hr hq h⟩
    | some name =>
      rw [unnamed, named] at cut
      cases cut
  | some name =>
    cases other with
    | none =>
      rw [unnamed, named] at cut
      cases cut
    | some name' =>
      rw [named, named, Option.some.injEq, Prod.mk.injEq] at cut
      have sheets : name = name' := String.toList_injective (SheetName.quoteChars_inj cut.1)
      exact ⟨congrArg some sheets, Range.toChars_pinned_inj hr hq cut.2⟩

/-! ### Sheets as a table knows them -/

namespace AliasTable

variable (t : AliasTable)

/-- Two sheets are the same to a table: they are spelled alike, or one registered sheet has the
letters of both. -/
def SameSheet : Option String → Option String → Prop
  | none, none => True
  | some a, some b =>
    a = b ∨ ∃ known ∈ t.sheets, Text.sameLetters known a ∧ Text.sameLetters known b
  | _, _ => False

instance (a b : Option String) : Decidable (t.SameSheet a b) :=
  match a, b with
  | none, none => inferInstanceAs (Decidable True)
  | some _, some _ => inferInstanceAs (Decidable (_ ∨ _))
  | none, some _ | some _, none => inferInstanceAs (Decidable False)

/-- Keys spell two sheets alike exactly if they are the same to the table. -/
theorem spelling_eq_iff (a b : String) :
    (t.registered? a).getD a = (t.registered? b).getD b ↔ t.SameSheet (some a) (some b) := by
  have found : ∀ {sheet known : String}, t.registered? sheet = some known →
      known ∈ t.sheets ∧ Text.sameLetters known sheet := by
    intro sheet known h
    exact ⟨List.mem_of_find?_eq_some h, by simpa using List.find?_some h⟩
  constructor
  · intro h
    cases ha : t.registered? a with
    | none =>
      cases hb : t.registered? b with
      | none => exact .inl (by simpa [ha, hb] using h)
      | some known =>
        -- The unregistered sheet is spelled as a registered one.
        obtain rfl : a = known := by simpa [ha, hb] using h
        exact .inr ⟨a, (found hb).1, Text.sameLetters_refl a, (found hb).2⟩
    | some known =>
      obtain ⟨mem, same⟩ := found ha
      cases hb : t.registered? b with
      | none =>
        obtain rfl : known = b := by simpa [ha, hb] using h
        exact .inr ⟨known, mem, same, Text.sameLetters_refl known⟩
      | some known' =>
        obtain rfl : known = known' := by simpa [ha, hb] using h
        exact .inr ⟨known, mem, same, (found hb).2⟩
  · rintro (rfl | ⟨known, mem, sameA, sameB⟩)
    · rfl
    · have letters : Text.sameLetters a b := Text.sameLetters_trans (Text.sameLetters_symm sameA) sameB
      have some : (t.registered? a).isSome := List.find?_isSome.2 ⟨known, mem, sameA⟩
      obtain ⟨spelling, ha⟩ := Option.isSome_iff_exists.1 some
      rw [← t.registered?_congr letters, ha, Option.getD_some, Option.getD_some]

/-- Keys spell the sheets of two references alike exactly if they are the same to the table. -/
theorem sheetFor_eq_iff (r q : Reference) (current other : Option String) :
    t.sheetFor r current = t.sheetFor q other ↔
      t.SameSheet (r.sheetOr current) (q.sheetOr other) := by
  unfold sheetFor
  cases r.sheetOr current with
  | none => cases q.sheetOr other <;> simp [SameSheet]
  | some a =>
    cases q.sheetOr other with
    | none => simp [SameSheet]
    | some b => simpa using t.spelling_eq_iff a b

/-- References to the same cells have one key, also outside the sheet. -/
theorem key_eq_of_sameCells {r q : Reference} {current other : Option String}
    (cells : r.range.SameCells q.range)
    (sheets : t.SameSheet (r.sheetOr current) (q.sheetOr other)) :
    t.key r current = t.key q other := by
  rw [← Range.pinned_eq_iff] at cells
  rw [← sheetFor_eq_iff] at sheets
  rw [key, key, sheets, Reference.keyChars, Reference.keyChars, cells]

/-- References have one key exactly if they stand for the same cells of the same sheet. -/
theorem key_eq_iff {r q : Reference} (hr : r.range.InSheet) (hq : q.range.InSheet)
    (current other : Option String) :
    t.key r current = t.key q other ↔
      r.range.SameCells q.range ∧ t.SameSheet (r.sheetOr current) (q.sheetOr other) := by
  constructor
  · intro h
    have ⟨sheets, cells⟩ := Reference.keyChars_inj hr hq (String.ofList_injective h)
    exact ⟨Range.pinned_eq_iff.1 cells, (t.sheetFor_eq_iff r q current other).1 sheets⟩
  · rintro ⟨cells, sheets⟩
    exact t.key_eq_of_sameCells cells sheets

end AliasTable

/-! ### Spelling a formula otherwise -/

mutual

/-- The second term is the first one with references replaced by related ones, here and there. -/
inductive Term.Alike (R : Reference → Reference → Prop) : Term → Term → Prop
  | same (t : Term) : Term.Alike R t t
  | range {r q : Reference} (h : R r q) : Term.Alike R (.range r) (.range q)
  | call (function : String) {as bs : List Expression} (h : Expression.AlikeList R as bs) :
    Term.Alike R (.call function as) (.call function bs)
  | group {as bs : List Expression} (h : Expression.AlikeList R as bs) :
    Term.Alike R (.group as) (.group bs)
  | negate {a b : Term} (h : Term.Alike R a b) : Term.Alike R (.negate a) (.negate b)

inductive Expression.Alike (R : Reference → Reference → Prop) : Expression → Expression → Prop
  | same (e : Expression) : Expression.Alike R e e
  | last {a b : Term} (h : Term.Alike R a b) : Expression.Alike R (.last a) (.last b)
  | link {a b : Term} (op : Operator) {e f : Expression} (h : Term.Alike R a b)
    (rest : Expression.Alike R e f) : Expression.Alike R (.link a op e) (.link b op f)

inductive Expression.AlikeList (R : Reference → Reference → Prop) :
    List Expression → List Expression → Prop
  | same (es : List Expression) : Expression.AlikeList R es es
  | cons {e f : Expression} {es fs : List Expression} (h : Expression.Alike R e f)
    (rest : Expression.AlikeList R es fs) : Expression.AlikeList R (e :: es) (f :: fs)

end

/-- The second formula is the first one with references replaced by related ones, here and there. -/
def Formula.Alike (R : Reference → Reference → Prop) (f g : Formula) : Prop :=
  Expression.AlikeList R f.expressions g.expressions

namespace AliasTable

/-- Seen from a sheet, the references have one key. -/
def SameKey (t : AliasTable) (current : Option String) (r q : Reference) : Prop :=
  t.key r current = t.key q current

instance (t : AliasTable) (current : Option String) (r q : Reference) :
    Decidable (t.SameKey current r q) :=
  inferInstanceAs (Decidable (_ = _))

/-- Resolving asks for the key only. -/
theorem SameKey.resolve_eq {t : AliasTable} {current : Option String} {r q : Reference}
    (h : t.SameKey current r q) : t.resolve r current = t.resolve q current := by
  unfold resolve
  rw [h]

/-- Keys do not depend on what is bound. -/
theorem SameKey.of_sheets {t t' : AliasTable} {current : Option String} {r q : Reference}
    (h : t.SameKey current r q) (sheets : t'.sheets = t.sheets) : t'.SameKey current r q := by
  unfold SameKey
  rw [key_congr sheets, key_congr sheets, h]

end AliasTable

namespace Python.Scope

open AliasTable

variable (scope : Scope) {start : AliasTable}

theorem sheets_term (e : Term) (t : AliasTable) : (scope.term e t).2.sheets = t.sheets := by
  rw [term_snd, sheets_resolveAll]

theorem sheets_expression (e : Expression) (t : AliasTable) :
    (scope.expression e t).2.sheets = t.sheets := by
  rw [expression_snd, sheets_resolveAll]

mutual

/-- Terms that are alike are translated alike. The three lemmas follow the syntax together, and the
table on the way keeps its sheets, so keys stay the same. -/
theorem term_congr {a b : Term} (h : a.Alike (start.SameKey scope.sheet) b) {t : AliasTable}
    (sheets : t.sheets = start.sheets) : scope.term a t = scope.term b t := by
  match h with
  | .same _ => rfl
  | .range h => simp only [term, (h.of_sheets sheets).resolve_eq]
  | .call _ (.same _) => rfl
  | .call _ (.cons h rest) => simp only [term, list_congr (.cons h rest) sheets]
  | .group h => simp only [term, list_congr h sheets]
  | .negate h => simp only [term, term_congr h sheets]

theorem expression_congr {a b : Expression} (h : a.Alike (start.SameKey scope.sheet) b)
    {t : AliasTable} (sheets : t.sheets = start.sheets) :
    scope.expression a t = scope.expression b t := by
  match h with
  | .same _ => rfl
  | .last h => exact term_congr h sheets
  | .link (b := b) op h rest =>
    have later : (scope.term b t).2.sheets = start.sheets := by rw [sheets_term, sheets]
    simp only [expression, term_congr h sheets, expression_congr rest later]

theorem list_congr {as bs : List Expression}
    (h : Expression.AlikeList (start.SameKey scope.sheet) as bs) {t : AliasTable}
    (sheets : t.sheets = start.sheets) : scope.list as t = scope.list bs t := by
  match h with
  | .same _ => rfl
  | .cons (f := f) h rest =>
    have later : (scope.expression f t).2.sheets = start.sheets := by
      rw [sheets_expression, sheets]
    simp only [list, expression_congr h sheets, list_congr rest later]

end

/-- References with one key can take each other's place in a formula. -/
theorem formula_congr {f g : Formula} {t : AliasTable} (h : f.Alike (t.SameKey scope.sheet) g) :
    scope.formula f t = scope.formula g t := by
  unfold formula
  rw [scope.list_congr h rfl]

end Python.Scope

namespace AliasTable

/-- **Keys identify cells.** In any table, two references to cells of the sheet have one key exactly
if their corners are the same and their sheets, their own or the current ones, are both missing,
spelled alike, or written with the letters of one registered sheet. So references with one key are
interchangeable in formulas: the text written and the resulting table are the same. -/
theorem keys_identify_cells (t : AliasTable) :
    (∀ (r q : Reference) (current other : Option String), r.range.InSheet → q.range.InSheet →
      (t.key r current = t.key q other ↔
        r.range.SameCells q.range ∧ t.SameSheet (r.sheetOr current) (q.sheetOr other))) ∧
    ∀ (scope : Python.Scope) (f g : Formula), f.Alike (t.SameKey scope.sheet) g →
      scope.formula f t = scope.formula g t := by
  refine ⟨?_, ?_⟩
  · intro r q current other hr hq
    exact t.key_eq_iff hr hq current other
  · intro scope f g alike
    exact scope.formula_congr alike

/-- A table that knows two sheets, one of which is spelled like a key. -/
def oddSheets : AliasTable := { sheets := ["Data", "it's!$A$1"] }

/-- The range of `B2`, with marks. -/
def markedCell : Range := .single { row := 1, col := 1, rowFixed := true }

/-- A sheet that is spelled like a key is told apart from the other one. -/
theorem keys_identify_cells_oddSheets :
    oddSheets.key ⟨some "DATA", .single { row := 1, col := 1 }⟩ none =
      oddSheets.key ⟨none, markedCell⟩ (some "data") ∧
    oddSheets.key ⟨some "IT'S!$A$1", markedCell⟩ none = "'it''s!$A$1'!$B$2" ∧
    oddSheets.key ⟨some "DATA", markedCell⟩ none ≠ oddSheets.key ⟨some "it's!$A$1", markedCell⟩ none ∧
    ∀ op e, Python.Scope.formula { sheet := some "data" }
        ⟨[.link (.range ⟨some "DATA", .single { row := 1, col := 1 }⟩) op e]⟩ oddSheets =
      Python.Scope.formula { sheet := some "data" } ⟨[.link (.range ⟨none, markedCell⟩) op e]⟩
        oddSheets := by
  obtain ⟨cells, formulas⟩ := keys_identify_cells oddSheets
  have same : oddSheets.SameKey (some "data") ⟨some "DATA", .single { row := 1, col := 1 }⟩
      ⟨none, markedCell⟩ :=
    (cells _ _ _ _ (by decide) (by decide)).2 (by decide +kernel)
  refine ⟨(cells _ _ _ _ (by decide) (by decide)).2 (by decide +kernel), by decide +kernel,
    ?_, fun op e => ?_⟩
  · rw [ne_eq, cells _ _ _ _ (by decide) (by decide)]
    decide +kernel
  · exact formulas _ _ _ (.cons (.link op (.range same) (.same e)) (.same []))

end AliasTable

end SheetCompiler
