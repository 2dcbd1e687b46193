import SheetCompiler.Proofs.Block.Capture
import SheetCompiler.Proofs.Compile.Legality
import SheetCompiler.Proofs.Python.OneLine

/-!
# Every declaration takes one line

A body is written in one of four ways and a constant in one of two, and none of them brings a line
end in: formulas are read before they are written, so that their white space is lost, a filled
formula is as well-formed as one that was read (`Formula.WellFormed.fill`), and values are escaped.
Identifiers are made up, checked, or spelled like a defined name. So where the defined names take
one line, all declarations do, at every point of a compilation (`Run.declarations_oneLine`).
-/

namespace SheetCompiler

open Text

/-! ### Filled formulas -/

mutual

/-- Names in place of cells leave a term well-formed. -/
theorem Term.WellFormed.fill {t : Term} (wf : t.WellFormed) {choices : List (Option String)}
    (names : ∀ n, some n ∈ choices → (Term.name n).WellFormed) : (t.fill choices).1.WellFormed := by
  match t with
  | .number .. | .text _ | .name _ | .null => simpa [Term.fill] using wf
  | .range r =>
    unfold Term.fill
    split
    · exact wf
    · split
      next n rest => exact names n List.mem_cons_self
      next => exact wf
      next => exact wf
  | .call function arguments => exact ⟨wf.1, Expression.AllWellFormed.fill wf.2 names⟩
  | .group items => exact @Expression.AllWellFormed.fill items wf choices names
  | .negate operand => exact Term.WellFormed.fill (t := operand) wf names

/-- A name can stand wherever a cell does, so an expression stays well-formed. -/
theorem Expression.WellFormed.fill {e : Expression} (wf : e.WellFormed)
    {choices : List (Option String)}
    (names : ∀ n, some n ∈ choices → (Term.name n).WellFormed) : (e.fill choices).1.WellFormed := by
  match e with
  | .last t => exact Term.WellFormed.fill (t := t) wf names
  | .link t op rest =>
    exact ⟨Term.WellFormed.fill wf.1 names,
      Expression.WellFormed.fill wf.2 fun n mem => names n (Term.mem_of_mem_fill mem)⟩

theorem Expression.AllWellFormed.fill {es : List Expression} (wf : Expression.AllWellFormed es)
    {choices : List (Option String)}
    (names : ∀ n, some n ∈ choices → (Term.name n).WellFormed) :
    Expression.AllWellFormed (Expression.fillList es choices).1 := by
  match es with
  | [] => trivial
  | e :: es =>
    exact ⟨Expression.WellFormed.fill wf.1 names,
      Expression.AllWellFormed.fill wf.2 fun n mem => names n (Expression.mem_of_mem_fill mem)⟩

end

/-- Names in place of cells leave a formula well-formed. -/
theorem Formula.WellFormed.fill {f : Formula} (wf : f.WellFormed) {choices : List (Option String)}
    (names : ∀ n, some n ∈ choices → (Term.name n).WellFormed) : (f.fill choices).WellFormed := by
  obtain ⟨e, single, wf⟩ := wf
  refine ⟨(e.fill choices).1, ?_, wf.fill names⟩
  simp [Formula.fill, single, Expression.fillList]

/-! ### Comprehensions -/

namespace Block

/-- A loop variable can stand in a formula as a name. -/
theorem wellFormed_loopName (i : Nat) : (Term.name (loopName i)).WellFormed := by
  have chars : (loopName i).toList = '_' :: 'v' :: Nat.toDigits 10 i := by simp [loopName]
  have digits : ∀ c ∈ Nat.toDigits 10 i, isIdentifierChar c := fun c mem => by
    simp [isIdentifierChar, Char.isAlphanum,
      Nat.isDigit_of_mem_toDigits (by decide) (Nat.le_refl 10) mem]
  refine ⟨?_, fun none => ?_, ?_⟩
  · rw [chars]
    simp only [Scan.isSheetWord, List.all_cons, Bool.and_eq_true, List.all_eq_true]
    exact ⟨by decide, by decide, fun c mem => by rw [digits c mem, Bool.true_or]⟩
  · rw [none] at chars
    exact absurd (List.cons.inj chars).1 (by decide)
  · rintro ⟨colMark, letters, rowMark, digits, cell, ⟨nonempty, upper⟩, -⟩
    obtain ⟨c, letters, rfl⟩ := List.exists_cons_of_ne_nil nonempty
    rw [chars] at cell
    cases colMark with
    | true => exact absurd (List.cons.inj cell).1 (by decide)
    | false =>
      obtain rfl : '_' = c := (List.cons.inj cell).1
      exact absurd (upper '_' List.mem_cons_self) (by decide)

theorem oneLine_loopName (i : Nat) : OneLine (loopName i).toList :=
  Python.oneLine_word (.inl (wellFormed_loopName i).1)

theorem oneLine_rowName (i : Nat) : OneLine (rowName i).toList := by
  have digits : OneLine (Nat.toDigits 10 i) := Python.oneLine_of_numeric (.toDigits i)
  rw [rowName, oneLine_toList_append]
  exact ⟨by decide, by rwa [String.toList_ofList]⟩

theorem oneLine_zipped {items : List String} (h : ∀ item ∈ items, OneLine item.toList) :
    OneLine (zipped items).toList := by
  have many : OneLine (joined ", " items).toList := oneLine_joined (by decide) h
  unfold zipped
  split
  next item => exact h item (List.mem_singleton_self item)
  next =>
    rw [oneLine_toList_append, oneLine_toList_append]
    exact ⟨⟨by decide, many⟩, by decide⟩

/-- A loop takes one line if its body and its ranges do. -/
theorem oneLine_loop {body : String} {ranges : List String} (inside : OneLine body.toList)
    (h : ∀ range ∈ ranges, OneLine range.toList) : OneLine (loop body ranges).toList := by
  have names : ∀ name ∈ (List.range ranges.length).map loopName, OneLine name.toList := by
    intro name mem
    obtain ⟨i, -, rfl⟩ := List.mem_map.1 mem
    exact oneLine_loopName i
  have rows : ∀ name ∈ (List.range ranges.length).map rowName, OneLine name.toList := by
    intro name mem
    obtain ⟨i, -, rfl⟩ := List.mem_map.1 mem
    exact oneLine_rowName i
  have apart : OneLine ", ".toList := by decide
  have words : OneLine "tuple(tuple(".toList ∧ OneLine " for ".toList ∧ OneLine " in ".toList ∧
      OneLine ") for ".toList ∧ OneLine ")".toList := by decide
  unfold loop
  simp only [oneLine_toList_append, words, inside, oneLine_joined apart names,
    oneLine_joined apart rows, oneLine_zipped rows, oneLine_zipped h, and_self]

/-- A comprehension takes one line. -/
theorem oneLine_comprehension {b : Block} {symbols : Python.Symbols} {t : AliasTable}
    (table : t.OneLine) {python : String} (h : (b.comprehension symbols t).1 = .ok python) :
    OneLine python.toList := by
  unfold comprehension at h
  split at h
  next => cases h
  next p hp =>
    split at h
    next => cases h
    next texts t' hiter =>
      cases h
      obtain ⟨ranges, -, rfl, rfl⟩ := iterables_eq_ok hiter
      obtain ⟨text, -, parsed⟩ := pattern_formula hp
      have body : p.body.WellFormed := by
        refine (Formula.wellFormed_of_parseSingle parsed).fill fun n mem => ?_
        obtain ⟨i, -, rfl⟩ := List.mem_map.1 (mem_locals_of_mem_choices mem)
        exact wellFormed_loopName i
      obtain ⟨identifiers, later⟩ := table.resolveAll (ranges.map (·, none))
      refine oneLine_loop (Python.Scope.oneLine_formula _ body later) fun range mem => ?_
      obtain ⟨identifier, hid, rfl⟩ := List.mem_map.1 mem
      exact symbols.oneLine_qualify (identifiers _ hid)

end Block

/-! ### Bodies and values -/

namespace Body

variable {c : Config} {symbols : Python.Symbols} {name sheet : String} {t : AliasTable}
  (table : t.OneLine)

include table

/-- A formula that was read has lost its line ends, and its texts are escaped. -/
theorem oneLine_formula {scope : Python.Scope} {location text python : String}
    (h : (formula scope name location text t).1 = .ok python) : OneLine python.toList := by
  unfold formula at h
  split at h
  next => cases h
  next f parsed =>
    cases h
    exact scope.oneLine_formula (Formula.wellFormed_of_parseSingle parsed) table

theorem oneLine_cell {literal : RegionCell → String} {cell : RegionCell} {python : String}
    (value : OneLine (literal cell).toList)
    (h : (Body.cell symbols name literal sheet cell t).1 = .ok python) :
    OneLine python.toList := by
  unfold Body.cell at h
  split at h
  next => exact oneLine_formula table h
  next =>
    cases h
    exact value

/-- The items of a row take one line each, by induction; what a cell resolves takes one line too. -/
theorem oneLine_items {cells : List RegionCell} {written : List String}
    (h : (items c symbols name sheet cells t).1 = .ok written) :
    ∀ item ∈ written, OneLine item.toList := by
  induction cells generalizing t written with
  | nil =>
    cases h
    exact nofun
  | cons first rest ih =>
    have later : (Body.cell symbols name (·.literal c) sheet first t).2.OneLine :=
      cell_snd symbols name sheet _ first t ▸ (table.resolveAll _).2
    unfold items at h
    split at h
    next => cases h
    next item t' hcell =>
      have here : OneLine item.toList :=
        oneLine_cell table (Python.oneLine_valueLiteral _ _) (by rw [hcell])
      obtain ⟨others, hrest, rfl⟩ := Fallible.map_eq_ok_iff.1 h
      rw [hcell] at later
      exact List.forall_mem_cons.2 ⟨here, ih later hrest⟩

/-- The rows take one line each. -/
theorem oneLine_rows {cells : List (List RegionCell)} {written : List String}
    (h : (rows c symbols name sheet cells t).1 = .ok written) :
    ∀ row ∈ written, OneLine row.toList := by
  induction cells generalizing t written with
  | nil =>
    cases h
    exact nofun
  | cons first rest ih =>
    have later : (items c symbols name sheet first t).2.OneLine :=
      items_snd c symbols name sheet first t ▸ (table.resolveAll _).2
    unfold rows at h
    split at h
    next => cases h
    next row t' hitems =>
      have here : OneLine (Python.tuple row).toList :=
        Python.oneLine_tuple (oneLine_items table (by rw [hitems]))
      obtain ⟨others, hrest, rfl⟩ := Fallible.map_eq_ok_iff.1 h
      rw [hitems] at later
      exact List.forall_mem_cons.2 ⟨here, ih later hrest⟩

/-- A region takes one line, whichever way it is written. -/
theorem oneLine_region {g : Region} {python : String}
    (h : (region c symbols name g t).1 = .ok python) : OneLine python.toList := by
  have tuples : ∀ {t : AliasTable}, t.OneLine →
      (rows c symbols name g.sheet g.rows t).1.map Python.tuple = .ok python →
      OneLine python.toList := by
    intro t table h
    obtain ⟨written, hrows, rfl⟩ := Fallible.map_eq_ok_iff.1 h
    exact Python.oneLine_tuple (oneLine_rows table hrows)
  by_cases single : ∃ only, g.rows = [[only]]
  · obtain ⟨only, single⟩ := single
    simp only [region, single] at h
    exact oneLine_cell table (Python.oneLine_valueLiteral _ _) h
  · have several : ∀ only, g.rows ≠ [[only]] := fun only h => single ⟨only, h⟩
    rw [region_of_several c symbols name g t several, comprehension?_eq] at h
    cases block : g.block? with
    | none =>
      rw [block] at h
      exact tuples table h
    | some b =>
      have later : (b.comprehension symbols t).2.OneLine :=
        b.comprehension_snd symbols t ▸ (table.resolveAll _).2
      rw [block] at h
      cases written : (b.comprehension symbols t).1 with
      | ok body =>
        simp only [written, Except.toOption] at h
        cases h
        exact Block.oneLine_comprehension table written
      | error e =>
        simp only [written, Except.toOption] at h
        exact tuples later h

end Body

theorem Region.oneLine_literal (c : Config) (g : Region) : OneLine (g.literal c).toList := by
  unfold Region.literal
  split
  next => exact Python.oneLine_valueLiteral _ _
  next =>
    refine Python.oneLine_tuple fun row mem => ?_
    obtain ⟨cells, -, rfl⟩ := List.mem_map.1 mem
    refine Python.oneLine_tuple fun item mem => ?_
    obtain ⟨cell, -, rfl⟩ := List.mem_map.1 mem
    exact Python.oneLine_valueLiteral _ _

namespace Run

/-- A body takes one line. -/
theorem oneLine_body {p : Plan} {candidate : Candidate} {t : AliasTable} (table : t.OneLine)
    {content : Content} {python : String} (h : (body p candidate t content).1 = .ok python) :
    OneLine python.toList := by
  cases content with
  | region g => exact Body.oneLine_region table h
  | formula text sheet =>
    rw [body_formula] at h
    exact Body.oneLine_formula table h
  | nothing =>
    cases h
    decide

theorem oneLine_literal (c : Config) (content : Content) : OneLine (literal c content).toList := by
  have none : OneLine "None".toList := by decide
  cases content with
  | region g => exact g.oneLine_literal c
  | formula | nothing => exact none

end Run

/-! ### All declarations -/

/-- Every property and every constant takes one line. -/
def Sections.OneLine (s : Sections) : Prop :=
  ∀ d ∈ s.properties ++ s.constants, Text.OneLine d.text.toList

namespace Run

variable {p : Plan} {w : Workbook} {run run' : Run} {candidate : Candidate}

/-- What a constant stands for is a value, or nothing. -/
theorem Outcome.literals (outcome : Outcome p w run candidate run') :
    run'.sections.constants = run.sections.constants ∨
      ∃ content, run'.sections.constants =
        run.sections.constants ++ [⟨candidate.identifier, literal p.config content⟩] := by
  cases outcome with
  | unreadable => exact .inl rfl
  | diagnosed | input => exact .inl (by simp [diagnose, setOwner])
  | constant content =>
    exact .inr ⟨content, by simp [addConstant, setOwner, Sections.addConstant]⟩
  | unclassified content =>
    exact .inr ⟨.nothing, by
      simp [addUnclassified, addConstant, setOwner, Sections.addConstant, literal]⟩
  | property content python hread kind written =>
    exact .inl (by simp [addProperty_of_ok written, setOwner, Sections.addProperty])
  | unwritten content e hread kind failed =>
    exact .inl (by simp [addProperty_of_error failed, fail])

/-- Classifying a candidate adds a declaration on one line at most. -/
theorem Outcome.oneLine (outcome : Outcome p w run candidate run') (table : run.table.OneLine)
    (keys : ∀ input ∈ run.inputs, input.1 ≠ "")
    (parameters : ∀ input ∈ run.inputs, Text.OneLine input.2.toList)
    (sections : run.sections.OneLine) : run'.sections.OneLine := by
  obtain ⟨properties, constants⟩ := List.forall_mem_append.1 sections
  refine List.forall_mem_append.2 ⟨?_, ?_⟩
  · rcases outcome.properties with same | ⟨content, python, -, -, written, added⟩
    · rwa [same]
    · rw [added]
      refine List.forall_mem_append.2 ⟨properties, List.forall_mem_singleton.2 ?_⟩
      exact Python.oneLine_substituteInputs _ keys parameters (oneLine_body table written)
  · rcases outcome.literals with same | ⟨content, added⟩
    · rwa [same]
    · rw [added]
      refine List.forall_mem_append.2 ⟨constants, List.forall_mem_singleton.2 ?_⟩
      exact oneLine_literal p.config content

/-- The parameters that take the place of cells are parameters of the constructor. -/
def DeclaresInputs (run : Run) : Prop :=
  ∀ input ∈ run.inputs, input.2 ∈ run.sections.interface.inputs

/-- A new input is a parameter at once. -/
theorem DeclaresInputs.addInput (declared : run.DeclaresInputs) (key identifier : String) :
    (run.addInput key identifier).DeclaresInputs := by
  intro input mem
  rcases List.mem_append.1 mem with old | new
  · exact mem_addName.2 (.inl (declared input old))
  · exact mem_addName.2 (.inr (by rw [List.mem_singleton.1 new]))

variable (p w) in
/-- All inputs are parameters once the names are bound. -/
theorem declaresInputs_bind : (bind p w).2.DeclaresInputs := by
  have config : (bindConfig p w).DeclaresInputs := by
    have none : DeclaresInputs { table := p.startTable w } := nofun
    rw [bindConfig_eq]
    have inputs := List.foldlRecOn p.bindings.inputs bindInput none
      fun run declared input _ => @DeclaresInputs.addInput { run with table := _ } declared _ _
    exact List.foldlRecOn p.bindings.outputs bindOutput inputs fun run declared _ _ => declared
  refine (Named.bindConfig p w).bindNames_induction config (fun naming declared => ?_) w.names
  cases naming with
  | first r key identifier =>
    rcases declare_cases p.config w r key identifier _ with h | h | h
    · rw [h]
      exact declared
    · rw [h]
      exact DeclaresInputs.addInput declared key identifier
    · rw [h]
      exact declared
  | again | elsewhere => exact declared

/-- Legal identifiers take one line, and so do the names of the workbook. -/
theorem oneLine_of_spells {identifier : String} (names : ∀ d ∈ w.names, Text.OneLine d.name.toList)
    (spells : p.Spells w identifier) : Text.OneLine identifier.toList := by
  rcases spells with legal | ⟨d, mem, rfl, -⟩
  · have letters := isIdentifier_of_check (checkIdentifier_eq_ok_iff.2 legal)
    exact oneLine_of_class (f := isIdentifierChar) (by decide) (by decide)
      fun c => SheetName.isIdentifierChar_of_mem letters
  · exact names d mem

section

variable {c : Config} {todo : List Candidate} {left : Nat}

/-- All identifiers of the table take one line, those of names as well as made-up ones. -/
theorem Point.oneLine_table (point : Point p w todo left run) (accepted : Plan.ofConfig c = .ok p)
    (names : ∀ d ∈ w.names, Text.OneLine d.name.toList) : run.table.OneLine := by
  have spelled := spelled_bind (w := w) accepted
  refine point.table_induction ⟨fun key b bound => ?_, fun name identifier found => ?_⟩
    (fun t r current table => (table.resolve r current).2) fun t pending table =>
      ⟨table.bound, table.renamed⟩
  · exact oneLine_of_spells names (spelled.bindings key b bound)
  · exact oneLine_of_spells names (spelled.renames name identifier found)

/-- So do the parameters that take the place of cells. -/
theorem Point.oneLine_parameters (point : Point p w todo left run)
    (accepted : Plan.ofConfig c = .ok p) (names : ∀ d ∈ w.names, Text.OneLine d.name.toList) :
    ∀ input ∈ run.inputs, Text.OneLine input.2.toList := by
  have spelled := spelled_bind (w := w) accepted
  obtain ⟨checked, -⟩ := Plan.checks_of_ofConfig accepted
  intro input mem
  rw [point.inputs] at mem
  rcases spelled.inputs _ (declaresInputs_bind p w input mem) with
    ⟨cell, hcell, same⟩ | ⟨candidate, hcandidate, same⟩
  · obtain ⟨a, checked⟩ := checked cell (List.mem_append_left _ hcell)
    exact same ▸ oneLine_of_spells (p := p) names (.inl (CellAlias.isLegal_of_check checked))
  · exact same ▸ oneLine_of_spells names (spelled.candidates candidate hcandidate)

/-- So does every declaration, by induction on the points. -/
theorem Point.oneLine (point : Point p w todo left run) (accepted : Plan.ofConfig c = .ok p)
    (names : ∀ d ∈ w.names, Text.OneLine d.name.toList) : run.sections.OneLine := by
  refine point.sections_induction ?_ fun point earlier => ?_
  · obtain ⟨table, interface, inputs, eq⟩ := justBound_bind p w
    rw [eq]
    exact nofun
  · have keys := (point.plain (Plan.proper_of_ofConfig accepted)).keys
    refine (process_outcome p w _ _).oneLine (point.oneLine_table accepted names) ?_
      (point.oneLine_parameters accepted names) earlier
    intro input mem empty
    obtain ⟨sheet, range, key⟩ := keys input mem
    obtain ⟨front, d, chars, -⟩ := Text.EndsInDigit.keyChars sheet range
    rw [← key, empty] at chars
    simp at chars

end

/-- **Every declaration takes one line.** If no defined name holds a line end, no property and no
constant does, at any point of a compilation, whatever the cells, formulas and sheet names hold. -/
theorem declarations_oneLine {c : Config} {p : Plan} (accepted : Plan.ofConfig c = .ok p)
    (w : Workbook) (names : ∀ d ∈ w.names, Text.OneLine d.name.toList) :
    (∀ todo left run, Point p w todo left run → run.sections.OneLine) ∧
      (compile p w).sections.OneLine := by
  obtain ⟨left, point, -⟩ := exists_point_compile p w
  exact ⟨fun todo left run point => point.oneLine accepted names, point.oneLine accepted names⟩

/-- Line ends in a sheet name, in values, and in formulas, both as white space and in texts. -/
def letter : Except WorkbookError Workbook := do
  let w ← ({} : Workbook).addSheet "Calc"
  let w ← w.addSheet "Your\nText"
  let w ← w.setFormula "Calc" "A1" "=B1&\r\n\"\n\"&YourTextA1"
  let w ← w.setFormula "Calc" "C1" "=\nB1&\"\r\""
  let w ← w.setFormula "Calc" "C2" "=\nB2&\"\r\""
  let w ← w.setValue "Calc" "B1" (.string "Dear\r\nreader")
  let w ← w.setValue "Your\nText" "A1" (.string "low")
  let w ← w.defineName { name := "Letter", refersTo := "=Calc!$A$1" }
  w.defineName { name := "Lines", refersTo := "=Calc!$C$1:$C$2" }

def letterConfig : Config where
  spreadsheet := "letter.xlsx"
  inputs := [⟨"'Your\nText'!A1", "text"⟩]

/-- Line ends are lost or escaped wherever they stand. -/
theorem declarations_oneLine_letter :
    ∃ p w, Plan.ofConfig letterConfig = .ok p ∧ letter = .ok w ∧
      (compile p w).sections.properties =
        [⟨"Letter", "self.CalcB1 + \"\\n\" + self.text"⟩,
          ⟨"Lines", "tuple(tuple(_v0 + \"\\r\" for _v0 in _r0) for _r0 in self.CalcB1B2)"⟩] ∧
      (compile p w).sections.constants =
        [⟨"CalcB1", "\"Dear\\r\\nreader\""⟩, ⟨"CalcB1B2", "((\"Dear\\r\\nreader\",), (None,))"⟩] ∧
      (compile p w).sections.OneLine := by
  have facts : ((Plan.ofConfig letterConfig).toOption.bind fun p =>
      letter.toOption.map fun w =>
        decide ((∀ d ∈ w.names, Text.OneLine d.name.toList) ∧
          (compile p w).sections.properties =
            [⟨"Letter", "self.CalcB1 + \"\\n\" + self.text"⟩,
              ⟨"Lines", "tuple(tuple(_v0 + \"\\r\" for _v0 in _r0) for _r0 in self.CalcB1B2)"⟩] ∧
          (compile p w).sections.constants =
            [⟨"CalcB1", "\"Dear\\r\\nreader\""⟩,
              ⟨"CalcB1B2", "((\"Dear\\r\\nreader\",), (None,))"⟩])) = some true := by
    decide +kernel
  obtain ⟨p, hp, facts⟩ := Option.bind_eq_some_iff.1 facts
  obtain ⟨w, hw, facts⟩ := Option.map_eq_some_iff.1 facts
  obtain ⟨names, properties, constants⟩ := of_decide_eq_true facts
  have accepted := Fallible.toOption_eq_some_iff.1 hp
  exact ⟨p, w, accepted, Fallible.toOption_eq_some_iff.1 hw, properties, constants,
    (declarations_oneLine accepted w names).2⟩

end Run

end SheetCompiler
