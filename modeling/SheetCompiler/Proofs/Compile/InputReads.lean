import SheetCompiler.Proofs.Alias.Keys
import SheetCompiler.Proofs.Compile.Mentions
import SheetCompiler.Proofs.Compile.Reach
import SheetCompiler.Proofs.Compile.TextConstants
import SheetCompiler.Proofs.Python.DiscoveredNames
import SheetCompiler.Proofs.Python.Standing

/-!
# Properties read their inputs

Wherever a reference to the cells of an input stands in a body, the name of the input is written
(`Run.inputs_read`). The key of the input is bound to the name from the start and stays so
(`Run.BindsInputs`), so the reference is resolved to it however it is spelled. Substituting the inputs
in the text afterwards leaves the name alone, unless the name of a sheet holds the name of the input
as it is written between two signs. The name is written as an attribute, except if it is a global
symbol: then it is written bare, and means the symbol (`Run.inputs_misread`).
-/

namespace SheetCompiler

open AliasTable
open Python (Part Piece)

/-! ### References to the cells of inputs -/

/-- Seen from its sheet, the reference stands for the cells of another one, however the two are
spelled. -/
def Workbook.Denotes (w : Workbook) (x : Reference × Option String) (r : Reference) : Prop :=
  x.1.range.SameCells r.range ∧ w.sheetTable.SameSheet (x.1.sheetOr x.2) r.sheet

instance (w : Workbook) (x : Reference × Option String) (r : Reference) :
    Decidable (w.Denotes x r) :=
  inferInstanceAs (Decidable (_ ∧ _))

/-- The inputs of the configuration are different cells. -/
def Plan.DistinctInputs (p : Plan) (w : Workbook) : Prop :=
  p.bindings.inputs.Pairwise fun input other => ¬w.Denotes (input.reference, none) other.reference

instance (p : Plan) (w : Workbook) : Decidable (p.DistinctInputs w) :=
  inferInstanceAs (Decidable (List.Pairwise _ _))

theorem Reference.sheetOr_none (r : Reference) : r.sheetOr none = r.sheet := by
  simp [sheetOr]

/-- References to the same cells have one key. -/
theorem Workbook.Denotes.key_eq {w : Workbook} {x : Reference × Option String} {r : Reference}
    (h : w.Denotes x r) : w.sheetTable.key x.1 x.2 = w.key r := by
  refine w.sheetTable.key_eq_of_sameCells h.1 ?_
  rw [r.sheetOr_none]
  exact h.2

/-- References with one key are to the same cells. -/
theorem Workbook.denotes_of_key_eq {w : Workbook} {r q : Reference} (hr : r.range.InSheet)
    (hq : q.range.InSheet) (h : w.key r = w.key q) : w.Denotes (r, none) q := by
  obtain ⟨cells, sheets⟩ := (w.sheetTable.key_eq_iff hr hq none none).1 h
  rw [q.sheetOr_none] at sheets
  exact ⟨cells, sheets⟩

theorem Plan.Proper.inSheet {p : Plan} (proper : p.Proper) {cell : BoundCell} (mem : cell ∈ p.cells) :
    cell.reference.range.InSheet := by
  obtain ⟨a, checked⟩ := proper.checked cell mem
  exact (Reference.normalized_of_parse (CellAlias.of_check checked).2).inSheet

/-- Different cells have different keys. -/
theorem Plan.DistinctInputs.nodup {p : Plan} {w : Workbook} (distinct : p.DistinctInputs w)
    (proper : p.Proper) : (p.bindings.inputs.map fun input => w.key input.reference).Nodup := by
  have inSheet : ∀ {input}, input ∈ p.bindings.inputs → input.reference.range.InSheet :=
    fun mem => proper.inSheet (List.mem_append_left _ mem)
  refine List.pairwise_map.2 (List.Pairwise.imp_of_mem ?_ distinct)
  intro input other hinput hother apart same
  exact apart (Workbook.denotes_of_key_eq (inSheet hinput) (inSheet hother) same)

/-! ### Inputs are bound to their names -/

theorem AliasTable.resolve_of_lookup {t : AliasTable} {r : Reference} {current : Option String}
    {identifier : String} (found : t.lookup (t.key r current) = some identifier) :
    (t.resolve r current).1 = identifier := by
  obtain ⟨layer, bound⟩ := lookup_eq_some_iff.1 found
  rw [resolve_of_bound bound]

namespace Run

variable {p : Plan} {w : Workbook} {run : Run}

/-- The key of every input is bound to its name. -/
def BindsInputs (run : Run) : Prop := ∀ input ∈ run.inputs, run.table.lookup input.1 = some input.2

/-- Each input is noted with its key, in order; the keys do not depend on what is bound. -/
theorem inputs_foldl_bindInput (cells : List BoundCell) (run : Run) :
    (cells.foldl bindInput run).inputs =
      run.inputs ++ cells.map fun cell => (run.table.key cell.reference none, cell.name) := by
  induction cells generalizing run with
  | nil => simp
  | cons cell cells ih =>
    have sheets : (run.table.insertConfig cell.reference cell.name).sheets = run.table.sheets := by
      simp
    have keys : ∀ r, (bindInput run cell).table.key r none = run.table.key r none :=
      fun r => key_congr sheets r none
    have first : (bindInput run cell).inputs =
        run.inputs ++ [(run.table.key cell.reference none, cell.name)] := by
      rw [← key_congr sheets]
      rfl
    rw [List.foldl_cons, ih, first]
    simp [keys]

/-- The inputs of the configuration are the first ones. -/
theorem inputs_bindConfig (p : Plan) (w : Workbook) :
    (bindConfig p w).inputs =
      p.bindings.inputs.map fun input => (w.key input.reference, input.name) := by
  have outputs : ∀ (cells : List BoundCell) (run : Run),
      (cells.foldl bindOutput run).inputs = run.inputs := by
    intro cells
    induction cells with
    | nil => exact fun run => rfl
    | cons cell cells ih => exact fun run => ih (bindOutput run cell)
  have keys : ∀ r, (p.startTable w).key r none = w.key r :=
    fun r => key_congr (p.startTable_spec w).1 r none
  rw [bindConfig_eq, outputs, inputs_foldl_bindInput]
  simp [keys]

/-- Inputs have keys of their own, so each is bound to its own name. -/
theorem bindsInputs_bindConfig
    (keys : (p.bindings.inputs.map fun input => w.key input.reference).Nodup) :
    (bindConfig p w).BindsInputs := by
  intro input mem
  rw [inputs_bindConfig] at mem
  obtain ⟨cell, hcell, rfl⟩ := List.mem_map.1 mem
  exact lookup_bindConfig keys hcell

/-- A name that becomes an input has just been bound to its cells, and all other inputs keep theirs.
-/
theorem Naming.bindsInputs {c : Config} {d : DefinedName} {result : Candidate × Run}
    (naming : Naming c w run d result) (binds : run.BindsInputs) : result.2.BindsInputs := by
  have grown := naming.extends_table
  have old : ∀ input ∈ run.inputs, result.2.table.lookup input.1 = some input.2 :=
    fun input mem => grown.lookup (binds input mem)
  cases naming with
  | first r key identifier target hkey unbound written =>
    have new : (run.table.bind key identifier .definedName).lookup key = some identifier := by
      simp [AliasTable.lookup]
    rw [table_declare] at old
    intro input mem
    rw [table_declare]
    rcases declare_cases c w r key identifier
      { run with table := run.table.bind key identifier .definedName } with h | h | h
    · rw [h] at mem
      exact old input mem
    · rw [h] at mem
      rcases List.mem_append.1 mem with mem | mem
      · exact old input mem
      · rw [List.mem_singleton.1 mem]
        exact new
    · rw [h] at mem
      exact old input mem
  | again => exact old
  | elsewhere => exact old

/-- At every point of a compilation inputs are bound to their names, those of the configuration as
well as those that defined names have become. -/
theorem Point.bindsInputs {todo : List Candidate} {left : Nat} (point : Point p w todo left run)
    (keys : (p.bindings.inputs.map fun input => w.key input.reference).Nodup) :
    run.BindsInputs := by
  unfold BindsInputs
  rw [point.inputs]
  refine point.table_induction
    (P := fun t => ∀ input ∈ (bind p w).2.inputs, t.lookup input.1 = some input.2) ?_ ?_ ?_
  · exact (Named.bindConfig p w).bindNames_induction (bindsInputs_bindConfig keys)
      Naming.bindsInputs w.names
  · intro t r current binds input mem
    exact (t.extends_resolve r current).lookup (binds input mem)
  · exact fun t pending binds => binds

/-- At every point the identifiers of bound cells are in use. -/
theorem Point.boundUsed {todo : List Candidate} {left : Nat} (point : Point p w todo left run) :
    run.table.BoundUsed :=
  point.table_induction (boundUsed_bind p w) (fun _ r current used => (used.resolve r current).1)
    fun _ _ used => used

/-! ### Reading an input -/

variable {candidate : Candidate} {content : Content} {d : Declaration}

/-- The table after a body has all that the table before it had. -/
theorem after_body (p : Plan) (candidate : Candidate) (t : AliasTable) (content : Content) :
    (body p candidate t content).2.1.After t := by
  rw [body_table]
  exact after_resolveAll content.reads t

theorem boundUsed_body {t : AliasTable} (used : t.BoundUsed) (p : Plan) (candidate : Candidate)
    (content : Content) : (body p candidate t content).2.1.BoundUsed := by
  rw [body_table]
  exact resolveAll_induction used fun t x _ used => (used.resolve x.1 x.2).1

/-- The key of an input is bound to its name at every point. -/
theorem Point.lookup_input {todo : List Candidate} {left : Nat} (point : Point p w todo left run)
    (keys : (p.bindings.inputs.map fun input => w.key input.reference).Nodup) {input : BoundCell}
    (mem : input ∈ p.bindings.inputs) :
    run.table.lookup (w.key input.reference) = some input.name := by
  obtain ⟨named, known, -⟩ := exists_named p w
  exact (point.extends_bind.trans known.aliases).lookup (lookup_bindConfig keys mem)

/-- The inputs of the configuration are parameters. -/
theorem mem_inputs_compile {input : BoundCell} (mem : input ∈ p.bindings.inputs) :
    input.name ∈ (compile p w).sections.interface.inputs := by
  obtain ⟨left, point, -⟩ := exists_point_compile p w
  obtain ⟨named, known, -⟩ := exists_named p w
  rw [point.interface]
  exact known.inputs (((bindConfig_spec p w).2.2.1 input.name).2 ⟨input, mem, rfl⟩)

/-- Where the place of a reference to the cells of an input is, the name of the input is written, and
inputs are substituted before it and after it. -/
theorem Stored.text_at_input (stored : Stored p w run candidate content d) (proper : p.Proper)
    (keys : (p.bindings.inputs.map fun input => w.key input.reference).Nodup) {table : AliasTable}
    (htable : (body p candidate run.table content).2.1 = table) {input : BoundCell}
    (mem : input ∈ p.bindings.inputs)
    (apart : ∀ other ∈ run.inputs,
      ¬Python.Encloses other.1.toList (p.symbols.qualify input.name).toList)
    {before after : List Part} {x : Reference × Option String} (same : w.Denotes x input.reference)
    (parts : content.parts p table = before ++ .mention x :: after) :
    d.text =
      Python.substituteInputs table run.inputs
        (String.ofList (Part.text p.symbols table before)) ++
      p.symbols.qualify input.name ++
      Python.substituteInputs table run.inputs
        (String.ofList (Part.text p.symbols table after)) := by
  obtain ⟨todo, left, point⟩ := stored.point
  obtain ⟨python, ok, rfl⟩ := stored.text
  have later := after_body p candidate run.table content
  have written := written_body ok (after_refl _)
  have used := boundUsed_body point.boundUsed p candidate content
  rw [htable] at later written used ⊢
  have found : table.lookup (w.key input.reference) = some input.name :=
    later.bindings.lookup (point.lookup_input keys mem)
  -- The reference has the key of the input, so it is written by the input's name.
  have resolved : (table.resolve x.1 x.2).1 = input.name := by
    apply resolve_of_lookup
    rw [key_congr (later.sheets.trans point.sheets), same.key_eq, found]
  have filled : Part.fill p.symbols table (.mention x) = p.symbols.piece input.name := by
    rw [Part.fill, resolved]
  obtain ⟨spaced, text⟩ := written
  rw [parts, List.map_append, List.map_cons, filled] at spaced
  -- Signs stand on both sides, so no token reaches into the name.
  obtain ⟨closes, opens⟩ := spaced.around (Python.Scope.solid_symbolsPiece _ _)
  have python : python = String.ofList (Part.text p.symbols table before ++
      ((p.symbols.qualify input.name).toList ++ Part.text p.symbols table after)) := by
    apply String.toList_injective
    rw [← text, parts, Part.text, List.map_append, List.map_cons, filled, Piece.write_append,
      Piece.write_cons, Python.chars_symbolsPiece, String.toList_ofList]
    rfl
  rw [python]
  exact Python.substituteInputs_standing
    (fun input mem => later.bindings.lookup (point.bindsInputs keys input mem))
    (point.plain proper).keys (proper.cells (List.mem_append_left _ mem)) (used _ _ found) apart
    closes opens

/-- **Inputs are read.** If the inputs of the configuration are different cells, every body is a text
with places for all its references, which are filled before inputs are substituted. Wherever the
reference stands for the cells of an input, the name of the input is written, as an attribute unless
it is a global symbol. It stays when inputs are substituted, unless the key of an input encloses it. -/
theorem inputs_read {c : Config} {p : Plan} (accepted : Plan.ofConfig c = .ok p) {w : Workbook}
    (distinct : p.DistinctInputs w) :
    (∀ d ∈ (compile p w).sections.properties, ∃ run candidate content,
      Stored p w run candidate content d) ∧
    ∀ run candidate content d, Stored p w run candidate content d →
      let table := (body p candidate run.table content).2.1
      let parts := content.parts p table
      let written := fun parts => String.ofList (Part.text p.symbols table parts)
      let substituted := fun parts => Python.substituteInputs table run.inputs (written parts)
      (body p candidate run.table content).1 = .ok (written parts) ∧
      parts.filterMap Part.mention? = content.mentions ∧
      d.text = substituted parts ∧
      ∀ input ∈ p.bindings.inputs,
        input.name ∈ (compile p w).sections.interface.inputs ∧
        (p.symbols.qualify input.name = "self." ++ input.name ↔
          p.symbols.contains input.name = false) ∧
        ((∀ other ∈ run.inputs,
            ¬Python.Encloses other.1.toList (p.symbols.qualify input.name).toList) →
          ∀ before x after, parts = before ++ .mention x :: after →
            w.Denotes x input.reference →
            d.text = substituted before ++ p.symbols.qualify input.name ++ substituted after) := by
  have proper := Plan.proper_of_ofConfig accepted
  have keys := distinct.nodup proper
  obtain ⟨left, point, -⟩ := exists_point_compile p w
  refine ⟨fun d declared => point.exists_stored declared, ?_⟩
  intro run candidate content d stored table parts written substituted
  obtain ⟨python, ok, stores⟩ := stored.text
  have text : written parts = python := by
    rw [← String.ofList_toList (s := python), ← (written_body ok (after_refl _)).text]
  refine ⟨text ▸ ok, content.mentions_parts p table, ?_, fun input mem => ⟨mem_inputs_compile mem,
    p.symbols.qualify_eq_self_iff input.name, fun apart before x after split same => ?_⟩⟩
  · rw [stores, ← text]
  · exact stored.text_at_input proper keys rfl mem apart same split

/-- The only candidate is written right after all names are bound. -/
theorem stored_of_single {first : Candidate} (single : (bind p w).1 = [first])
    (hread : (read w first).toOption = some content)
    (kind : ((bind p w).2.factsOf p first content).classify = some .properties) {python : String}
    (ok : (body p first (bind p w).2.table content).1.toOption = some python)
    (stores : d = ⟨first.identifier, Python.substituteInputs
      (body p first (bind p w).2.table content).2.1 (bind p w).2.inputs python⟩) :
    Stored p w (bind p w).2 first content d := by
  have point : Point p w [first] p.config.maxDiscoveries (bind p w).2 := single ▸ .bound
  exact ⟨⟨[], _, point⟩, Fallible.toOption_eq_some_iff.1 hread, kind, python,
    Fallible.toOption_eq_some_iff.1 ok, stores⟩

/-- A block whose formulas move along a range and share a cell, both of which are inputs. -/
def fees : Except WorkbookError Workbook := do
  let w ← ({} : Workbook).addSheet "Calc"
  let w ← w.addSheet "Inputs"
  let w ← w.setFormula "Calc" "B1" "=A1*'INPUTS'!$D6"
  let w ← w.setFormula "Calc" "B2" "=A2*'INPUTS'!$D6"
  let w ← w.setValue "Inputs" "D6" (.string "low")
  w.defineName { name := "Fees", refersTo := "=Calc!$B$1:$B$2" }

def feesConfig : Config where
  spreadsheet := "fees.xlsx"
  inputs := [⟨"Inputs!D6", "rate"⟩, ⟨"calc!A1:$A$2", "amounts"⟩]

/-- Both inputs are read in one body, `rate` inside the loop and `amounts` as its range. -/
theorem inputs_read_fees :
    ∃ p w, Plan.ofConfig feesConfig = .ok p ∧ fees = .ok w ∧ p.DistinctInputs w ∧
      ∃ run candidate content, Stored p w run candidate content
        ⟨"Fees", "tuple(tuple(_v0*self.rate for _v0 in _r0) for _r0 in self.amounts)"⟩ ∧
      let table := (body p candidate run.table content).2.1
      let parts := content.parts p table
      let substituted := fun parts => Python.substituteInputs table run.inputs
        (String.ofList (Part.text p.symbols table parts))
      ∃ x y, content.mentions = [x, y] ∧ parts = parts.take 4 ++ .mention x :: parts.drop 5 ∧
        parts = parts.take 8 ++ .mention y :: parts.drop 9 ∧
        "tuple(tuple(_v0*self.rate for _v0 in _r0) for _r0 in self.amounts)" =
          substituted (parts.take 4) ++ "self.rate" ++ substituted (parts.drop 5) ∧
        "tuple(tuple(_v0*self.rate for _v0 in _r0) for _r0 in self.amounts)" =
          substituted (parts.take 8) ++ "self.amounts" ++ substituted (parts.drop 9) := by
  have facts : ((Plan.ofConfig feesConfig).toOption.bind fun p => fees.toOption.bind fun w =>
      p.bindings.inputs[0]?.bind fun rate => p.bindings.inputs[1]?.bind fun amounts =>
      (bind p w).1[0]?.bind fun first => (read w first).toOption.bind fun content =>
      content.mentions[0]?.bind fun x => content.mentions[1]?.map fun y =>
        let run := (bind p w).2
        let table := (body p first run.table content).2.1
        let parts := content.parts p table
        decide ((bind p w).1 = [first] ∧ p.DistinctInputs w ∧
          (run.factsOf p first content).classify = some .properties ∧
          (body p first run.table content).1.toOption =
            some "tuple(tuple(_v0*self.rate for _v0 in _r0) for _r0 in self.amounts)" ∧
          (⟨"Fees", "tuple(tuple(_v0*self.rate for _v0 in _r0) for _r0 in self.amounts)"⟩ :
            Declaration) = ⟨first.identifier, Python.substituteInputs table run.inputs
              "tuple(tuple(_v0*self.rate for _v0 in _r0) for _r0 in self.amounts)"⟩ ∧
          content.mentions = [x, y] ∧ parts = parts.take 4 ++ .mention x :: parts.drop 5 ∧
          parts = parts.take 8 ++ .mention y :: parts.drop 9 ∧
          w.Denotes x rate.reference ∧ w.Denotes y amounts.reference ∧
          p.symbols.qualify rate.name = "self.rate" ∧
          p.symbols.qualify amounts.name = "self.amounts" ∧
          (∀ other ∈ run.inputs, ¬Python.Encloses other.1.toList "self.rate".toList) ∧
          ∀ other ∈ run.inputs, ¬Python.Encloses other.1.toList "self.amounts".toList)) =
      some true := by decide +kernel
  obtain ⟨p, hp, facts⟩ := Option.bind_eq_some_iff.1 facts
  obtain ⟨w, hw, facts⟩ := Option.bind_eq_some_iff.1 facts
  obtain ⟨rate, hrate, facts⟩ := Option.bind_eq_some_iff.1 facts
  obtain ⟨amounts, hamounts, facts⟩ := Option.bind_eq_some_iff.1 facts
  obtain ⟨first, -, facts⟩ := Option.bind_eq_some_iff.1 facts
  obtain ⟨content, hread, facts⟩ := Option.bind_eq_some_iff.1 facts
  obtain ⟨x, -, facts⟩ := Option.bind_eq_some_iff.1 facts
  obtain ⟨y, -, facts⟩ := Option.map_eq_some_iff.1 facts
  obtain ⟨candidates, distinct, kind, written, stores, mentions, atRate, atAmounts, sameRate,
    sameAmounts, qualifyRate, qualifyAmounts, apartRate, apartAmounts⟩ := of_decide_eq_true facts
  have accepted := Fallible.toOption_eq_some_iff.1 hp
  have stored := stored_of_single candidates hread kind written stores
  obtain ⟨-, reads⟩ := inputs_read accepted distinct
  obtain ⟨-, -, -, inputs⟩ := reads _ _ _ _ stored
  obtain ⟨-, -, readsRate⟩ := inputs rate (List.mem_of_getElem? hrate)
  obtain ⟨-, -, readsAmounts⟩ := inputs amounts (List.mem_of_getElem? hamounts)
  rw [qualifyRate] at readsRate
  rw [qualifyAmounts] at readsAmounts
  exact ⟨p, w, accepted, Fallible.toOption_eq_some_iff.1 hw, distinct, _, first, content, stored, x, y,
    mentions, atRate, atAmounts, readsRate apartRate _ x _ atRate sameRate,
    readsAmounts apartAmounts _ y _ atAmounts sameAmounts⟩

/-! ### Inputs that are not read -/

/-- The only reference in the body of a property stands for the cells of an input, but the text of
the property does not hold the attribute of the input. -/
def Misreads (c : Config) (book : Except WorkbookError Workbook) (name : String) (d : Declaration) :
    Prop :=
  ∃ p w, Plan.ofConfig c = .ok p ∧ book = .ok w ∧ p.DistinctInputs w ∧
    ∃ run candidate content x, Stored p w run candidate content d ∧ content.mentions = [x] ∧
      (∃ input ∈ p.bindings.inputs, input.name = name ∧ w.Denotes x input.reference) ∧
      ¬("self." ++ name).toList <:+: d.text.toList

/-- The only candidate of a workbook misreads an input. -/
def misreadsFirst (c : Config) (book : Except WorkbookError Workbook) (name : String)
    (d : Declaration) : Option Bool :=
  (Plan.ofConfig c).toOption.bind fun p => book.toOption.bind fun w =>
  (bind p w).1[0]?.bind fun first => (read w first).toOption.bind fun content =>
  (body p first (bind p w).2.table content).1.toOption.bind fun python =>
  content.mentions[0]?.map fun x =>
    decide ((bind p w).1 = [first] ∧ p.DistinctInputs w ∧
      ((bind p w).2.factsOf p first content).classify = some .properties ∧
      d = ⟨first.identifier, Python.substituteInputs
        (body p first (bind p w).2.table content).2.1 (bind p w).2.inputs python⟩ ∧
      content.mentions = [x] ∧
      (∃ input ∈ p.bindings.inputs, input.name = name ∧ w.Denotes x input.reference) ∧
      ¬("self." ++ name).toList <:+: d.text.toList)

/-- The check of the only candidate finds a property that misreads the input. -/
theorem misreads_of_first {c : Config} {book : Except WorkbookError Workbook} {name : String}
    {d : Declaration} (facts : misreadsFirst c book name d = some true) : Misreads c book name d := by
  obtain ⟨p, hp, facts⟩ := Option.bind_eq_some_iff.1 facts
  obtain ⟨w, hw, facts⟩ := Option.bind_eq_some_iff.1 facts
  obtain ⟨first, -, facts⟩ := Option.bind_eq_some_iff.1 facts
  obtain ⟨content, hread, facts⟩ := Option.bind_eq_some_iff.1 facts
  obtain ⟨python, written, facts⟩ := Option.bind_eq_some_iff.1 facts
  obtain ⟨x, -, facts⟩ := Option.map_eq_some_iff.1 facts
  obtain ⟨candidates, distinct, kind, stores, mentions, same, lost⟩ := of_decide_eq_true facts
  exact ⟨p, w, Fallible.toOption_eq_some_iff.1 hp, Fallible.toOption_eq_some_iff.1 hw, distinct, _,
    first, content, x, stored_of_single candidates hread kind written stores, mentions, same, lost⟩

/-- An input with the name of a spreadsheet function. -/
def rates : Except WorkbookError Workbook := do
  let w ← ({} : Workbook).addSheet "Calc"
  let w ← w.addSheet "Inputs"
  let w ← w.setFormula "Calc" "B1" "=Inputs!D6*2"
  let w ← w.setValue "Inputs" "D6" (.string "low")
  w.defineName { name := "Double", refersTo := "=Calc!$B$1" }

def ratesConfig : Config where
  spreadsheet := "rates.xlsx"
  timestamp := false
  inputs := [⟨"Inputs!D6", "RATE"⟩]

/-- An input on a sheet whose name encloses the attribute of another input. -/
def quotes : Except WorkbookError Workbook := do
  let w ← ({} : Workbook).addSheet "Calc"
  let w ← w.addSheet "Inputs"
  let w ← w.addSheet "\" + self.a + \""
  let w ← w.setFormula "Calc" "B1" "=\"'\"&Inputs!D6&\"'!$A$1\""
  let w ← w.setValue "Inputs" "D6" (.string "x")
  let w ← w.setValue "\" + self.a + \"" "A1" (.string "y")
  w.defineName { name := "Sum", refersTo := "=Calc!$B$1" }

def quotesConfig : Config where
  spreadsheet := "quotes.xlsx"
  timestamp := false
  inputs := [⟨"Inputs!D6", "a"⟩, ⟨"'\" + self.a + \"'!A1", "b"⟩]

/-- The function is read in place of the input, and the other input in place of the text around the
attribute. -/
theorem inputs_misread :
    Misreads ratesConfig rates "RATE" ⟨"Double", "RATE*2"⟩ ∧
      Misreads quotesConfig quotes "a" ⟨"Sum", "\"self.b\""⟩ :=
  ⟨misreads_of_first (by decide +kernel), misreads_of_first (by decide +kernel)⟩

end Run

end SheetCompiler
