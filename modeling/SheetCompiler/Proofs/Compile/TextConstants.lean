import SheetCompiler.Proofs.Compile.Closure
import SheetCompiler.Proofs.Python.Substitution

/-!
# Text constants in properties

Inputs are substituted in the text of a property, which may hold string literals. When a formula is
written directly, only its attributes are rewritten, as long as no input takes a match from a
literal (`Run.text_constants_kept`). A literal that spells the key of an input is rewritten too
(`Run.hint_rewritten`).

The identifiers that a compilation can use come from the configuration, which is checked, from the
defined names, which are not, and from keys (`Run.Plain`).
-/

namespace SheetCompiler

open Python (Piece)

/-! ### A checked configuration -/

/-- A checked name is an identifier, and so holds no quote. -/
theorem isIdentifier_of_check {name : String} (h : checkIdentifier name = .ok ()) :
    Text.isIdentifier name := by
  unfold checkIdentifier at h
  split at h
  · cases h
  next valid => simpa using valid

/-- A checked cell has a name that is an identifier, and the reference that its text is read as. -/
theorem CellAlias.of_check {a : CellAlias} {cell : BoundCell} (h : a.check = .ok cell) :
    Text.isIdentifier cell.name ∧ Reference.parse a.cell = .ok cell.reference := by
  obtain ⟨⟨⟩, valid, bound⟩ := Fallible.bind_eq_ok_iff.1 h
  have valid := isIdentifier_of_check valid
  unfold CellAlias.bound at bound
  split at bound
  · cases bound
  next parsed =>
    split at bound
    · cases bound
    · cases bound
      exact ⟨valid, parsed⟩

/-- The cells of a configuration are checked, and all its names are identifiers. -/
structure Plan.Proper (p : Plan) : Prop where
  checked : ∀ cell ∈ p.cells, ∃ a : CellAlias, a.check = .ok cell
  renames : ∀ rename ∈ p.config.renames, Text.isIdentifier rename.2
  globals : p.symbols.Proper

/-- What was checked of an accepted configuration: its cells, and the names that it brings. -/
theorem Plan.checks_of_ofConfig {c : Config} {p : Plan} (accepted : Plan.ofConfig c = .ok p) :
    (∀ cell ∈ p.cells, ∃ a : CellAlias, a.check = .ok cell) ∧
    (∀ rename ∈ p.config.renames, checkIdentifier rename.2 = .ok ()) ∧
    ∀ name ∈ p.config.globals, checkIdentifier name = .ok () := by
  obtain ⟨bindings, valid, rest⟩ := Fallible.bind_eq_ok_iff.1 accepted
  obtain ⟨names, -, eq⟩ := Fallible.bind_eq_ok_iff.1 rest
  cases eq
  obtain ⟨inputs, hinputs, valid⟩ := Fallible.bind_eq_ok_iff.1 valid
  obtain ⟨outputs, houtputs, valid⟩ := Fallible.bind_eq_ok_iff.1 valid
  obtain ⟨⟨⟩, renames, valid⟩ := Fallible.bind_eq_ok_iff.1 valid
  obtain ⟨⟨⟩, globals, valid⟩ := Fallible.bind_eq_ok_iff.1 valid
  split at valid
  · cases valid
  · cases valid
    refine ⟨fun cell mem => ?_, fun rename mem => ?_, Fallible.forM_eq_ok globals⟩
    · rcases List.mem_append.1 mem with input | output
      · obtain ⟨a, -, checked⟩ :=
          Fallible.exists_mem_left (Fallible.mapM_eq_ok_iff.1 hinputs) input
        exact ⟨a, checked⟩
      · obtain ⟨a, -, checked⟩ :=
          Fallible.exists_mem_left (Fallible.mapM_eq_ok_iff.1 houtputs) output
        exact ⟨a, checked⟩
    · exact Fallible.mapError_eq_ok_iff.1 (Fallible.forM_eq_ok renames rename mem)

/-- An accepted configuration is proper. -/
theorem Plan.proper_of_ofConfig {c : Config} {p : Plan} (accepted : Plan.ofConfig c = .ok p) :
    p.Proper := by
  obtain ⟨cells, renames, globals⟩ := Plan.checks_of_ofConfig accepted
  exact ⟨cells, fun rename mem => isIdentifier_of_check (renames rename mem),
    fun name mem => isIdentifier_of_check (globals name mem)⟩

theorem Plan.Proper.cells {p : Plan} (proper : p.Proper) {cell : BoundCell} (mem : cell ∈ p.cells) :
    Text.isIdentifier cell.name := by
  obtain ⟨a, checked⟩ := proper.checked cell mem
  exact (CellAlias.of_check checked).1

theorem quoteless_of_isIdentifier {name : String} (h : Text.isIdentifier name) :
    '\'' ∉ name.toList :=
  Python.notMem_of_isIdentifier h (by decide)

/-! ### Identifiers without quotes -/

namespace AliasTable.Quoteless

variable {t : AliasTable} {identifier : String}

/-- Quotes come in with identifiers only. -/
theorem bind (quoteless : t.Quoteless) (plain : '\'' ∉ identifier.toList) (key : String)
    (layer : Layer) : (t.bind key identifier layer).Quoteless := by
  refine ⟨fun other b h => ?_, fun name other h => ?_⟩
  · rw [binding?_bind] at h
    split at h
    · cases h
      exact plain
    · exact quoteless.bound other b h
  · rw [renames_bind] at h
    exact quoteless.renamed name other h

theorem insertConfig (quoteless : t.Quoteless) (plain : '\'' ∉ identifier.toList) (r : Reference) :
    (t.insertConfig r identifier).Quoteless := by
  unfold AliasTable.insertConfig AliasTable.insert
  split
  · exact quoteless.bind plain _ _
  · exact quoteless

/-- A rename without quotes keeps quotes out of what names are written as. -/
theorem insertRename (quoteless : t.Quoteless) (plain : '\'' ∉ identifier.toList) (name : String) :
    (t.insertRename name identifier).Quoteless := by
  refine ⟨fun key b h => ?_, fun other found h => ?_⟩
  · rw [binding?_insertRename] at h
    exact quoteless.bound key b h
  · simp only [AliasTable.insertRename, renames_reserve, Assoc.find?_insert] at h
    split at h
    · cases h
      exact plain
    · exact quoteless.renamed other found h

theorem of_congr (quoteless : t.Quoteless) {t' : AliasTable} (bindings : t'.bindings = t.bindings)
    (renames : t'.renames = t.renames) : t'.Quoteless := by
  refine ⟨fun key b h => quoteless.bound key b ?_, fun name other h => quoteless.renamed name other ?_⟩
  · rwa [binding?, ← bindings]
  · rwa [← renames]

theorem lookup (quoteless : t.Quoteless) {key : String} (found : t.lookup key = some identifier) :
    '\'' ∉ identifier.toList := by
  obtain ⟨layer, bound⟩ := lookup_eq_some_iff.1 found
  exact quoteless.bound key _ bound

end AliasTable.Quoteless

namespace Run

/-- Inputs are given by keys. If `names` holds, no identifier of the run holds a quote. -/
structure Plain (names : Prop) (run : Run) : Prop where
  keys : ∀ input ∈ run.inputs, ∃ sheet range, input.1.toList = Reference.keyChars sheet range
  parameters : names → ∀ input ∈ run.inputs, '\'' ∉ input.2.toList
  table : names → run.table.Quoteless

namespace Plain

variable {names : Prop} {run : Run}

/-- The key of a new input is that of a reference. -/
theorem addInput (plain : run.Plain names) {identifier : String}
    (quoteless : names → '\'' ∉ identifier.toList) (t : AliasTable) (r : Reference) :
    (run.addInput (t.key r none) identifier).Plain names := by
  refine ⟨fun input mem => ?_, fun h input mem => ?_, plain.table⟩
  · rcases List.mem_append.1 mem with old | new
    · exact plain.keys input old
    · rw [List.mem_singleton.1 new]
      exact ⟨_, _, String.toList_ofList⟩
  · rcases List.mem_append.1 mem with old | new
    · exact plain.parameters h input old
    · rw [List.mem_singleton.1 new]
      exact quoteless h

theorem withTable (plain : run.Plain names) {t : AliasTable} (h : names → t.Quoteless) :
    { run with table := t }.Plain names :=
  ⟨plain.keys, plain.parameters, h⟩

variable {p : Plan} {w : Workbook}

/-- The names of a checked configuration are identifiers. -/
theorem bindConfig (proper : p.Proper) : (Run.bindConfig p w).Plain names := by
  have start : Plain names { table := w.sheetNames.foldl AliasTable.addSheet {} } := by
    refine ⟨nofun, fun _ => nofun, fun _ => ?_⟩
    change w.sheetTable.Quoteless
    rw [w.sheetTable_eq]
    exact ⟨nofun, nofun⟩
  have renamed : Plain names (p.config.renames.foldl bindRename
      { table := w.sheetNames.foldl AliasTable.addSheet {} }) :=
    List.foldlRecOn _ _ start fun run plain rename mem =>
      plain.withTable fun h => (plain.table h).insertRename
        (quoteless_of_isIdentifier (proper.renames rename mem)) _
  have cell : ∀ {run : Run} {cell : BoundCell}, run.Plain names → cell ∈ p.cells →
      { run with table := run.table.insertConfig cell.reference cell.name }.Plain names := by
    intro run cell plain mem
    exact plain.withTable fun h => (plain.table h).insertConfig
      (quoteless_of_isIdentifier (proper.cells mem)) _
  have inputs := List.foldlRecOn p.bindings.inputs bindInput renamed fun run plain input mem =>
    (cell plain (List.mem_append_left _ mem)).addInput
      (fun _ => quoteless_of_isIdentifier (proper.cells (List.mem_append_left _ mem))) _ _
  exact List.foldlRecOn p.bindings.outputs bindOutput inputs fun run plain output mem =>
    have bound := cell plain (List.mem_append_right _ mem)
    ⟨bound.keys, bound.parameters, bound.table⟩

/-- Named cells that become an input have the key of their reference. -/
theorem declare (plain : run.Plain names) {identifier : String}
    (quoteless : names → '\'' ∉ identifier.toList) (c : Config) (t : AliasTable) (r : Reference) :
    (run.declare c w r (t.key r none) identifier).Plain names := by
  rcases declare_cases c w r (t.key r none) identifier run with same | input | output
  · rw [same]
    exact plain
  · rw [input]
    exact plain.addInput quoteless t r
  · rw [output]
    exact ⟨plain.keys, plain.parameters, plain.table⟩

/-- A name gives its cells its own identifier, or takes the one they have. -/
theorem bindCells (plain : run.Plain names) {identifier : String}
    (quoteless : names → '\'' ∉ identifier.toList) (c : Config) (name : String) (r : Reference) :
    (run.bindCells c w name identifier r).2.Plain names := by
  unfold Run.bindCells AliasTable.insertName AliasTable.insert
  dsimp only
  by_cases free : run.table.accepts (run.table.key r none) .definedName
  · have bound := plain.withTable fun h => (plain.table h).bind (quoteless h)
      (run.table.key r none) .definedName
    rw [if_pos free]
    exact bound.declare quoteless c run.table r
  · rw [if_neg free]
    refine plain.withTable fun h => ?_
    split
    · exact plain.table h
    · refine (plain.table h).insertRename ?_ name
      cases found : run.table.lookup (run.table.key r none) with
      | none => exact quoteless h
      | some owner => exact (plain.table h).lookup found

/-- The step for one name. -/
theorem bindName (plain : run.Plain names) {c : Config} {d : DefinedName}
    (quoteless : names → '\'' ∉ d.name.toList) : (run.bindName c w d).2.Plain names := by
  have written : names → '\'' ∉ (run.table.rename d.name).toList := fun h =>
    (plain.table h).rename (quoteless h)
  unfold Run.bindName
  cases target : d.target with
  | unresolved | builtin | broken => exact plain
  | formula text sheet =>
    refine plain.withTable fun h => (plain.table h).of_congr ?_ ?_
    · exact AliasTable.bindings_reserve _ _
    · exact AliasTable.renames_reserve _ _
  | cells r => exact plain.bindCells written c d.name r

/-- The run over the names, as long as none of them holds a quote. -/
theorem bindNames (plain : run.Plain names) {c : Config} {ds : List DefinedName}
    (quoteless : names → ∀ d ∈ ds, '\'' ∉ d.name.toList) :
    (Run.bindNames c w ds run).2.Plain names := by
  induction ds generalizing run with
  | nil => exact plain
  | cons d ds ih =>
    have next : (run.bindName c w d).2.Plain names :=
      plain.bindName fun h => quoteless h d List.mem_cons_self
    have rest := ih next fun h d' mem => quoteless h d' (List.mem_cons_of_mem d mem)
    simpa only [Run.bindNames] using rest

end Plain

variable {p : Plan} {w : Workbook} {run run' : Run} {candidate : Candidate}

theorem Outcome.inputs (outcome : Outcome p w run candidate run') : run'.inputs = run.inputs := by
  cases outcome with
  | unreadable => rfl
  | diagnosed | input | constant | unclassified =>
    simp [diagnose, addUnclassified, addConstant, setOwner]
  | property content python hread kind written => simp [addProperty_of_ok written, setOwner]
  | unwritten content e hread kind failed => simp [addProperty_of_error failed, fail]

/-- Which inputs there are is settled when the names are bound. -/
theorem Point.inputs {todo : List Candidate} {left : Nat} (point : Point p w todo left run) :
    run.inputs = (bind p w).2.inputs := by
  induction point with
  | bound => rfl
  | processed point ih => rw [(process_outcome p w _ _).inputs, ih]
  | found point next parsed ih | unread point next unparsed ih | stopped point next ih =>
    obtain ⟨rest, -, rfl⟩ := next_eq_some next
    exact ih
  | settled point next ih =>
    rw [(next_eq_none next).2]
    exact ih

/-- The identifiers of a compilation hold no quotes, unless a defined name does. -/
theorem Point.plain {todo : List Candidate} {left : Nat} (point : Point p w todo left run)
    (proper : p.Proper) : run.Plain (∀ d ∈ w.names, '\'' ∉ d.name.toList) := by
  have bound : (bind p w).2.Plain (∀ d ∈ w.names, '\'' ∉ d.name.toList) :=
    (Plain.bindConfig proper).bindNames id
  refine ⟨?_, ?_, fun h => ?_⟩
  · rw [point.inputs]
    exact bound.keys
  · rw [point.inputs]
    exact bound.parameters
  · exact point.table_induction (bound.table h) (fun t r current quoteless =>
      (quoteless.resolve r current).2) fun t pending quoteless => quoteless.of_congr rfl rfl

end Run

/-! ### Direct translation -/

/-- The formula that a body is written from directly, with the sheet it stands on. -/
def Content.formula? : Content → Option (String × Option String)
  | .region g =>
    match g.rows with
    | [[only]] => only.formula.map (·, some g.sheet)
    | _ => none
  | .formula text sheet => some (text, sheet)
  | .nothing => none

/-- A single cell with a formula and a name for a formula are both translated directly. -/
theorem Run.body_of_formula? {content : Content} {text : String} {sheet : Option String}
    (h : content.formula? = some (text, sheet)) (p : Plan) (candidate : Candidate) (t : AliasTable) :
    ∃ location, body p candidate t content =
      ((Body.formula { symbols := p.symbols, sheet } candidate.name location text t).1,
        (Body.formula { symbols := p.symbols, sheet } candidate.name location text t).2, .direct) := by
  unfold Content.formula? at h
  cases content with
  | nothing => simp at h
  | formula text' sheet' =>
    obtain ⟨rfl, rfl⟩ : text' = text ∧ sheet' = sheet := by simpa using h
    exact ⟨candidate.refersTo, body_formula p candidate t text' sheet'⟩
  | region g =>
    dsimp only at h
    split at h
    next only rows =>
      obtain ⟨formula, found, eq⟩ := Option.map_eq_some_iff.1 h
      obtain ⟨rfl, rfl⟩ : formula = text ∧ some g.sheet = sheet := by simpa using eq
      refine ⟨(Reference.cell g.sheet only.address).text, ?_⟩
      simp only [body, Body.region, rows, Body.cell, found]
    next => cases h

namespace Run

/-- What substituting the inputs of a run leaves of a translated formula: its attributes are
rewritten, each as if it stood alone. -/
theorem Plain.substituteInputs_write {names : Prop} {run : Run} (plain : run.Plain names)
    {scope : Python.Scope} (symbols : scope.symbols.Proper) (free : scope.locals = []) {f : Formula}
    (wf : f.WellFormed) (t : AliasTable)
    (spared : ∀ step ∈ Python.replacements t run.inputs, ∀ content ∈ f.texts,
      Python.Spares step.1 step.2 content)
    (quoted : (∃ input ∈ run.inputs, '\'' ∈ input.1.toList) → names) :
    (Python.substituteInputs t run.inputs (scope.formula f run.table).1).toList =
      Piece.write ((scope.formulaPieces f run.table).map (Piece.rewrite fun cs =>
        (Python.substituteInputs t run.inputs (String.ofList cs)).toList)) := by
  have texts : ∀ content, .text content ∈ scope.formulaPieces f run.table → content ∈ f.texts := by
    intro content mem
    rw [← scope.texts_formulaPieces f run.table]
    exact List.mem_filterMap.2 ⟨_, mem, rfl⟩
  have tokens : ∀ step ∈ Python.replacements t run.inputs, Python.IsToken step.1 := by
    intro step mem
    obtain ⟨input, hinput, -, suggested | key⟩ := Python.mem_replacements mem
    · rw [suggested]
      exact Python.isToken_suggested input.1
    · obtain ⟨sheet, range, eq⟩ := plain.keys input hinput
      rw [key, eq]
      exact Python.isToken_keyChars sheet range
  have quoteless : (∃ step ∈ Python.replacements t run.inputs, Python.quotedEnd? step.1 ≠ none) →
      (∀ p ∈ scope.formulaPieces f run.table, p.Quoteless) ∧
        ∀ step ∈ Python.replacements t run.inputs, '\'' ∉ step.2 := by
    rintro ⟨step, mem, ends⟩
    -- A token with a quote is the key of an input, not the attribute that it suggests.
    have holds : names := by
      obtain ⟨input, hinput, -, suggested | key⟩ := Python.mem_replacements mem
      · rw [suggested, Python.quotedEnd?_of_notMem (Python.quoteless_suggested input.1)] at ends
        exact absurd rfl ends
      · refine quoted ⟨input, hinput, ?_⟩
        by_contra without
        rw [key, Python.quotedEnd?_of_notMem without] at ends
        exact ends rfl
    refine ⟨scope.writes_quoteless.formula wf (plain.table holds), fun step mem quote => ?_⟩
    obtain ⟨input, hinput, eq, -⟩ := Python.mem_replacements mem
    rw [eq, List.mem_append] at quote
    rcases quote with self | parameter
    · exact absurd self (by decide)
    · exact plain.parameters holds input hinput parameter
  have rewritten := (scope.spaced_formulaPieces f run.table).replaceAll_write tokens
    ((Python.Scope.writes_inert symbols free).formula wf trivial) quoteless
    fun step mem content text => spared step mem content (texts content text)
  simp only [Python.substituteInputs_eq, String.toList_ofList]
  rw [← scope.write_formulaPieces, rewritten]

/-- A property that is written directly is the translation of a formula, with its inputs
substituted. -/
theorem Stored.exists_formula {p : Plan} {w : Workbook} {run : Run} {candidate : Candidate}
    {content : Content} {d : Declaration} (stored : Stored p w run candidate content d)
    {text : String} {sheet : Option String} (direct : content.formula? = some (text, sheet)) :
    ∃ f, Formula.parseSingle text = .ok f ∧
      let scope : Python.Scope := { symbols := p.symbols, sheet }
      d.text = Python.substituteInputs (scope.formula f run.table).2 run.inputs
        (scope.formula f run.table).1 := by
  obtain ⟨python, written, rfl⟩ := stored.text
  obtain ⟨location, eq⟩ := body_of_formula? direct p candidate run.table
  rw [eq] at written ⊢
  unfold Body.formula at written ⊢
  cases parsed : Formula.parseSingle text with
  | error e =>
    rw [parsed] at written
    cases written
  | ok f =>
    rw [parsed] at written
    cases written
    exact ⟨f, rfl, rfl⟩

/-- **Text constants are kept.** A formula that is written directly is stored as its pieces, of which
only attributes are rewritten, so its text constants stand in the body as literals. This holds if the
substitution of an input takes no match from the literal of a text constant, and if defined names
hold no quotes where an input is on a sheet whose name is quoted. -/
theorem text_constants_kept {c : Config} {p : Plan} (accepted : Plan.ofConfig c = .ok p)
    {w : Workbook} {run : Run} {candidate : Candidate} {content : Content} {d : Declaration}
    (stored : Stored p w run candidate content d) {text : String} {sheet : Option String}
    (direct : content.formula? = some (text, sheet)) :
    ∃ f, Formula.parseSingle text = .ok f ∧
      let scope : Python.Scope := { symbols := p.symbols, sheet }
      let table := (scope.formula f run.table).2
      let pieces := scope.formulaPieces f run.table
      d.text = Python.substituteInputs table run.inputs (scope.formula f run.table).1 ∧
      Piece.write pieces = (scope.formula f run.table).1.toList ∧
      pieces.filterMap Piece.text? = f.texts ∧
      ((∀ step ∈ Python.replacements table run.inputs, ∀ s ∈ f.texts,
          Python.Spares step.1 step.2 s) →
        ((∃ input ∈ run.inputs, '\'' ∈ input.1.toList) →
          ∀ name ∈ w.names, '\'' ∉ name.name.toList) →
        d.text.toList = Piece.write (pieces.map (Piece.rewrite fun cs =>
          (Python.substituteInputs table run.inputs (String.ofList cs)).toList)) ∧
        ∀ s ∈ f.texts, (Python.stringLiteral s).toList <:+: d.text.toList) := by
  obtain ⟨todo, left, point⟩ := stored.point
  have proper := Plan.proper_of_ofConfig accepted
  obtain ⟨f, parsed, stores⟩ := stored.exists_formula direct
  refine ⟨f, parsed, ?_⟩
  intro scope table pieces
  refine ⟨stores, scope.write_formulaPieces f run.table, scope.texts_formulaPieces f run.table,
    fun spared quoted => ?_⟩
  have symbols : scope.symbols.Proper := proper.globals
  have kept := (point.plain proper).substituteInputs_write symbols rfl
    (Formula.wellFormed_of_parseSingle parsed) table spared quoted
  rw [stores]
  refine ⟨kept, fun s mem => ?_⟩
  rw [kept]
  exact scope.literal_stands mem run.table _

/-- A text that all but spells the key of an input, beside a name that is rewritten, and an input on a
sheet whose name is quoted. -/
def summary : Except WorkbookError Workbook := do
  let w ← ({} : Workbook).addSheet "Calc"
  let w ← w.addSheet "Inputs"
  let w ← w.addSheet "Tax Rates"
  let w ← w.setFormula "Calc" "B1" "=InputsD6&\" of Inputs!$D$60\"&'Tax Rates'!B2"
  let w ← w.setValue "Inputs" "D6" (.string "high")
  let w ← w.setValue "Tax Rates" "B2" (.string "low")
  w.defineName { name := "Summary", refersTo := "=Calc!$B$1" }

def summaryConfig : Config where
  spreadsheet := "summary.xlsx"
  inputs := [⟨"Inputs!D6", "level"⟩, ⟨"'Tax Rates'!B2", "rate"⟩]

/-- The name is rewritten, and the text beside it is kept though it all but spells the key. -/
theorem text_constants_kept_summary :
    ∃ p w, Plan.ofConfig summaryConfig = .ok p ∧ summary = .ok w ∧
      ∃ run candidate content, Stored p w run candidate content
        ⟨"Summary", "self.level + \" of Inputs!$D$60\" + self.rate"⟩ ∧
      ∃ text sheet f, content.formula? = some (text, sheet) ∧ Formula.parseSingle text = .ok f ∧
        f.texts = [" of Inputs!$D$60"] ∧
        let scope : Python.Scope := { symbols := p.symbols, sheet }
        (scope.formula f run.table).1 =
          "self.InputsD6 + \" of Inputs!$D$60\" + self.rate" ∧
        ∀ s ∈ f.texts, (Python.stringLiteral s).toList <:+:
          "self.level + \" of Inputs!$D$60\" + self.rate".toList := by
  have facts : ((Plan.ofConfig summaryConfig).toOption.bind fun p => summary.toOption.bind fun w =>
      (bind p w).1[0]?.bind fun first => (read w first).toOption.bind fun content =>
        content.formula?.bind fun source => (Formula.parseSingle source.1).toOption.map fun f =>
          let run := (bind p w).2
          let scope : Python.Scope := { symbols := p.symbols, sheet := source.2 }
          let table := (scope.formula f run.table).2
          decide ((bind p w).1 = [first] ∧
            (run.factsOf p first content).classify = some .properties ∧
            (body p first run.table content).1.toOption = some (scope.formula f run.table).1 ∧
            (⟨"Summary", "self.level + \" of Inputs!$D$60\" + self.rate"⟩ :
              Declaration) = ⟨first.identifier, Python.substituteInputs
                (body p first run.table content).2.1 run.inputs (scope.formula f run.table).1⟩ ∧
            f.texts = [" of Inputs!$D$60"] ∧
            (scope.formula f run.table).1 =
              "self.InputsD6 + \" of Inputs!$D$60\" + self.rate" ∧
            (∀ step ∈ Python.replacements table run.inputs, ∀ s ∈ f.texts,
              Python.Spares step.1 step.2 s) ∧
            ∀ name ∈ w.names, '\'' ∉ name.name.toList)) = some true := by decide +kernel
  obtain ⟨p, hp, facts⟩ := Option.bind_eq_some_iff.1 facts
  obtain ⟨w, hw, facts⟩ := Option.bind_eq_some_iff.1 facts
  obtain ⟨first, -, facts⟩ := Option.bind_eq_some_iff.1 facts
  obtain ⟨content, hread, facts⟩ := Option.bind_eq_some_iff.1 facts
  obtain ⟨⟨text, sheet⟩, direct, facts⟩ := Option.bind_eq_some_iff.1 facts
  obtain ⟨f, parsed, facts⟩ := Option.map_eq_some_iff.1 facts
  obtain ⟨candidates, kind, written, stores, texts, python, spared, names⟩ := of_decide_eq_true facts
  have accepted := Fallible.toOption_eq_some_iff.1 hp
  have point : Point p w [first] p.config.maxDiscoveries (bind p w).2 := candidates ▸ .bound
  have stored : Stored p w (bind p w).2 first content
      ⟨"Summary", "self.level + \" of Inputs!$D$60\" + self.rate"⟩ :=
    ⟨⟨[], _, point⟩, Fallible.toOption_eq_some_iff.1 hread, kind, _,
      Fallible.toOption_eq_some_iff.1 written, stores⟩
  obtain ⟨f', parsed', -, -, -, kept⟩ := text_constants_kept accepted stored direct
  have parsed := Fallible.toOption_eq_some_iff.1 parsed
  obtain rfl : f' = f := Except.ok.inj (parsed'.symm.trans parsed)
  exact ⟨p, w, accepted, Fallible.toOption_eq_some_iff.1 hw, _, first, content, stored, text, sheet,
    f', direct, parsed, texts, python, (kept spared fun _ => names).2⟩

/-- A text that spells the key of an input. -/
def hint : Except WorkbookError Workbook := do
  let w ← ({} : Workbook).addSheet "Calc"
  let w ← w.addSheet "Inputs"
  let w ← w.setFormula "Calc" "B1" "=\"see Inputs!$D$6\""
  let w ← w.setValue "Inputs" "D6" (.string "high")
  w.defineName { name := "Hint", refersTo := "=Calc!$B$1" }

def hintConfig : Config where
  spreadsheet := "hints.xlsx"
  timestamp := false
  inputs := [⟨"Inputs!D6", "level"⟩]

/-- The text is rewritten. -/
theorem hint_rewritten :
    ∃ p w, Plan.ofConfig hintConfig = .ok p ∧ hint = .ok w ∧
      ∃ run candidate content, Stored p w run candidate content ⟨"Hint", "\"see self.level\""⟩ ∧
      ∃ text sheet f, content.formula? = some (text, sheet) ∧ Formula.parseSingle text = .ok f ∧
        f.texts = ["see Inputs!$D$6"] ∧
        ¬(Python.stringLiteral "see Inputs!$D$6").toList <:+: "\"see self.level\"".toList := by
  have facts : ((Plan.ofConfig hintConfig).toOption.bind fun p => hint.toOption.bind fun w =>
      (bind p w).1[0]?.bind fun first => (read w first).toOption.bind fun content =>
        content.formula?.bind fun source => (Formula.parseSingle source.1).toOption.map fun f =>
          let run := (bind p w).2
          decide ((bind p w).1 = [first] ∧
            (run.factsOf p first content).classify = some .properties ∧
            (body p first run.table content).1.toOption = some "\"see Inputs!$D$6\"" ∧
            (⟨"Hint", "\"see self.level\""⟩ : Declaration) = ⟨first.identifier,
              Python.substituteInputs (body p first run.table content).2.1 run.inputs
                "\"see Inputs!$D$6\""⟩ ∧
            f.texts = ["see Inputs!$D$6"])) = some true := by decide +kernel
  obtain ⟨p, hp, facts⟩ := Option.bind_eq_some_iff.1 facts
  obtain ⟨w, hw, facts⟩ := Option.bind_eq_some_iff.1 facts
  obtain ⟨first, -, facts⟩ := Option.bind_eq_some_iff.1 facts
  obtain ⟨content, hread, facts⟩ := Option.bind_eq_some_iff.1 facts
  obtain ⟨⟨text, sheet⟩, direct, facts⟩ := Option.bind_eq_some_iff.1 facts
  obtain ⟨f, parsed, facts⟩ := Option.map_eq_some_iff.1 facts
  obtain ⟨candidates, kind, written, stores, texts⟩ := of_decide_eq_true facts
  have point : Point p w [first] p.config.maxDiscoveries (bind p w).2 := candidates ▸ .bound
  have stored : Stored p w (bind p w).2 first content ⟨"Hint", "\"see self.level\""⟩ :=
    ⟨⟨[], _, point⟩, Fallible.toOption_eq_some_iff.1 hread, kind, _,
      Fallible.toOption_eq_some_iff.1 written, stores⟩
  have lost : ¬(Python.stringLiteral "see Inputs!$D$6").toList <:+: "\"see self.level\"".toList := by
    decide +kernel
  exact ⟨p, w, Fallible.toOption_eq_some_iff.1 hp, Fallible.toOption_eq_some_iff.1 hw, _, first,
    content, stored, text, sheet, f, direct, Fallible.toOption_eq_some_iff.1 parsed, texts, lost⟩

end Run

end SheetCompiler
