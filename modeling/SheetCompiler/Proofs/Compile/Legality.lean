import SheetCompiler.Proofs.Compile.DeclaredOnce
import SheetCompiler.Proofs.Compile.TextConstants
import SheetCompiler.Proofs.Python.DiscoveredNames

/-!
# When all declarations are legal

An identifier that is declared comes from the configuration, which is checked; from a key, which
ends in the digits of a row, as no reserved word does (`Python.isLegal_fresh`); or from a defined
name, whose spelling nobody checks. `Run.Spelled` follows this through the binding of the names, and
`Run.declarations_legal_iff` says exactly when a class can be read by Python: when no name spells an
identifier that is not legal for something declared, and no parameter has the name of one that every
constructor takes.
-/

namespace SheetCompiler

/-! ### Legal names -/

/-- The check accepts exactly the legal identifiers. -/
theorem checkIdentifier_eq_ok_iff {name : String} :
    checkIdentifier name = .ok () ↔ Python.IsLegal name := by
  have shape : Text.isIdentifier name = true ↔ ∃ c cs, name.toList = c :: cs ∧
      (c.isAlpha ∨ c = '_') ∧ ∀ d ∈ cs, d.isAlphanum ∨ d = '_' := by
    rw [Text.isIdentifier]
    cases name.toList with
    | nil => simp [Text.isIdentifierChars]
    | cons c cs =>
      simp [Text.isIdentifierChars, Text.isIdentifierStart, Text.isIdentifierChar]
  have reserved : Python.isKeyword name = true ↔ name ∈ Python.keywords := List.contains_iff_mem
  rw [Python.IsLegal, ← shape, ← reserved]
  unfold checkIdentifier
  cases Text.isIdentifier name <;> cases Python.isKeyword name <;> simp

instance (name : String) : Decidable (Python.IsLegal name) :=
  decidable_of_iff ((checkIdentifier name).toOption.isSome = true) (by
    rw [← checkIdentifier_eq_ok_iff]
    cases checkIdentifier name <;> simp [Except.toOption])

/-! ### Where identifiers come from -/

/-- The name of a checked cell is legal. -/
theorem CellAlias.isLegal_of_check {a : CellAlias} {cell : BoundCell} (h : a.check = .ok cell) :
    Python.IsLegal cell.name := by
  obtain ⟨⟨⟩, valid, bound⟩ := Fallible.bind_eq_ok_iff.1 h
  unfold CellAlias.bound at bound
  split at bound
  · cases bound
  · split at bound
    · cases bound
    · cases bound
      exact checkIdentifier_eq_ok_iff.1 valid

/-- A legal identifier, or a name of the workbook as it is spelled there, which the configuration
does not rename. -/
def Plan.Spells (p : Plan) (w : Workbook) (identifier : String) : Prop :=
  Python.IsLegal identifier ∨
    ∃ d ∈ w.names, d.name = identifier ∧ d.name ∉ p.config.renames.map (·.1)

namespace Run

variable {p : Plan} {w : Workbook} {named : List Candidate} {run : Run} {d : DefinedName}

/-- What is known of the identifiers when the configuration and some of the names are bound. -/
structure Spelled (p : Plan) (w : Workbook) (named : List Candidate) (run : Run) : Prop where
  known : Named p w named run
  renamed : ∀ rename ∈ p.config.renames, (Assoc.find? rename.1 run.table.renames).isSome
  renames : ∀ name identifier, Assoc.find? name run.table.renames = some identifier →
    p.Spells w identifier
  bindings : ∀ key b, run.table.binding? key = some b → p.Spells w b.identifier
  candidates : ∀ c ∈ named, p.Spells w c.identifier
  inputs : ∀ name ∈ run.sections.interface.inputs,
    (∃ input ∈ p.bindings.inputs, input.name = name) ∨ ∃ c ∈ named, c.identifier = name
  distinct : run.sections.interface.inputs.Nodup

theorem find?_renames_insertRename (t : AliasTable) (name identifier other : String) :
    Assoc.find? other (t.insertRename name identifier).renames =
      if other = name then some identifier else Assoc.find? other t.renames := by
  simp [AliasTable.insertRename, Assoc.find?_insert]

theorem nodup_addName {names : List String} (distinct : names.Nodup) (name : String) :
    (addName names name).Nodup := by
  unfold addName
  split
  next => exact distinct
  next new => exact List.concat_eq_append ▸ distinct.concat new

/-- Named cells that become an input leave the parameters distinct. -/
theorem nodup_declare (c : Config) (w : Workbook) (r : Reference) (key identifier : String)
    (run : Run) (distinct : run.sections.interface.inputs.Nodup) :
    (run.declare c w r key identifier).sections.interface.inputs.Nodup := by
  rcases declare_cases c w r key identifier run with same | input | output
  · rwa [same]
  · rw [input]
    exact nodup_addName distinct identifier
  · rwa [output]

namespace Spelled

/-- What is written for a name is a legal rename, or the name itself. -/
theorem rename (spelled : Spelled p w named run) (mem : d ∈ w.names) :
    p.Spells w (run.table.rename d.name) := by
  cases found : Assoc.find? d.name run.table.renames with
  | some identifier =>
    rw [AliasTable.rename, found]
    exact spelled.renames _ _ found
  | none =>
    rw [AliasTable.rename, found]
    refine .inr ⟨d, mem, rfl, fun renamed => ?_⟩
    obtain ⟨rename, mem, same⟩ := List.mem_map.1 renamed
    have := spelled.renamed rename mem
    simp [same, found] at this

/-- Binding one more name. -/
theorem bindName (spelled : Spelled p w named run) (mem : d ∈ w.names) :
    Spelled p w (named ++ [(run.bindName p.config w d).1]) (run.bindName p.config w d).2 := by
  have naming := bindName_naming (c := p.config) (w := w) (d := d) spelled.known.layers
  have known := spelled.known.naming naming
  have written := spelled.rename mem
  have nowhere := identifier_bindName p.config w run d
  have kept : ∀ c name, (∃ input ∈ p.bindings.inputs, input.name = name) ∨
      (∃ c ∈ named, c.identifier = name) → (∃ input ∈ p.bindings.inputs, input.name = name) ∨
        ∃ c' ∈ named ++ [c], c'.identifier = name := fun c name =>
    .imp_right fun ⟨c', mem, same⟩ => ⟨c', List.mem_append_left _ mem, same⟩
  have candidates : ∀ c : Candidate, p.Spells w c.identifier →
      ∀ c' ∈ named ++ [c], p.Spells w c'.identifier := by
    intro c own c' mem
    rcases List.mem_append.1 mem with old | new
    · exact spelled.candidates c' old
    · rwa [List.mem_singleton.1 new]
  generalize run.bindName p.config w d = result at naming nowhere known ⊢
  cases naming with
  | first r key identifier target hkey unbound hid =>
    -- The cells get the spelling of the name for their identifier.
    subst hid
    refine ⟨known, ?_, ?_, ?_, candidates _ written, fun name mem => ?_, ?_⟩
    · simpa using spelled.renamed
    · simpa using spelled.renames
    · intro other b bound
      rw [table_declare, AliasTable.binding?_bind] at bound
      split at bound
      · cases bound
        exact written
      · exact spelled.bindings other b bound
    · rcases (mem_inputs_declare ..).1 mem with old | ⟨-, rfl⟩
      · exact kept _ name (spelled.inputs name old)
      · exact .inr ⟨_, List.mem_append_right _ (List.mem_singleton_self _), rfl⟩
    · exact nodup_declare _ _ _ _ _ _ spelled.distinct
  | again r b target bound =>
    -- The cells have an identifier, and the name becomes another spelling of it.
    have owner := spelled.bindings _ b bound
    refine ⟨known, fun rename mem => ?_, fun name identifier found => ?_, fun key b' bound' => ?_,
      candidates _ owner, fun name mem => kept _ name (spelled.inputs name mem), spelled.distinct⟩
    · dsimp only
      split
      · exact spelled.renamed rename mem
      · rw [find?_renames_insertRename]
        split
        · rfl
        · exact spelled.renamed rename mem
    · dsimp only at found
      split at found
      · exact spelled.renames name identifier found
      · rw [find?_renames_insertRename] at found
        split at found
        · cases found
          exact owner
        · exact spelled.renames name identifier found
    · refine spelled.bindings key b' ?_
      dsimp only at bound'
      split at bound' <;> simpa using bound'
  | elsewhere identifier used target grown =>
    have own : identifier = run.table.rename d.name := nowhere target
    exact ⟨known, spelled.renamed, spelled.renames, spelled.bindings, candidates _ (own ▸ written),
      fun name mem => kept _ name (spelled.inputs name mem), spelled.distinct⟩

/-- The run over the names. -/
theorem bindNames (spelled : Spelled p w named run) {ds : List DefinedName} (mem : ds ⊆ w.names) :
    Spelled p w (named ++ (bindNames p.config w ds run).1) (bindNames p.config w ds run).2 := by
  induction ds generalizing named run with
  | nil => simpa [Run.bindNames] using spelled
  | cons d ds ih =>
    obtain ⟨first, others⟩ := List.cons_subset.1 mem
    have := ih (spelled.bindName first) others
    simpa [Run.bindNames] using this

/-- The renames of the configuration, of which the last one for a name counts. -/
theorem foldl_insertRename (renames : List (String × String)) (t : AliasTable) :
    (∀ name, (Assoc.find? name t.renames).isSome ∨ name ∈ renames.map (·.1) →
      (Assoc.find? name (renames.foldl (fun t rename => t.insertRename rename.1 rename.2) t).renames).isSome) ∧
    ∀ name identifier,
      Assoc.find? name (renames.foldl (fun t rename => t.insertRename rename.1 rename.2) t).renames =
        some identifier →
      Assoc.find? name t.renames = some identifier ∨ ∃ rename ∈ renames, rename.2 = identifier := by
  induction renames generalizing t with
  | nil => simp
  | cons rename renames ih =>
    obtain ⟨stays, comes⟩ := ih (t.insertRename rename.1 rename.2)
    simp only [find?_renames_insertRename] at stays comes
    refine ⟨fun name known => stays name ?_, fun name identifier found => ?_⟩
    · split
      · exact .inl rfl
      next other => simpa [other] using known
    · rcases comes name identifier found with old | ⟨later, mem, rfl⟩
      · split at old
        · cases old
          exact .inr ⟨rename, List.mem_cons_self, rfl⟩
        · exact .inl old
      · exact .inr ⟨later, List.mem_cons_of_mem _ mem, rfl⟩

/-- The configuration brings legal names only. -/
theorem bindConfig {c : Config} (accepted : Plan.ofConfig c = .ok p) (w : Workbook) :
    Spelled p w [] (bindConfig p w) := by
  obtain ⟨checked, legal, -⟩ := Plan.checks_of_ofConfig accepted
  obtain ⟨table, -, inputs, -⟩ := bindConfig_spec p w
  have renames : (Run.bindConfig p w).table.renames = (p.startTable w).renames := by
    rw [table, AliasTable.renames_configure]
  obtain ⟨stays, comes⟩ := foldl_insertRename p.config.renames w.sheetTable
  rw [← Plan.startTable, ← renames] at stays comes
  refine ⟨.bindConfig p w, fun rename mem => ?_, fun name identifier found => ?_, fun key b bound => ?_,
    by simp, fun name mem => .inl ((inputs name).1 mem), ?_⟩
  · exact stays rename.1 (.inr (List.mem_map_of_mem mem))
  · rcases comes name identifier found with old | ⟨rename, mem, rfl⟩
    · rw [w.sheetTable_eq] at old
      cases old
    · exact .inl (checkIdentifier_eq_ok_iff.1 (legal rename mem))
  · rw [binding?_bindConfig] at bound
    obtain ⟨cell, first, rfl⟩ := Option.map_eq_some_iff.1 bound
    obtain ⟨a, checked⟩ := checked cell (List.mem_of_find?_eq_some first)
    exact .inl (CellAlias.isLegal_of_check checked)
  · rw [bindConfig_eq]
    have bound := List.foldlRecOn p.bindings.inputs bindInput
      (motive := fun run => run.sections.interface.inputs.Nodup) (b := { table := p.startTable w })
      .nil fun run distinct input _ => nodup_addName distinct input.name
    exact List.foldlRecOn p.bindings.outputs bindOutput
      (motive := fun run => run.sections.interface.inputs.Nodup) bound fun run distinct _ _ => distinct

end Spelled

variable (p w) in
/-- What the names of the workbook become. -/
def namedCandidates : List Candidate := (bindNames p.config w w.names (bindConfig p w)).1

/-- What is known of the identifiers when all names are bound. -/
theorem spelled_bind {c : Config} (accepted : Plan.ofConfig c = .ok p) :
    Spelled p w (namedCandidates p w) (bind p w).2 := by
  have spelled := (Spelled.bindConfig accepted w).bindNames (List.Subset.refl w.names)
  rwa [List.nil_append] at spelled

/-! ### All declarations -/

/-- A made-up identifier was new when its key was first resolved, and such an identifier is legal.
-/
theorem isLegal_of_made_up {key identifier : String} (made : key ∈ (compile p w).table.madeUp)
    (found : (compile p w).table.lookup key = some identifier) : Python.IsLegal identifier := by
  obtain ⟨left, point, -⟩ := exists_point_compile p w
  have legal : ∀ key b, (compile p w).table.binding? key = some b → b.layer = .synthesized →
      Python.IsLegal b.identifier := by
    refine point.table_induction (P := fun t => ∀ key b, t.binding? key = some b →
      b.layer = .synthesized → Python.IsLegal b.identifier) ?_ ?_ fun _ _ legal => legal
    · intro key b bound low
      obtain ⟨named, known, -⟩ := exists_named p w
      have := known.layers key b bound
      simp [low, Layer.rank] at this
    · intro t r current legal key b bound low
      obtain ⟨b', -, same⟩ | ⟨-, new⟩ := t.resolve_cases r current
      · rw [same] at bound
        exact legal key b bound low
      · rw [new, AliasTable.binding?_synthesize] at bound
        split at bound
        · cases bound
          refine Python.isLegal_fresh t ?_
          rw [AliasTable.key, String.toList_ofList]
          exact Text.EndsInDigit.keyChars _ _
        · exact legal key b bound low
  obtain ⟨b, bound, low⟩ := AliasTable.layerOf_eq_some_iff.1 (AliasTable.mem_madeUp.1 made)
  obtain ⟨layer, same⟩ := AliasTable.lookup_eq_some_iff.1 found
  obtain rfl : b = ⟨identifier, layer⟩ := Option.some.inj (bound.symm.trans same)
  exact legal key _ bound low

/-- What is declared: a candidate that can be, or cells that were found, unless they are a
parameter. -/
theorem mem_declared_compile (success : (compile p w).errors = []) {identifier : String} :
    identifier ∈ (compile p w).sections.declared ↔
      (∃ c ∈ (bind p w).1, isDeclarable p w c ∧ c.identifier = identifier) ∨
      identifier ∉ (bind p w).2.sections.interface.inputs ∧
        ∃ key ∈ (compile p w).table.madeUp, (compile p w).table.lookup key = some identifier := by
  have settled : (compile p w).unsettled = [] := by rw [unsettled, success, List.filter_nil]
  have claims := (Claims.bind p w).foldl_process success Point.bound
    fun c hc => discovered_of_candidate hc
  have declared := (Found.compile p w rfl).declared success
  obtain ⟨-, made⟩ := identifiers_arrivalsFound (p := p) (w := w) rfl settled
  rw [List.nil_append] at claims
  rw [declared.mem_iff, List.mem_append, claims.declared, List.mem_filter, made, and_comm,
    decide_eq_true_iff]

end Run

/-- The class can be read: all identifiers are legal, and the parameters of the constructor are
distinct. -/
structure Sections.IsLegal (s : Sections) : Prop where
  identifiers : ∀ identifier ∈ s.interface.inputs ++ s.declared, Python.IsLegal identifier
  parameters : ("self" :: s.interface.inputs ++ ["args"]).Nodup

/-- Parameters are distinct already, so only the two that every constructor has can clash with them.
-/
theorem Sections.isLegal_iff {s : Sections} (distinct : s.interface.inputs.Nodup) : s.IsLegal ↔
    (∀ identifier ∈ s.interface.inputs ++ s.declared, Python.IsLegal identifier) ∧
      ∀ name ∈ s.interface.inputs, name ∉ ["self", "args"] := by
  have parameters : ("self" :: s.interface.inputs ++ ["args"]).Nodup ↔
      ∀ name ∈ s.interface.inputs, name ∉ ["self", "args"] := by
    rw [List.cons_append, List.nodup_cons, List.nodup_append_comm, List.singleton_append,
      List.nodup_cons, and_iff_left distinct]
    constructor
    · rintro ⟨self, args⟩ name mem reserved
      rcases List.mem_pair.1 reserved with rfl | rfl
      · exact self (List.mem_append_left _ mem)
      · exact args mem
    · intro free
      refine ⟨fun mem => ?_, fun mem => free _ mem (by simp)⟩
      rcases List.mem_append.1 mem with mem | mem
      · exact free _ mem (by simp)
      · exact absurd (List.mem_singleton.1 mem) (by decide)
  rw [← parameters]
  exact ⟨fun legal => ⟨legal.identifiers, legal.parameters⟩, fun ⟨all, apart⟩ => ⟨all, apart⟩⟩

namespace Run

variable {p : Plan} {w : Workbook}

/-- An identifier that is declared is legal, or a name of the workbook has become it. -/
theorem origin_of_declared {c : Config} (accepted : Plan.ofConfig c = .ok p)
    (success : (compile p w).errors = []) {identifier : String}
    (mem : identifier ∈ (compile p w).sections.interface.inputs ++ (compile p w).sections.declared) :
    Python.IsLegal identifier ∨ ∃ candidate ∈ namedCandidates p w,
      candidate.identifier = identifier ∧ (isDeclarable p w candidate ∨
        identifier ∈ (compile p w).sections.interface.inputs) := by
  obtain ⟨checked, -⟩ := Plan.checks_of_ofConfig accepted
  have configured : ∀ cell ∈ p.cells, Python.IsLegal cell.name := fun cell mem => by
    obtain ⟨a, checked⟩ := checked cell mem
    exact CellAlias.isLegal_of_check checked
  obtain ⟨left, point, -⟩ := exists_point_compile p w
  rcases List.mem_append.1 mem with input | declared
  · rcases (spelled_bind accepted).inputs identifier (point.interface ▸ input) with
      ⟨cell, own, rfl⟩ | ⟨candidate, own, same⟩
    · exact .inl (configured cell (List.mem_append_left _ own))
    · exact .inr ⟨candidate, own, same, .inr input⟩
  · rcases (mem_declared_compile success).1 declared with
      ⟨candidate, own, declarable, rfl⟩ | ⟨-, key, made, found⟩
    · rcases List.mem_append.1 own with named | unnamed
      · exact .inr ⟨candidate, named, rfl, .inl declarable⟩
      · obtain ⟨output, known, rfl⟩ := mem_unnamedOutputs unnamed
        exact .inl (configured output (List.mem_append_right _ known))
    · exact .inl (isLegal_of_made_up made found)

/-- **When all declarations are legal.** What is declared and is not legal is a name of the workbook
as it is spelled there. The class can be read exactly if no configured parameter is called like one
that every constructor takes, and each name of the workbook that becomes a property, a constant or a
parameter has a legal identifier, which for a parameter is not one of those. -/
theorem declarations_legal_iff {c : Config} (accepted : Plan.ofConfig c = .ok p)
    (success : (compile p w).errors = []) :
    let sections := (compile p w).sections
    (∀ identifier ∈ sections.interface.inputs ++ sections.declared, ¬Python.IsLegal identifier →
      ∃ d ∈ w.names, d.name = identifier ∧ d.name ∉ p.config.renames.map (·.1)) ∧
    (sections.IsLegal ↔
      (∀ input ∈ p.bindings.inputs, input.name ∉ ["self", "args"]) ∧
      ∀ candidate ∈ namedCandidates p w,
        (isDeclarable p w candidate → Python.IsLegal candidate.identifier) ∧
        (candidate.identifier ∈ sections.interface.inputs →
          Python.IsLegal candidate.identifier ∧ candidate.identifier ∉ ["self", "args"])) := by
  intro sections
  have spelled := spelled_bind (w := w) accepted
  obtain ⟨left, point, -⟩ := exists_point_compile p w
  have interface : sections.interface = (bind p w).2.sections.interface := point.interface
  have distinct : sections.interface.inputs.Nodup := interface ▸ spelled.distinct
  refine ⟨fun identifier mem illegal => ?_, ?_⟩
  · rcases origin_of_declared accepted success mem with legal | ⟨candidate, own, rfl, -⟩
    · exact absurd legal illegal
    · exact (spelled.candidates candidate own).resolve_left illegal
  rw [Sections.isLegal_iff distinct]
  constructor
  · rintro ⟨legal, free⟩
    refine ⟨fun input mem => free _ ?_, fun candidate mem => ⟨fun declarable => legal _ ?_, ?_⟩⟩
    · rw [interface]
      exact spelled.known.inputs (((bindConfig_spec p w).2.2.1 _).2 ⟨input, mem, rfl⟩)
    · have candidates : candidate ∈ (bind p w).1 := List.mem_append_left _ mem
      exact List.mem_append_right _
        ((mem_declared_compile success).2 (.inl ⟨candidate, candidates, declarable, rfl⟩))
    · exact fun input => ⟨legal _ (List.mem_append_left _ input), free _ input⟩
  · rintro ⟨configured, becomes⟩
    refine ⟨fun identifier mem => ?_, fun name mem => ?_⟩
    · rcases origin_of_declared accepted success mem with legal | ⟨candidate, own, rfl, use⟩
      · exact legal
      · obtain ⟨declared, parameter⟩ := becomes candidate own
        exact use.elim declared fun input => (parameter input).1
    · rcases spelled.inputs name (interface ▸ mem) with ⟨input, own, rfl⟩ | ⟨candidate, own, rfl⟩
      · exact configured input own
      · exact ((becomes candidate own).2 mem).2

/-- A name that is a reserved word, an input with a name of its own, an output without one, and cells
that have no name. -/
def powers : Except WorkbookError Workbook := do
  let w ← ({} : Workbook).addSheet "Calc"
  let w ← w.addSheet "Inputs"
  let w ← w.setFormula "Calc" "A1" "=Inputs!D6*B1"
  let w ← w.setFormula "Calc" "A2" "=A1*2"
  let w ← w.setValue "Calc" "B1" (.string "rate")
  let w ← w.setValue "Inputs" "D6" (.string "low")
  let w ← w.defineName { name := "lambda", refersTo := "=Calc!$A$1" }
  w.defineName { name := "Level", refersTo := "=Inputs!$D$6" }

def powersConfig : Config where
  spreadsheet := "powers.xlsx"
  outputs := [⟨"Calc!A2", "power"⟩]
  renames := [("lambda", "my_lambda")]

/-- The reserved word is renamed, so all that is declared is legal. -/
theorem declarations_legal_iff_powers :
    ∃ p w, Plan.ofConfig powersConfig = .ok p ∧ powers = .ok w ∧ (compile p w).errors = [] ∧
      (compile p w).sections.interface.inputs = ["Level"] ∧
      (compile p w).sections.declared = ["my_lambda", "power", "CalcB1"] ∧
      (compile p w).sections.IsLegal := by
  have facts : ((Plan.ofConfig powersConfig).toOption.bind fun p =>
      powers.toOption.map fun w =>
        decide ((compile p w).errors = [] ∧
          (compile p w).sections.interface.inputs = ["Level"] ∧
          (compile p w).sections.declared = ["my_lambda", "power", "CalcB1"] ∧
          (∀ input ∈ p.bindings.inputs, input.name ∉ ["self", "args"]) ∧
          ∀ candidate ∈ namedCandidates p w,
            (isDeclarable p w candidate → Python.IsLegal candidate.identifier) ∧
            (candidate.identifier ∈ (compile p w).sections.interface.inputs →
              Python.IsLegal candidate.identifier ∧
                candidate.identifier ∉ ["self", "args"]))) = some true := by decide +kernel
  obtain ⟨p, hp, facts⟩ := Option.bind_eq_some_iff.1 facts
  obtain ⟨w, hw, facts⟩ := Option.map_eq_some_iff.1 facts
  obtain ⟨success, inputs, declared, legal⟩ := of_decide_eq_true facts
  have accepted := Fallible.toOption_eq_some_iff.1 hp
  exact ⟨p, w, accepted, Fallible.toOption_eq_some_iff.1 hw, success, inputs, declared,
    (declarations_legal_iff accepted success).2.2 legal⟩

/-- A reserved word and a name with a point, and an input that is called `self`. -/
def taxes : Except WorkbookError Workbook := do
  let w ← ({} : Workbook).addSheet "Calc"
  let w ← w.addSheet "Inputs"
  let w ← w.setValue "Calc" "A1" (.string "low")
  let w ← w.setFormula "Calc" "B1" "=A1*Inputs!D6"
  let w ← w.setValue "Inputs" "D6" (.string "low")
  let w ← w.defineName { name := "class", refersTo := "=Calc!$B$1" }
  w.defineName { name := "Tax.Rate", refersTo := "=Calc!$A$1" }

def taxesConfig : Config where
  spreadsheet := "taxes.xlsx"
  inputs := [⟨"Inputs!D6", "self"⟩]

/-- A reserved word and a name with a point are declared, and a parameter is called like the object.
-/
theorem taxes_illegal :
    ∃ p w, Plan.ofConfig taxesConfig = .ok p ∧ taxes = .ok w ∧ (compile p w).errors = [] ∧
      (compile p w).sections.properties = [⟨"class", "self.Tax.Rate*self.self"⟩] ∧
      (compile p w).sections.constants = [⟨"Tax.Rate", "\"low\""⟩] ∧
      ¬Python.IsLegal "class" ∧ ¬Python.IsLegal "Tax.Rate" ∧
      ("self" :: (compile p w).sections.interface.inputs ++ ["args"]) = ["self", "self", "args"] ∧
      ¬(compile p w).sections.IsLegal := by
  have facts : ((Plan.ofConfig taxesConfig).toOption.bind fun p =>
      taxes.toOption.map fun w =>
        decide ((compile p w).errors = [] ∧
          (compile p w).sections.properties = [⟨"class", "self.Tax.Rate*self.self"⟩] ∧
          (compile p w).sections.constants = [⟨"Tax.Rate", "\"low\""⟩] ∧
          ¬Python.IsLegal "class" ∧ ¬Python.IsLegal "Tax.Rate" ∧
          ("self" :: (compile p w).sections.interface.inputs ++ ["args"]) =
            ["self", "self", "args"])) = some true := by decide +kernel
  obtain ⟨p, hp, facts⟩ := Option.bind_eq_some_iff.1 facts
  obtain ⟨w, hw, facts⟩ := Option.map_eq_some_iff.1 facts
  obtain ⟨success, properties, constants, keyword, dotted, parameters⟩ := of_decide_eq_true facts
  refine ⟨p, w, Fallible.toOption_eq_some_iff.1 hp, Fallible.toOption_eq_some_iff.1 hw, success,
    properties, constants, keyword, dotted, parameters, fun legal => ?_⟩
  have distinct := legal.parameters
  rw [parameters] at distinct
  exact absurd distinct (by decide)

end Run

end SheetCompiler
