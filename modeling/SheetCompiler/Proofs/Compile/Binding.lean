import Mathlib.Data.List.Induction
import SheetCompiler.Compile.Run
import SheetCompiler.Proofs.Alias.Table

/-!
# Binding the configuration and the defined names

Before anything is classified, the cells of the configuration are bound, then the cells of the
defined names. On the way the first binding of a key stays (`AliasTable.AtLeast`):
`AliasTable.binding?_configure` gives all bindings of the configuration, and `Run.Naming` the ways
in which a defined name can be bound.
-/

namespace SheetCompiler

namespace AliasTable

variable {t : AliasTable} {layer : Layer} {key identifier : String}

/-- No key is bound on a lower layer. -/
def AtLeast (t : AliasTable) (layer : Layer) : Prop :=
  ∀ key b, t.binding? key = some b → layer.rank ≤ b.layer.rank

/-- A free key takes any layer. -/
theorem insert_of_unbound (unbound : t.binding? key = none) :
    t.insert key identifier layer = (true, t.bind key identifier layer) := by
  simp [insert, accepts, unbound]

/-- The first binding stays if no layer is below the new one. -/
theorem insert_of_bound (layers : t.AtLeast layer) {b : Binding} (bound : t.binding? key = some b) :
    t.insert key identifier layer = (false, t) := by
  have := layers key b bound
  simp only [insert, accepts, bound]
  rw [if_neg]
  simp only [decide_eq_true_eq]
  omega

/-- Binding a key on a layer leaves nothing below the layer. -/
theorem AtLeast.bind (layers : t.AtLeast layer) (key identifier : String) :
    (t.bind key identifier layer).AtLeast layer := by
  intro other b bound
  rw [binding?_bind] at bound
  split at bound
  · cases bound
    exact Nat.le_refl _
  · exact layers other b bound

@[simp] theorem sheets_insertRename (name : String) :
    (t.insertRename name identifier).sheets = t.sheets := by
  simp [insertRename]

@[simp] theorem binding?_insertRename (name : String) :
    (t.insertRename name identifier).binding? key = t.binding? key := by
  simp [insertRename, binding?]

@[simp] theorem pending_insertRename (name : String) :
    (t.insertRename name identifier).pending = t.pending := by
  simp [insertRename]

/-- The last rename of a name counts. -/
theorem rename_insertRename (name other : String) :
    (t.insertRename name identifier).rename other =
      if other = name then identifier else t.rename other := by
  simp only [insertRename, rename, renames_reserve, Assoc.find?_insert]
  split <;> rfl

/-! ### The cells of the configuration -/

/-- Binds cells in order. -/
def configure (t : AliasTable) (cells : List BoundCell) : AliasTable :=
  cells.foldl (fun t cell => t.insertConfig cell.reference cell.name) t

theorem configure_cons (t : AliasTable) (cell : BoundCell) (cells : List BoundCell) :
    t.configure (cell :: cells) = (t.insertConfig cell.reference cell.name).configure cells := rfl

@[simp] theorem sheets_insertConfig (r : Reference) :
    (t.insertConfig r identifier).sheets = t.sheets := by
  unfold insertConfig insert
  split <;> simp

@[simp] theorem renames_insertConfig (r : Reference) :
    (t.insertConfig r identifier).renames = t.renames := by
  unfold insertConfig insert
  split <;> simp

@[simp] theorem pending_insertConfig (r : Reference) :
    (t.insertConfig r identifier).pending = t.pending := by
  unfold insertConfig insert
  split <;> simp

@[simp] theorem sheets_configure (cells : List BoundCell) :
    (t.configure cells).sheets = t.sheets := by
  induction cells generalizing t with
  | nil => rfl
  | cons cell cells ih => rw [configure_cons, ih, sheets_insertConfig]

@[simp] theorem renames_configure (cells : List BoundCell) :
    (t.configure cells).renames = t.renames := by
  induction cells generalizing t with
  | nil => rfl
  | cons cell cells ih => rw [configure_cons, ih, renames_insertConfig]

@[simp] theorem pending_configure (cells : List BoundCell) :
    (t.configure cells).pending = t.pending := by
  induction cells generalizing t with
  | nil => rfl
  | cons cell cells ih => rw [configure_cons, ih, pending_insertConfig]

/-- A cell is bound if its key was not. -/
theorem binding?_insertConfig (layers : t.AtLeast .config) (r : Reference) (other : String) :
    (t.insertConfig r identifier).binding? other =
      (t.binding? other).or (if t.key r none = other then some ⟨identifier, .config⟩ else none) := by
  cases h : t.binding? (t.key r none) with
  | some b =>
    rw [insertConfig, insert_of_bound layers h]
    by_cases same : t.key r none = other
    · simp [← same, h]
    · simp [same]
  | none =>
    rw [insertConfig, insert_of_unbound h, binding?_bind]
    by_cases same : other = t.key r none
    · simp [same, h]
    · simp [same, Ne.symm same]

theorem AtLeast.insertConfig (layers : t.AtLeast .config) (r : Reference) (identifier : String) :
    (t.insertConfig r identifier).AtLeast .config := by
  unfold AliasTable.insertConfig insert
  split
  · exact layers.bind _ _
  · exact layers

/-- A key is bound to the first of the cells that has it. -/
theorem binding?_configure (layers : t.AtLeast .config) (cells : List BoundCell) (key : String) :
    (t.configure cells).binding? key = (t.binding? key).or
      ((cells.find? fun cell => t.key cell.reference none = key).map (⟨·.name, .config⟩)) := by
  induction cells generalizing t with
  | nil => simp [configure]
  | cons cell cells ih =>
    have keys : ∀ r, (t.insertConfig cell.reference cell.name).key r none = t.key r none :=
      fun r => key_congr (sheets_insertConfig _) r none
    rw [configure_cons, ih (layers.insertConfig _ _), binding?_insertConfig layers]
    simp only [keys]
    by_cases same : t.key cell.reference none = key
    · simp [same]
    · simp [same]

theorem configure_append (t : AliasTable) (xs ys : List BoundCell) :
    t.configure (xs ++ ys) = (t.configure xs).configure ys := List.foldl_append

end AliasTable

namespace Workbook

/-- The table that knows the sheets of a workbook and nothing else. -/
def sheetTable (w : Workbook) : AliasTable := w.sheetNames.foldl AliasTable.addSheet {}

/-- The key of a reference, its sheet spelled as in the workbook. -/
def key (w : Workbook) (r : Reference) : String := w.sheetTable.key r none

/-- Registering sheets does nothing else. -/
theorem sheetTable_eq (w : Workbook) : w.sheetTable = { sheets := w.sheetTable.sheets } := by
  suffices ∀ (names : List String) (t : AliasTable), t = { sheets := t.sheets } →
      names.foldl AliasTable.addSheet t =
        { sheets := (names.foldl AliasTable.addSheet t).sheets } from
    this w.sheetNames {} rfl
  intro names
  induction names with
  | nil => exact fun t h => h
  | cons name names ih =>
    intro t h
    refine ih _ ?_
    unfold AliasTable.addSheet
    split
    · exact h
    · rw [h]

/-- Among cells that have keys of their own, the first one with the key of a cell is the cell. -/
theorem find?_key_eq {w : Workbook} {cells : List BoundCell}
    (keys : (cells.map fun cell => w.key cell.reference).Nodup) {cell : BoundCell}
    (mem : cell ∈ cells) :
    cells.find? (fun other => w.key other.reference = w.key cell.reference) = some cell := by
  obtain ⟨first, hfirst⟩ : ∃ first, cells.find? (fun other =>
      w.key other.reference = w.key cell.reference) = some first :=
    Option.isSome_iff_exists.1 (List.find?_isSome.2 ⟨cell, mem, by simp⟩)
  have same : w.key first.reference = w.key cell.reference := by simpa using List.find?_some hfirst
  rw [hfirst, List.inj_on_of_nodup_map keys (List.mem_of_find?_eq_some hfirst) mem same]

end Workbook

namespace Plan

variable (p : Plan) (w : Workbook)

/-- The cells of the configuration, inputs first. -/
def cells : List BoundCell := p.bindings.inputs ++ p.bindings.outputs

/-- The table before any cell is bound. -/
def startTable : AliasTable :=
  p.config.renames.foldl (fun t rename => t.insertRename rename.1 rename.2) w.sheetTable

/-- Renames reserve identifiers, but bind no key and queue none. -/
theorem startTable_spec :
    (p.startTable w).sheets = w.sheetTable.sheets ∧ (p.startTable w).pending = [] ∧
      ∀ key, (p.startTable w).binding? key = none := by
  unfold startTable
  have start : w.sheetTable.pending = [] ∧ ∀ key, w.sheetTable.binding? key = none := by
    rw [w.sheetTable_eq]
    exact ⟨rfl, fun key => rfl⟩
  generalize w.sheetTable = t at start ⊢
  induction p.config.renames generalizing t with
  | nil => exact ⟨rfl, start⟩
  | cons rename renames ih =>
    have := ih (t.insertRename rename.1 rename.2) (by simpa using start)
    simpa using this

end Plan

theorem mem_addName {names : List String} {name other : String} :
    other ∈ addName names name ↔ other ∈ names ∨ other = name := by
  unfold addName
  split
  next h => exact ⟨.inl, fun h' => h'.elim id (· ▸ h)⟩
  next => simp

namespace Run

/-- Nothing has been classified yet. -/
structure Untouched (run : Run) : Prop where
  errors : run.errors = []
  owners : run.owners = []
  visited : run.visited = []
  properties : run.sections.properties = []
  pending : run.table.pending = []

/-! ### The configuration -/

/-- Renames only change the table. -/
theorem foldl_bindRename (renames : List (String × String)) (run : Run) :
    renames.foldl bindRename run =
      { run with
        table := renames.foldl (fun t rename => t.insertRename rename.1 rename.2) run.table } := by
  induction renames generalizing run with
  | nil => rfl
  | cons rename renames ih => rw [List.foldl_cons, ih, List.foldl_cons, bindRename]

/-- What binding cells one by one does, if each of them is bound and its name joins a list. -/
theorem foldl_bindCell (step : Run → BoundCell → Run) (own other : Interface → List String)
    (table : ∀ run cell, (step run cell).table = run.table.insertConfig cell.reference cell.name)
    (untouched : ∀ run cell, run.Untouched → (step run cell).Untouched)
    (joins : ∀ run cell,
      own (step run cell).sections.interface = addName (own run.sections.interface) cell.name)
    (keeps : ∀ run cell, other (step run cell).sections.interface = other run.sections.interface)
    (cells : List BoundCell) (run : Run) :
    (cells.foldl step run).table = run.table.configure cells ∧
    (run.Untouched → (cells.foldl step run).Untouched) ∧
    (∀ name, name ∈ own (cells.foldl step run).sections.interface ↔
      name ∈ own run.sections.interface ∨ ∃ cell ∈ cells, cell.name = name) ∧
    other (cells.foldl step run).sections.interface = other run.sections.interface := by
  induction cells generalizing run with
  | nil => exact ⟨rfl, id, by simp, rfl⟩
  | cons cell cells ih =>
    obtain ⟨tables, untoucheds, names, others⟩ := ih (step run cell)
    refine ⟨?_, fun h => untoucheds (untouched run cell h), fun name => ?_, ?_⟩
    · rw [List.foldl_cons, tables, table, AliasTable.configure_cons]
    · rw [List.foldl_cons, names, joins, mem_addName]
      simp [or_assoc, eq_comm]
    · rw [List.foldl_cons, others, keeps]

/-- Binding inputs: the table is configured, and their names join the parameters. -/
theorem foldl_bindInput (cells : List BoundCell) (run : Run) :
    (cells.foldl bindInput run).table = run.table.configure cells ∧
    (run.Untouched → (cells.foldl bindInput run).Untouched) ∧
    (∀ name, name ∈ (cells.foldl bindInput run).sections.interface.inputs ↔
      name ∈ run.sections.interface.inputs ∨ ∃ cell ∈ cells, cell.name = name) ∧
    (cells.foldl bindInput run).sections.interface.outputs = run.sections.interface.outputs := by
  refine foldl_bindCell bindInput Interface.inputs Interface.outputs (fun _ _ => rfl) ?_
    (fun _ _ => rfl) (fun _ _ => rfl) cells run
  intro run cell h
  exact ⟨h.errors, h.owners, h.visited, h.properties, by simp [bindInput, addInput, h.pending]⟩

/-- Binding outputs: the table is configured, and their names join the results. -/
theorem foldl_bindOutput (cells : List BoundCell) (run : Run) :
    (cells.foldl bindOutput run).table = run.table.configure cells ∧
    (run.Untouched → (cells.foldl bindOutput run).Untouched) ∧
    (∀ name, name ∈ (cells.foldl bindOutput run).sections.interface.outputs ↔
      name ∈ run.sections.interface.outputs ∨ ∃ cell ∈ cells, cell.name = name) ∧
    (cells.foldl bindOutput run).sections.interface.inputs = run.sections.interface.inputs := by
  refine foldl_bindCell bindOutput Interface.outputs Interface.inputs (fun _ _ => rfl) ?_
    (fun _ _ => rfl) (fun _ _ => rfl) cells run
  intro run cell h
  exact ⟨h.errors, h.owners, h.visited, h.properties, by simp [bindOutput, addOutput, h.pending]⟩

/-- The configuration is bound in three loops: renames, then inputs, then outputs. -/
theorem bindConfig_eq (p : Plan) (w : Workbook) :
    bindConfig p w = p.bindings.outputs.foldl bindOutput
      (p.bindings.inputs.foldl bindInput { table := p.startTable w }) := by
  unfold bindConfig
  dsimp only
  rw [foldl_bindRename]
  rfl

/-- What the configuration binds. -/
theorem bindConfig_spec (p : Plan) (w : Workbook) :
    (bindConfig p w).table = (p.startTable w).configure p.cells ∧ (bindConfig p w).Untouched ∧
    (∀ name, name ∈ (bindConfig p w).sections.interface.inputs ↔
      ∃ cell ∈ p.bindings.inputs, cell.name = name) ∧
    ∀ name, name ∈ (bindConfig p w).sections.interface.outputs ↔
      ∃ cell ∈ p.bindings.outputs, cell.name = name := by
  obtain ⟨inputTable, inputUntouched, inputs, inputOutputs⟩ :=
    foldl_bindInput p.bindings.inputs { table := p.startTable w }
  obtain ⟨table, untouched, outputs, outputInputs⟩ := foldl_bindOutput p.bindings.outputs
    (p.bindings.inputs.foldl bindInput { table := p.startTable w })
  obtain ⟨-, pending, -⟩ := p.startTable_spec w
  rw [bindConfig_eq]
  refine ⟨?_, ?_, fun name => ?_, fun name => ?_⟩
  · rw [table, inputTable, Plan.cells, AliasTable.configure_append]
  · exact untouched (inputUntouched ⟨rfl, rfl, rfl, rfl, pending⟩)
  · rw [outputInputs, inputs]
    simp
  · rw [outputs, inputOutputs]
    simp

/-- A key is bound to the first cell of the configuration that has it. -/
theorem binding?_bindConfig (p : Plan) (w : Workbook) (key : String) :
    (bindConfig p w).table.binding? key =
      (p.cells.find? fun cell => w.key cell.reference = key).map (⟨·.name, .config⟩) := by
  obtain ⟨sheets, -, empty⟩ := p.startTable_spec w
  have layers : (p.startTable w).AtLeast .config := fun key b h => by simp [empty] at h
  have keys : ∀ r, (p.startTable w).key r none = w.key r :=
    fun r => AliasTable.key_congr sheets r none
  rw [(bindConfig_spec p w).1, AliasTable.binding?_configure layers, empty]
  simp [keys]

/-- Inputs that have keys of their own are bound to their names, whatever the outputs are. -/
theorem lookup_bindConfig {p : Plan} {w : Workbook}
    (keys : (p.bindings.inputs.map fun input => w.key input.reference).Nodup) {input : BoundCell}
    (mem : input ∈ p.bindings.inputs) :
    (bindConfig p w).table.lookup (w.key input.reference) = some input.name := by
  rw [AliasTable.lookup, binding?_bindConfig, Plan.cells, List.find?_append,
    Workbook.find?_key_eq keys mem]
  rfl

theorem sheets_bindConfig (p : Plan) (w : Workbook) :
    (bindConfig p w).table.sheets = w.sheetTable.sheets := by
  rw [(bindConfig_spec p w).1, AliasTable.sheets_configure, (p.startTable_spec w).1]

/-- Nothing that the configuration binds is on a lower layer than defined names. -/
theorem layers_bindConfig (p : Plan) (w : Workbook) :
    (bindConfig p w).table.AtLeast .definedName := by
  intro key b bound
  rw [binding?_bindConfig] at bound
  obtain ⟨cell, -, rfl⟩ := Option.map_eq_some_iff.1 bound
  exact (by decide : Layer.definedName.rank ≤ Layer.config.rank)

/-! ### Defined names -/

section

variable {c : Config} {w : Workbook} {run : Run} {d : DefinedName}

/-- The ways in which a defined name can be bound. -/
inductive Naming (c : Config) (w : Workbook) (run : Run) (d : DefinedName) : Candidate × Run → Prop
  | first (r : Reference) (key identifier : String) (target : d.target = .cells r)
    (hkey : key = run.table.key r none) (unbound : run.table.binding? key = none)
    (written : identifier = run.table.rename d.name) :
    Naming c w run d ({ name := d.name, identifier, refersTo := d.refersTo, target := d.target },
      { run with table := run.table.bind key identifier .definedName }.declare c w r key identifier)
  | again (r : Reference) (b : Binding) (target : d.target = .cells r)
    (bound : run.table.binding? (run.table.key r none) = some b) :
    Naming c w run d
      ({ name := d.name, identifier := b.identifier, refersTo := d.refersTo, target := d.target },
        { run with
          table := if b.identifier = d.name then run.table
            else run.table.insertRename d.name b.identifier })
  | elsewhere (identifier : String) (used : List String) (target : ∀ r, d.target ≠ .cells r)
    (grown : run.table.used ⊆ used) :
    Naming c w run d ({ name := d.name, identifier, refersTo := d.refersTo, target := d.target },
      { run with table.used := used })

/-- Binding a name takes one of the three ways, for the first name of its cells, for a further one,
and for what is not made of cells. -/
theorem bindName_naming (layers : run.table.AtLeast .definedName) :
    Naming c w run d (run.bindName c w d) := by
  unfold bindName
  cases target : d.target with
  | cells r =>
    cases h : run.table.binding? (run.table.key r none) with
    | none =>
      simp only [bindCells, AliasTable.insertName, AliasTable.insert_of_unbound h]
      rw [← target]
      exact .first r _ _ target rfl h rfl
    | some b =>
      simp only [bindCells, AliasTable.insertName, AliasTable.insert_of_bound layers h,
        AliasTable.lookup, h, Option.map_some, Option.getD_some]
      rw [← target]
      exact .again r b target h
  | formula text sheet =>
    dsimp only
    rw [← target, AliasTable.reserve_eq]
    exact .elsewhere _ _ (by simp [target]) fun x hx => by simp [hx]
  | unresolved | builtin | broken =>
    dsimp only
    rw [← target]
    exact .elsewhere _ run.table.used (by simp [target]) (List.Subset.refl _)

/-- Named cells become an input, an output or neither. -/
theorem declare_cases (c : Config) (w : Workbook) (r : Reference) (key identifier : String)
    (run : Run) :
    run.declare c w r key identifier = run ∨
      run.declare c w r key identifier = run.addInput key identifier ∨
      run.declare c w r key identifier = run.addOutput identifier := by
  unfold declare
  split
  · exact .inl rfl
  · split
    · split
      · exact .inr (.inl rfl)
      · exact .inl rfl
    · split
      · exact .inr (.inr rfl)
      · exact .inl rfl

@[simp] theorem table_declare (c : Config) (w : Workbook) (r : Reference) (key identifier : String)
    (run : Run) : (run.declare c w r key identifier).table = run.table := by
  rcases declare_cases c w r key identifier run with h | h | h <;> rw [h] <;> rfl

namespace Naming

variable {result : Candidate × Run} (naming : Naming c w run d result)

include naming

/-- Names leave the spelling of the sheets as it is. -/
theorem sheets : result.2.table.sheets = run.table.sheets := by
  cases naming with
  | first => simp
  | again =>
    dsimp only
    split <;> simp
  | elsewhere => rfl

/-- A name is bound above all made-up identifiers. -/
theorem layers (layers : run.table.AtLeast .definedName) :
    result.2.table.AtLeast .definedName := by
  cases naming with
  | first => simpa using layers.bind _ _
  | again =>
    intro key b bound
    refine layers key b ?_
    dsimp only at bound
    split at bound
    · exact bound
    · simpa using bound
  | elsewhere => exact layers

/-- What was bound before stays bound to the same identifier. -/
theorem extends_table : result.2.table.Extends run.table := by
  cases naming with
  | first r key identifier target hkey unbound written =>
    rw [table_declare]
    exact AliasTable.extends_bind unbound identifier .definedName
  | again =>
    intro key b bound
    dsimp only
    split <;> simpa using bound
  | elsewhere => exact run.table.extends_refl

/-- The cells of a name are bound afterwards, and the candidate has their identifier. -/
theorem named (r : Reference) (target : result.1.target = .cells r) :
    ∃ b, result.2.table.binding? (run.table.key r none) = some b ∧
      b.identifier = result.1.identifier := by
  cases naming with
  | first r' key identifier target' hkey unbound written =>
    obtain rfl : r' = r := by simpa [target'] using target
    exact ⟨⟨identifier, .definedName⟩, by simp [hkey], rfl⟩
  | again r' b target' bound =>
    obtain rfl : r' = r := by simpa [target'] using target
    refine ⟨b, ?_, rfl⟩
    dsimp only
    split <;> simpa using bound
  | elsewhere identifier used elsewhere grown =>
    dsimp only at target
    exact absurd target (elsewhere r)

/-- A key that is bound afterwards was bound before, or is that of the name. -/
theorem bound_cases {key : String} {b : Binding} (bound : result.2.table.binding? key = some b) :
    run.table.binding? key = some b ∨ ∃ r, result.1.target = .cells r ∧
      run.table.key r none = key ∧ result.1.identifier = b.identifier := by
  cases naming with
  | first r key' identifier target hkey unbound written =>
    rw [table_declare, AliasTable.binding?_bind] at bound
    split at bound
    next same =>
      cases bound
      dsimp only
      exact .inr ⟨r, target, by rw [same, hkey], rfl⟩
    next => exact .inl bound
  | again =>
    refine .inl ?_
    dsimp only at bound
    split at bound <;> simpa using bound
  | elsewhere => exact .inl bound

/-- Binding a name classifies nothing and queues nothing. -/
theorem untouched (untouched : run.Untouched) : result.2.Untouched := by
  obtain ⟨errors, owners, visited, properties, pending⟩ := untouched
  cases naming with
  | first r key identifier target hkey unbound written =>
    have pending : (run.table.bind key identifier .definedName).pending = [] := by simp [pending]
    rcases declare_cases c w r key identifier
      { run with table := run.table.bind key identifier .definedName } with h | h | h
    all_goals
      rw [h]
      exact ⟨errors, owners, visited, properties, pending⟩
  | again =>
    refine ⟨errors, owners, visited, properties, ?_⟩
    dsimp only
    split <;> simp [pending]
  | elsewhere => exact ⟨errors, owners, visited, properties, pending⟩

/-- Inputs stay, and an output is added only with the identifier of some cells. -/
theorem interface :
    run.sections.interface.inputs ⊆ result.2.sections.interface.inputs ∧
    ∀ name ∈ result.2.sections.interface.outputs, name ∈ run.sections.interface.outputs ∨
      ∃ key, result.2.table.lookup key = some name := by
  cases naming with
  | first r key identifier target hkey unbound written =>
    have new : (run.table.bind key identifier .definedName).lookup key = some identifier := by
      simp [AliasTable.lookup]
    rcases declare_cases c w r key identifier
      { run with table := run.table.bind key identifier .definedName } with h | h | h
    · rw [h]
      exact ⟨List.Subset.refl _, fun name => .inl⟩
    · rw [h]
      refine ⟨fun name hname => ?_, fun name => .inl⟩
      exact mem_addName.2 (.inl hname)
    · rw [h]
      refine ⟨List.Subset.refl _, fun name hname => ?_⟩
      rcases mem_addName.1 hname with old | rfl
      · exact .inl old
      · exact .inr ⟨key, new⟩
  | again | elsewhere => exact ⟨List.Subset.refl _, fun name => .inl⟩

end Naming

end

end Run

end SheetCompiler
