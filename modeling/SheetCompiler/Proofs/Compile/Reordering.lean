import Mathlib.Data.List.Pairwise
import SheetCompiler.Proofs.Compile.Closure
import SheetCompiler.Proofs.Compile.DistinctIdentifiers

/-!
# Names that are bound in another order

The first name for a cell gives it its identifier, so the order of the defined names matters in
general. If their spellings and their cells are distinct, it does not: a name is then written as the
configuration says, its cells have the identifier of an alias or its own, and these depend on the
name alone (`Run.candidateOf`). `Run.InAnyOrder` says what is known when some of the names are
bound, in terms that mention the list of these names only through its members.
-/

namespace SheetCompiler

open AliasTable

/-! ### Workbooks with the same cells -/

namespace Workbook

/-- The workbooks differ in the order of their names only. -/
structure Reorders (w' w : Workbook) : Prop where
  sheets : w'.sheets = w.sheets
  names : w'.names.Perm w.names

namespace Reorders

variable {w w' : Workbook} (same : w'.Reorders w)

include same

theorem symm : w.Reorders w' := ⟨same.sheets.symm, same.names.symm⟩

/-- Only the names tell the workbooks apart. -/
theorem exists_names : ∃ names, w' = { w with names } := by
  obtain ⟨sheets, names⟩ := w'
  exact ⟨names, by simp [← same.sheets]⟩

/-- Cells are read from the sheets, which are the same. -/
theorem region : w'.region = w.region := by
  obtain ⟨names, rfl⟩ := same.exists_names
  rfl

theorem sheetTable : w'.sheetTable = w.sheetTable := by
  obtain ⟨names, rfl⟩ := same.exists_names
  rfl

theorem key : w'.key = w.key := by
  obtain ⟨names, rfl⟩ := same.exists_names
  rfl

theorem namedKey : w'.namedKey? = w.namedKey? := by
  funext d
  rw [namedKey?, namedKey?, same.key]

/-- The names stand for the same cells, in another order. -/
theorem namedKeys : (w'.names.filterMap w'.namedKey?).Perm (w.names.filterMap w.namedKey?) := by
  rw [same.namedKey]
  exact same.names.filterMap _

theorem read : Run.read w' = Run.read w := by
  obtain ⟨names, rfl⟩ := same.exists_names
  rfl

/-- Binding the configuration looks at no name. -/
theorem bindConfig (p : Plan) : Run.bindConfig p w' = Run.bindConfig p w := by
  obtain ⟨names, rfl⟩ := same.exists_names
  rfl

end Reorders

/-- The key of the cells that a candidate stands for. -/
def keyOf? (w : Workbook) (candidate : Candidate) : Option String :=
  match candidate.target with
  | .cells r => some (w.key r)
  | _ => none

theorem keyOf?_eq_some_iff {w : Workbook} {candidate : Candidate} {key : String} :
    w.keyOf? candidate = some key ↔ ∃ r, candidate.target = .cells r ∧ w.key r = key := by
  unfold keyOf?
  cases candidate.target <;> simp

end Workbook

/-- The inputs of the configuration have cells of their own, the names of the workbook have
spellings and cells of their own, and the candidates have identifiers of their own. -/
structure Plan.Orderly (p : Plan) (w : Workbook) : Prop where
  inputs : (p.bindings.inputs.map fun cell => w.key cell.reference).Nodup
  names : (w.names.map (·.name)).Nodup
  keys : (w.names.filterMap w.namedKey?).Nodup
  identifiers : ((Run.bind p w).1.map (·.identifier)).Nodup

instance (p : Plan) (w : Workbook) : Decidable (p.Orderly w) :=
  decidable_of_iff ((p.bindings.inputs.map fun cell : BoundCell => w.key cell.reference).Nodup ∧
      (w.names.map (·.name)).Nodup ∧ (w.names.filterMap w.namedKey?).Nodup ∧
      ((Run.bind p w).1.map (·.identifier)).Nodup)
    ⟨fun h => ⟨h.1, h.2.1, h.2.2.1, h.2.2.2⟩, fun h => ⟨h.1, h.2, h.3, h.4⟩⟩

namespace Run

variable {p : Plan} {w w' : Workbook}

/-! ### What a name becomes -/

/-- The identifier of a name whose cells no other name stands for: that of an alias for them, or
what the configuration says for the name. -/
def identifierOf (p : Plan) (w : Workbook) (d : DefinedName) : String :=
  ((w.namedKey? d).bind (bindConfig p w).table.lookup).getD ((bindConfig p w).table.rename d.name)

def candidateOf (p : Plan) (w : Workbook) (d : DefinedName) : Candidate :=
  ⟨d.name, identifierOf p w d, d.refersTo, d.target, false⟩

@[simp] theorem target_candidateOf (p : Plan) (w : Workbook) (d : DefinedName) :
    (candidateOf p w d).target = d.target := by
  rw [candidateOf]

@[simp] theorem identifier_candidateOf (p : Plan) (w : Workbook) (d : DefinedName) :
    (candidateOf p w d).identifier = identifierOf p w d := by
  rw [candidateOf]

@[simp] theorem keyOf?_candidateOf (p : Plan) (w : Workbook) (d : DefinedName) :
    w.keyOf? (candidateOf p w d) = w.namedKey? d := by
  cases target : d.target <;> simp [Workbook.keyOf?, Workbook.namedKey?, target]

/-- The cells are one value on an input sheet. -/
def isInputCell (c : Config) (w : Workbook) (r : Reference) : Bool :=
  match w.region r with
  | .ok g => c.isInputSheet g.sheet && !r.isMultiCell && (!g.hasFormula && g.hasValue)
  | .error _ => false

/-- Named cells that are one value on an input sheet are an input, whether they were one or not. -/
theorem mem_inputs_declare (c : Config) (w : Workbook) (r : Reference) (key identifier : String)
    (run : Run) {name : String} :
    name ∈ (run.declare c w r key identifier).sections.interface.inputs ↔
      name ∈ run.sections.interface.inputs ∨ isInputCell c w r ∧ identifier = name := by
  unfold declare isInputCell
  split
  next h => simp [h]
  next g h =>
    simp only [h]
    cases own : c.isInputSheet g.sheet && !r.isMultiCell with
    | false =>
      simp only [Bool.false_eq_true, if_false, Bool.false_and, false_and, or_false]
      split <;> rfl
    | true =>
      cases value : !g.hasFormula && g.hasValue with
      | false => simp
      | true =>
        simp only [if_true, Bool.true_and, Bool.not_eq_true', true_and]
        split
        next => exact mem_addName.trans (or_congr_right eq_comm)
        next known =>
          have known : identifier ∈ run.sections.interface.inputs := by
            simpa [Interface.hasInput] using known
          exact ⟨.inl, fun h => h.elim id (· ▸ known)⟩

/-! ### Names one by one -/

/-- A name that stands for no cells is written as it was before. -/
theorem identifier_bindName (c : Config) (w : Workbook) (run : Run) (d : DefinedName)
    (nowhere : ∀ r, d.target ≠ .cells r) :
    (run.bindName c w d).1.identifier = run.table.rename d.name := by
  unfold bindName
  cases target : d.target with
  | cells r => exact absurd target (nowhere r)
  | formula | unresolved | builtin | broken => rfl

section

variable {c : Config} {run : Run} {d : DefinedName}

namespace Naming

variable {result : Candidate × Run} (naming : Naming c w run d result)

include naming

/-- The identifier that a name gives to its cells is in use from then on. -/
theorem boundUsed (used : run.table.BoundUsed) : result.2.table.BoundUsed := by
  cases naming with
  | first => simpa using used.bind _ _ _
  | again =>
    dsimp only
    split
    · exact used
    · intro key identifier h
      have old : run.table.lookup key = some identifier := by simpa [AliasTable.lookup] using h
      simp [insertRename, used key identifier old]
  | elsewhere identifier others nowhere grown => exact fun key id h => grown (used key id h)

/-- A name changes how it is written itself, and nothing else. -/
theorem rename {name : String} (other : name ≠ d.name) :
    result.2.table.rename name = run.table.rename name := by
  cases naming with
  | first => simp [AliasTable.rename]
  | again =>
    dsimp only
    split
    · rfl
    · rw [rename_insertRename, if_neg other]
  | elsewhere => rfl

/-- A name binds its own cells only. -/
theorem binding? {key : String} (other : ∀ r, d.target = .cells r → run.table.key r none ≠ key) :
    result.2.table.binding? key = run.table.binding? key := by
  cases naming with
  | first r key' identifier target hkey unbound written =>
    rw [table_declare, binding?_bind, if_neg]
    rintro rfl
    exact other r target hkey.symm
  | again =>
    dsimp only
    split <;> simp
  | elsewhere => rfl

end Naming

end

/-- The identifiers of all names are in use before anything is classified. -/
theorem boundUsed_bind (p : Plan) (w : Workbook) : (bind p w).2.table.BoundUsed :=
  (Named.bindConfig p w).bindNames_induction (P := fun run => run.table.BoundUsed)
    (boundUsed_bindConfig p w) Naming.boundUsed w.names

/-- A run in which the configuration and some of the defined names are bound, with the candidates
that these have become, whatever the order of the names. -/
structure InAnyOrder (p : Plan) (w : Workbook) (ds : List DefinedName) (named : List Candidate)
    (run : Run) : Prop where
  known : Named p w named run
  used : run.table.BoundUsed
  candidates : named = ds.map (candidateOf p w)
  /-- What is written for a name that is still to come is what the configuration says. -/
  unwritten : ∀ name, name ∉ ds.map (·.name) →
    run.table.rename name = (bindConfig p w).table.rename name
  bindings : ∀ key, key ∉ ds.filterMap w.namedKey? →
    run.table.binding? key = (bindConfig p w).table.binding? key
  inputs : ∀ name, name ∈ run.sections.interface.inputs ↔
    name ∈ (bindConfig p w).sections.interface.inputs ∨
      ∃ d ∈ ds, ∃ r, d.target = .cells r ∧ (bindConfig p w).table.binding? (w.key r) = none ∧
        isInputCell p.config w r ∧ identifierOf p w d = name

namespace InAnyOrder

variable {ds : List DefinedName} {named : List Candidate} {run : Run} {d : DefinedName}

variable (p w) in
/-- No name is bound yet. -/
theorem bindConfig : InAnyOrder p w [] [] (bindConfig p w) := by
  exact ⟨.bindConfig p w, boundUsed_bindConfig p w, rfl, fun _ _ => rfl, fun _ _ => rfl, by simp⟩

/-- What a name with a spelling and cells of its own becomes, and whether it is an input. -/
theorem bindName_spec (before : InAnyOrder p w ds named run) (spelling : d.name ∉ ds.map (·.name))
    (cells : ∀ key, w.namedKey? d = some key → key ∉ ds.filterMap w.namedKey?) :
    (run.bindName p.config w d).1 = candidateOf p w d ∧
    ∀ name, name ∈ (run.bindName p.config w d).2.sections.interface.inputs ↔
      name ∈ run.sections.interface.inputs ∨
        ∃ r, d.target = .cells r ∧ (Run.bindConfig p w).table.binding? (w.key r) = none ∧
          isInputCell p.config w r ∧ identifierOf p w d = name := by
  have naming := bindName_naming (c := p.config) (w := w) (d := d) before.known.layers
  have nowhere := identifier_bindName p.config w run d
  have written := before.unwritten d.name spelling
  have named : ∀ {r}, d.target = .cells r → w.namedKey? d = some (w.key r) := fun target => by
    simp [Workbook.namedKey?, target]
  -- No name before has these cells, so only the configuration can have bound them.
  have aliased : ∀ {r}, d.target = .cells r → run.table.binding? (run.table.key r none) =
      (Run.bindConfig p w).table.binding? (w.key r) := fun {r} target => by
    rw [before.known.key_eq, before.bindings _ (cells _ (named target))]
  generalize run.bindName p.config w d = result at naming nowhere ⊢
  cases naming with
  | first r key identifier target hkey unbound hid =>
    subst hkey hid
    have free : (Run.bindConfig p w).table.binding? (w.key r) = none :=
      (aliased target).symm.trans unbound
    have own : identifierOf p w d = run.table.rename d.name := by
      simp [identifierOf, named target, AliasTable.lookup, free, written]
    refine ⟨by rw [candidateOf, own], fun name => ?_⟩
    rw [mem_inputs_declare, ← own]
    refine or_congr_right ⟨fun h => ⟨r, target, free, h⟩, ?_⟩
    rintro ⟨r', target', -, h⟩
    obtain rfl : r = r' := Target.cells.inj (target.symm.trans target')
    exact h
  | again r b target bound =>
    have taken : (Run.bindConfig p w).table.binding? (w.key r) = some b :=
      (aliased target).symm.trans bound
    have own : identifierOf p w d = b.identifier := by
      simp [identifierOf, named target, AliasTable.lookup, taken]
    refine ⟨by rw [candidateOf, own], fun name => (or_iff_left ?_).symm⟩
    rintro ⟨r', target', free, -⟩
    obtain rfl : r = r' := Target.cells.inj (target.symm.trans target')
    simp [taken] at free
  | elsewhere identifier used target grown =>
    have nameless : w.namedKey? d = none := by
      unfold Workbook.namedKey?
      split
      next r h => exact absurd h (target r)
      next => rfl
    have own : identifierOf p w d = identifier := by
      simp [identifierOf, nameless, ← written, ← nowhere target]
    refine ⟨by rw [candidateOf, own], fun name => (or_iff_left ?_).symm⟩
    rintro ⟨r, target', -⟩
    exact target r target'

/-- The step: what is known stays known with one more name, if its spelling and its cells are new.
-/
theorem bindName (before : InAnyOrder p w ds named run) (spelling : d.name ∉ ds.map (·.name))
    (cells : ∀ key, w.namedKey? d = some key → key ∉ ds.filterMap w.namedKey?) :
    InAnyOrder p w (ds ++ [d]) (named ++ [(run.bindName p.config w d).1])
      (run.bindName p.config w d).2 := by
  have naming := bindName_naming (c := p.config) (w := w) (d := d) before.known.layers
  obtain ⟨candidate, inputs⟩ := before.bindName_spec spelling cells
  refine ⟨before.known.naming naming, naming.boundUsed before.used, ?_, fun name h => ?_,
    fun key h => ?_, fun name => ?_⟩
  · rw [candidate, before.candidates, List.map_append, List.map_singleton]
  · rw [List.map_append, List.mem_append, not_or, List.map_singleton, List.mem_singleton] at h
    rw [naming.rename h.2, before.unwritten name h.1]
  · rw [List.filterMap_append, List.mem_append, not_or] at h
    rw [naming.binding?, before.bindings key h.1]
    intro r target same
    rw [before.known.key_eq] at same
    simp [Workbook.namedKey?, target, same] at h
  · rw [inputs, before.inputs, or_assoc]
    simp [or_and_right, exists_or]

/-- The run of the step. The names that are left have spellings and cells of their own, so each of
them is new when it comes. -/
theorem bindNames (before : InAnyOrder p w ds named run) {more : List DefinedName}
    (spellings : ((ds ++ more).map (·.name)).Nodup)
    (cells : ((ds ++ more).filterMap w.namedKey?).Nodup) :
    InAnyOrder p w (ds ++ more) (named ++ (bindNames p.config w more run).1)
      (bindNames p.config w more run).2 := by
  induction more generalizing ds named run with
  | nil => simpa [Run.bindNames] using before
  | cons d more ih =>
    have split : ds ++ d :: more = ds ++ [d] ++ more := by simp
    rw [split] at spellings cells ⊢
    have after : InAnyOrder p w (ds ++ [d]) (named ++ [(run.bindName p.config w d).1])
        (run.bindName p.config w d).2 := by
      refine before.bindName ?_ ?_
      · rw [List.map_append] at spellings
        have first := spellings.of_append_left
        rw [List.map_append] at first
        exact fun h => List.disjoint_of_nodup_append first h (by simp)
      · intro key named h
        rw [List.filterMap_append] at cells
        have first := cells.of_append_left
        rw [List.filterMap_append] at first
        exact List.disjoint_of_nodup_append first h (by simp [named])
    simpa [Run.bindNames] using ih after spellings cells

end InAnyOrder

/-! ### All names -/

/-- All that is known when the names are bound. -/
theorem inAnyOrder (spellings : (w.names.map (·.name)).Nodup)
    (cells : (w.names.filterMap w.namedKey?).Nodup) :
    InAnyOrder p w w.names (bindNames p.config w w.names (bindConfig p w)).1 (bind p w).2 := by
  rw [← List.nil_append w.names] at spellings cells
  have bound := (InAnyOrder.bindConfig p w).bindNames spellings cells
  rw [List.nil_append, List.nil_append] at bound
  exact bound

/-- Which outputs have no name depends on the keys of the names as a set. -/
theorem unnamedOutputs_congr {t t' : AliasTable} (sheets : t'.sheets = t.sheets)
    {seen seen' : List String} (same : ∀ key, key ∈ seen' ↔ key ∈ seen) (outputs : List BoundCell) :
    unnamedOutputs t' seen' outputs = unnamedOutputs t seen outputs := by
  induction outputs generalizing seen seen' with
  | nil => rfl
  | cons o outputs ih =>
    have key : t'.key o.reference none = t.key o.reference none := key_congr sheets o.reference none
    simp only [unnamedOutputs, key, same]
    split
    · exact ih same
    · rw [ih]
      simp [same]

/-- The keys of outputs that have no name, each once and none of those seen. -/
theorem nodup_unnamedOutputs (seen : List String) (outputs : List BoundCell) :
    ((unnamedOutputs w.sheetTable seen outputs).filterMap w.keyOf?).Nodup ∧
      ∀ key ∈ (unnamedOutputs w.sheetTable seen outputs).filterMap w.keyOf?, key ∉ seen := by
  induction outputs generalizing seen with
  | nil => simp [unnamedOutputs]
  | cons o outputs ih =>
    unfold unnamedOutputs
    dsimp only
    split
    · exact ih seen
    next new =>
      obtain ⟨nodup, others⟩ := ih (w.sheetTable.key o.reference none :: seen)
      have key : w.keyOf? ⟨o.name, o.name, o.cell, .cells o.reference, false⟩ =
          some (w.key o.reference) := rfl
      rw [List.filterMap_cons_some key]
      refine ⟨List.nodup_cons.2 ⟨fun h => others _ h List.mem_cons_self, nodup⟩, ?_⟩
      refine List.forall_mem_cons.2 ⟨new, fun key h seen => ?_⟩
      exact others key h (List.mem_cons_of_mem _ seen)

/-- The candidates: one for each name, then the outputs that have none. -/
theorem candidates_bind (spellings : (w.names.map (·.name)).Nodup)
    (cells : (w.names.filterMap w.namedKey?).Nodup) :
    (bind p w).1 = w.names.map (candidateOf p w) ++
      unnamedOutputs w.sheetTable (w.names.filterMap w.namedKey?) p.bindings.outputs := by
  have bound := inAnyOrder (p := p) spellings cells
  have candidates : (bind p w).1 = withOutputs p (bind p w).2.table
      (bindNames p.config w w.names (bindConfig p w)).1 := rfl
  rw [candidates, withOutputs, bound.candidates]
  congr 1
  refine unnamedOutputs_congr bound.known.sheets (fun key => ?_) _
  simp only [mem_namedKeys, bound.known.key_eq, List.mem_filterMap, ← keyOf?_candidateOf p,
    Workbook.keyOf?_eq_some_iff, List.mem_map, exists_exists_and_eq_and]

/-- Candidates have cells of their own. -/
theorem nodup_keys_bind (orderly : p.Orderly w) : ((bind p w).1.filterMap w.keyOf?).Nodup := by
  obtain ⟨nodup, others⟩ := nodup_unnamedOutputs (w := w) (w.names.filterMap w.namedKey?)
    p.bindings.outputs
  have named : (w.names.map (candidateOf p w)).filterMap w.keyOf? =
      w.names.filterMap w.namedKey? := by
    simp only [List.filterMap_map, Function.comp_def, keyOf?_candidateOf]
  rw [candidates_bind orderly.names orderly.keys, List.filterMap_append, named]
  exact List.Nodup.append orderly.keys nodup fun key h h' => others key h' h

/-- There is one candidate for each cell. -/
theorem eq_of_keyOf?_eq (orderly : p.Orderly w) {c c' : Candidate} {key : String}
    (hc : c ∈ (bind p w).1) (hc' : c' ∈ (bind p w).1) (same : w.keyOf? c = some key)
    (same' : w.keyOf? c' = some key) : c = c' := by
  by_contra different
  have apart := List.pairwise_filterMap.1 (nodup_keys_bind orderly)
  have symm : Std.Symm fun c c' : Candidate =>
      ∀ key, w.keyOf? c = some key → ∀ key', w.keyOf? c' = some key' → key ≠ key' :=
    ⟨fun _ _ h key hkey key' hkey' => (h key' hkey' key hkey).symm⟩
  exact apart.forall hc hc' different key same key same' rfl

/-- The bound cells are those of the configuration and of the names. -/
theorem unbound_bind_iff (orderly : p.Orderly w) (key : String) :
    (bind p w).2.table.binding? key = none ↔
      (bindConfig p w).table.binding? key = none ∧ key ∉ w.names.filterMap w.namedKey? := by
  have bound := inAnyOrder (p := p) orderly.names orderly.keys
  by_cases named : key ∈ w.names.filterMap w.namedKey?
  · obtain ⟨d, hd, hkey⟩ := List.mem_filterMap.1 named
    rw [← keyOf?_candidateOf p, Workbook.keyOf?_eq_some_iff] at hkey
    obtain ⟨r, target, rfl⟩ := hkey
    obtain ⟨b, hb, -⟩ := bound.known.candidates (candidateOf p w d)
      (bound.candidates ▸ List.mem_map_of_mem hd) r target
    simp [hb, named]
  · rw [bound.bindings key named]
    exact (and_iff_left named).symm

/-- Every input is the identifier of some cells. -/
theorem exists_key_of_input (orderly : p.Orderly w) {name : String}
    (input : name ∈ (bind p w).2.sections.interface.inputs) :
    ∃ key, (bind p w).2.table.lookup key = some name := by
  have bound := inAnyOrder (p := p) orderly.names orderly.keys
  rcases (bound.inputs name).1 input with config | ⟨d, hd, r, target, -, -, same⟩
  · obtain ⟨cell, hcell, rfl⟩ := ((bindConfig_spec p w).2.2.1 name).1 config
    -- No other input is for these cells.
    have own := lookup_bindConfig orderly.inputs hcell
    exact ⟨w.key cell.reference, bound.known.aliases.lookup own⟩
  · obtain ⟨b, hb, identifier⟩ := bound.known.candidates (candidateOf p w d)
      (bound.candidates ▸ List.mem_map_of_mem hd) r ((target_candidateOf p w d).trans target)
    rw [identifier_candidateOf, same] at identifier
    exact ⟨w.key r, by rw [AliasTable.lookup, hb, Option.map_some, identifier]⟩

/-! ### Two orders -/

/-- The identifier of a name depends on the configuration and the cells only. -/
theorem identifierOf_reorder (same : w'.Reorders w) (d : DefinedName) :
    identifierOf p w' d = identifierOf p w d := by
  rw [identifierOf, identifierOf, same.namedKey, same.bindConfig]

section

variable (same : w'.Reorders w) (orderly : p.Orderly w)

include same orderly

/-- The names become the same candidates, in another order. -/
theorem bind_reorder : (bind p w').1.Perm (bind p w).1 := by
  have spellings := (same.names.map (·.name)).nodup_iff.2 orderly.names
  have cells := same.namedKeys.nodup_iff.2 orderly.keys
  have candidates : candidateOf p w' = candidateOf p w := by
    funext d
    rw [candidateOf, candidateOf, identifierOf_reorder same]
  rw [candidates_bind spellings cells, candidates_bind orderly.names orderly.keys, candidates,
    same.sheetTable, unnamedOutputs_congr rfl fun key => same.namedKeys.mem_iff]
  exact (same.names.map _).append_right _

/-- Spellings, cells and identifiers stay distinct in another order. -/
theorem orderly_reorder : p.Orderly w' := by
  refine ⟨?_, (same.names.map _).nodup_iff.2 orderly.names,
    same.namedKeys.nodup_iff.2 orderly.keys, ?_⟩
  · rw [same.key]
    exact orderly.inputs
  · exact ((bind_reorder same orderly).map _).nodup_iff.2 orderly.identifiers

/-- The same cells are bound in the end. -/
theorem unbound_reorder (key : String) :
    (bind p w').2.table.binding? key = none ↔ (bind p w).2.table.binding? key = none := by
  rw [unbound_bind_iff (orderly_reorder same orderly), unbound_bind_iff orderly, same.bindConfig,
    same.namedKeys.mem_iff]

/-- The same names are inputs. -/
theorem inputs_reorder (name : String) :
    name ∈ (bind p w').2.sections.interface.inputs ↔
      name ∈ (bind p w).2.sections.interface.inputs := by
  have orderly' := orderly_reorder same orderly
  rw [(inAnyOrder orderly'.names orderly'.keys).inputs,
    (inAnyOrder orderly.names orderly.keys).inputs]
  simp only [same.names.mem_iff, same.bindConfig, same.key, identifierOf_reorder same, isInputCell,
    same.region]

end

end Run

end SheetCompiler
