import SheetCompiler.Proofs.Compile.Binding
import SheetCompiler.Proofs.Compile.Points

/-!
# When keys share an identifier

Made-up identifiers are new, so all sharing comes from the names that are given: aliases of the
configuration and defined names are bound as they are spelled. A defined name takes an identifier
away from other cells if it is the first name for its cells and is spelled like an alias or like an
earlier name (`Workbook.Clashes`). `Run.identifiers_distinct_iff` says that this is the only way:
at every point of a compilation distinct keys have distinct identifiers if and only if there is no
such name.
-/

namespace SheetCompiler

open AliasTable

namespace AliasTable

/-- Distinct keys have distinct identifiers. -/
def Injective (t : AliasTable) : Prop :=
  ∀ key other identifier, t.lookup key = some identifier → t.lookup other = some identifier →
    key = other

/-- The identifiers of keys are in use. -/
def BoundUsed (t : AliasTable) : Prop :=
  ∀ key identifier, t.lookup key = some identifier → identifier ∈ t.used

variable {t : AliasTable} {key identifier : String} {layer : Layer}

theorem lookup_bind (other : String) :
    (t.bind key identifier layer).lookup other =
      if other = key then some identifier else t.lookup other := by
  unfold lookup
  rw [binding?_bind]
  split <;> rfl

/-- A key that is bound anew gets its own identifier if nobody else has it. -/
theorem injective_bind_iff (unbound : t.lookup key = none) :
    (t.bind key identifier layer).Injective ↔
      t.Injective ∧ ∀ other, t.lookup other ≠ some identifier := by
  constructor
  · intro injective
    have old : ∀ {k id}, t.lookup k = some id →
        (t.bind key identifier layer).lookup k = some id := by
      intro k id h
      rw [lookup_bind, if_neg, h]
      rintro rfl
      simp [unbound] at h
    refine ⟨fun k k' id h h' => injective k k' id (old h) (old h'), fun other h => ?_⟩
    have new : (t.bind key identifier layer).lookup key = some identifier := by simp [lookup_bind]
    have same := injective other key identifier (old h) new
    simp [same, unbound] at h
  · rintro ⟨injective, nobody⟩ k k' id h h'
    rw [lookup_bind] at h h'
    by_cases hk : k = key <;> by_cases hk' : k' = key
    · exact hk.trans hk'.symm
    · simp only [hk, if_true, Option.some.injEq, hk', if_false] at h h'
      exact absurd (h ▸ h') (nobody k')
    · simp only [hk, if_false, hk', if_true, Option.some.injEq] at h h'
      exact absurd (h' ▸ h) (nobody k)
    · simp only [hk, hk', if_false] at h h'
      exact injective k k' id h h'

/-- Binding a key takes its identifier into use. -/
theorem BoundUsed.bind (used : t.BoundUsed) (key identifier : String) (layer : Layer) :
    (t.bind key identifier layer).BoundUsed := by
  intro other id h
  rw [lookup_bind] at h
  rw [mem_used_bind]
  split at h
  · exact .inr (Option.some.inj h).symm
  · exact .inl (used other id h)

/-- A reference that gets a made-up identifier leaves the table as injective as it was. -/
theorem BoundUsed.resolve (used : t.BoundUsed) (r : Reference) (current : Option String) :
    (t.resolve r current).2.BoundUsed ∧ ((t.resolve r current).2.Injective ↔ t.Injective) := by
  obtain ⟨b, -, eq⟩ | ⟨unbound, eq⟩ := t.resolve_cases r current
  · rw [eq]
    exact ⟨used, .rfl⟩
  · rw [eq]
    -- The queue is the only difference to binding the key.
    have queued : (t.synthesize (t.key r current)).2.Injective ↔
        (t.bind (t.key r current) (t.fresh (identifierOfKey (t.key r current))) .synthesized).Injective :=
      .rfl
    rw [queued, injective_bind_iff (lookup_eq_none_iff.2 unbound)]
    refine ⟨used.bind _ _ .synthesized, and_iff_left fun other h => ?_⟩
    exact fresh_notMem _ (used other _ h)

/-- So does binding the cells of the configuration. -/
theorem BoundUsed.configure (used : t.BoundUsed) (cells : List BoundCell) :
    (t.configure cells).BoundUsed := by
  induction cells generalizing t with
  | nil => exact used
  | cons cell cells ih =>
    rw [configure_cons]
    refine ih ?_
    unfold insertConfig insert
    split
    · exact used.bind _ _ _
    · exact used

end AliasTable

/-! ### Names that clash -/

/-- What holds of every element and of those before it. -/
theorem forall_take_concat {α : Type} {P : List α → α → Prop} {xs : List α} {x : α} :
    (∀ i y, (xs ++ [x])[i]? = some y → P ((xs ++ [x]).take i) y) ↔
      (∀ i y, xs[i]? = some y → P (xs.take i) y) ∧ P xs x := by
  constructor
  · intro all
    refine ⟨fun i y h => ?_, ?_⟩
    · have hi := (List.getElem?_eq_some_iff.1 h).1
      have := all i y (by rw [List.getElem?_append_left hi, h])
      rwa [List.take_append_of_le_length (by omega)] at this
    · simpa using all xs.length x (by simp)
  · rintro ⟨all, last⟩ i y h
    rcases Nat.lt_trichotomy i xs.length with hi | rfl | hi
    · rw [List.getElem?_append_left hi] at h
      rw [List.take_append_of_le_length (by omega)]
      exact all i y h
    · obtain rfl : x = y := by simpa using h
      simpa using last
    · rw [List.getElem?_eq_none (by simp; omega)] at h
      simp at h

/-- The aliases of the configuration have names and cells of their own, and no name is written as
another. -/
structure Plan.Distinct (p : Plan) (w : Workbook) : Prop where
  names : (p.cells.map (·.name)).Nodup
  cells : (p.cells.map fun cell => w.key cell.reference).Nodup
  noRenames : p.config.renames = []

instance (p : Plan) (w : Workbook) : Decidable (p.Distinct w) :=
  decidable_of_iff ((p.cells.map (·.name)).Nodup ∧
      (p.cells.map fun cell => w.key cell.reference).Nodup ∧ p.config.renames = [])
    ⟨fun ⟨names, cells, noRenames⟩ => ⟨names, cells, noRenames⟩,
      fun h => ⟨h.names, h.cells, h.noRenames⟩⟩

namespace Workbook

/-- The key of the cells that a defined name stands for. -/
def namedKey? (w : Workbook) (d : DefinedName) : Option String :=
  match d.target with
  | .cells r => some (w.key r)
  | _ => none

/-- The spellings of the names that stand for cells. -/
def cellNames (w : Workbook) (ds : List DefinedName) : List String :=
  (ds.filter fun d => (w.namedKey? d).isSome).map (·.name)

/-- The name is the first one for its cells, and it is spelled like an alias or like an earlier
name of cells. -/
def Clashes (w : Workbook) (p : Plan) (earlier : List DefinedName) (d : DefinedName) : Prop :=
  ∃ key ∈ w.namedKey? d,
    key ∉ p.cells.map (fun cell => w.key cell.reference) ∧ key ∉ earlier.filterMap w.namedKey? ∧
    (d.name ∈ p.cells.map (·.name) ∨ d.name ∈ w.cellNames earlier)

/-- No name clashes with those before it. -/
def ClashFree (w : Workbook) (p : Plan) (ds : List DefinedName) : Prop :=
  ∀ i d, ds[i]? = some d → ¬w.Clashes p (ds.take i) d

instance (w : Workbook) (p : Plan) (earlier : List DefinedName) (d : DefinedName) :
    Decidable (w.Clashes p earlier d) :=
  inferInstanceAs (Decidable (∃ key ∈ w.namedKey? d, _))

instance (w : Workbook) (p : Plan) (ds : List DefinedName) : Decidable (w.ClashFree p ds) :=
  decidable_of_iff (∀ i : Fin ds.length, ¬w.Clashes p (ds.take i) ds[i])
    ⟨fun free i d h => by
      obtain ⟨hi, rfl⟩ := List.getElem?_eq_some_iff.1 h
      exact free ⟨i, hi⟩,
    fun free i => free i ds[i] (List.getElem?_eq_getElem i.isLt)⟩

/-- One more name adds its spelling, if it stands for cells. -/
theorem mem_cellNames_concat {w : Workbook} {ds : List DefinedName} {d : DefinedName} {name : String} :
    name ∈ w.cellNames (ds ++ [d]) ↔
      name ∈ w.cellNames ds ∨ (w.namedKey? d).isSome ∧ name = d.name := by
  by_cases h : (w.namedKey? d).isSome <;> simp [cellNames, h]

/-- One more name clashes, or it does not, with those before it. -/
theorem clashFree_concat {w : Workbook} {p : Plan} {ds : List DefinedName} {d : DefinedName} :
    w.ClashFree p (ds ++ [d]) ↔ w.ClashFree p ds ∧ ¬w.Clashes p ds d :=
  forall_take_concat (P := fun earlier d => ¬w.Clashes p earlier d)

end Workbook

/-! ### Binding keeps account of the spellings -/

/-- The identifiers that the configuration gives are in use. -/
theorem Run.boundUsed_bindConfig (p : Plan) (w : Workbook) : (bindConfig p w).table.BoundUsed := by
  rw [(bindConfig_spec p w).1]
  refine BoundUsed.configure (fun key identifier h => ?_) _
  simp [AliasTable.lookup, (p.startTable_spec w).2.2] at h

/-- A table in which the configuration and some of the defined names are bound. -/
structure NamesBound (p : Plan) (w : Workbook) (ds : List DefinedName) (t : AliasTable) : Prop where
  sheets : t.sheets = w.sheetTable.sheets
  layers : t.AtLeast .definedName
  used : t.BoundUsed
  /-- The bound keys are those of aliases and of names. -/
  unbound_iff : ∀ key, t.lookup key = none ↔
    key ∉ p.cells.map (fun cell => w.key cell.reference) ∧ key ∉ ds.filterMap w.namedKey?
  /-- Identifiers are spelled like an alias or a name. -/
  identifiers : ∀ key identifier, t.lookup key = some identifier →
    identifier ∈ p.cells.map (·.name) ∨ identifier ∈ w.cellNames ds
  aliases : ∀ name ∈ p.cells.map (·.name), ∃ key, t.lookup key = some name
  /-- What is written for a name that stood before is the identifier of some cells. -/
  written : ∀ name ∈ w.cellNames ds, ∃ key, t.lookup key = some (t.rename name)
  unwritten : ∀ name, name ∉ w.cellNames ds → t.rename name = name
  injective_iff : t.Injective ↔ w.ClashFree p ds

namespace NamesBound

variable {p : Plan} {w : Workbook} {ds : List DefinedName} {t : AliasTable}

theorem key_eq (bound : NamesBound p w ds t) (r : Reference) : t.key r none = w.key r :=
  key_congr bound.sheets r none

/-- A name for cells that have no identifier clashes exactly if what is written for it is taken. -/
theorem clashes_iff (bound : NamesBound p w ds t) {d : DefinedName} {key : String}
    (named : w.namedKey? d = some key) (unbound : t.lookup key = none) :
    w.Clashes p ds d ↔ ∃ other, t.lookup other = some (t.rename d.name) := by
  obtain ⟨noAlias, noName⟩ := (bound.unbound_iff key).1 unbound
  have spelled : w.Clashes p ds d ↔ d.name ∈ p.cells.map (·.name) ∨ d.name ∈ w.cellNames ds := by
    simp only [Workbook.Clashes, named, Option.mem_def, Option.some.injEq]
    constructor
    · rintro ⟨_, rfl, -, -, h⟩
      exact h
    · exact fun h => ⟨key, rfl, noAlias, noName, h⟩
  rw [spelled]
  by_cases before : d.name ∈ w.cellNames ds
  · exact iff_of_true (.inr before) (bound.written d.name before)
  · rw [bound.unwritten d.name before]
    constructor
    · exact fun h => bound.aliases d.name (h.resolve_right before)
    · exact fun ⟨other, h⟩ => bound.identifiers other d.name h

/-- The aliases alone have distinct identifiers. -/
theorem bindConfig (distinct : p.Distinct w) : NamesBound p w [] (Run.bindConfig p w).table := by
  have lookup : ∀ key, (Run.bindConfig p w).table.lookup key =
      (p.cells.find? fun cell => w.key cell.reference = key).map (·.name) := by
    intro key
    rw [AliasTable.lookup, Run.binding?_bindConfig]
    simp [Option.map_map, Function.comp_def]
  have found : ∀ {key identifier}, (Run.bindConfig p w).table.lookup key = some identifier →
      ∃ cell ∈ p.cells, w.key cell.reference = key ∧ cell.name = identifier := by
    intro key identifier h
    obtain ⟨cell, hcell, name⟩ := Option.map_eq_some_iff.1 (lookup key ▸ h)
    exact ⟨cell, List.mem_of_find?_eq_some hcell, by simpa using List.find?_some hcell, name⟩
  have named : ∀ {cell}, cell ∈ p.cells →
      (Run.bindConfig p w).table.lookup (w.key cell.reference) = some cell.name := by
    intro cell hcell
    rw [lookup, Workbook.find?_key_eq distinct.cells hcell]
    rfl
  refine ⟨?_, ?_, ?_, fun key => ?_, fun key identifier h => ?_, fun name h => ?_, ?_, ?_, ?_⟩
  · exact Run.sheets_bindConfig p w
  · exact Run.layers_bindConfig p w
  · exact Run.boundUsed_bindConfig p w
  · rw [lookup]
    simp
  · obtain ⟨cell, hcell, -, rfl⟩ := found h
    exact .inl (List.mem_map_of_mem hcell)
  · obtain ⟨cell, hcell, rfl⟩ := List.mem_map.1 h
    exact ⟨_, named hcell⟩
  · simp [Workbook.cellNames]
  · intro name _
    have renames : w.sheetTable.renames = [] := by rw [w.sheetTable_eq]
    simp [(Run.bindConfig_spec p w).1, rename, Plan.startTable, distinct.noRenames, renames]
  · refine iff_of_true (fun key other identifier h h' => ?_) (by simp [Workbook.ClashFree])
    obtain ⟨cell, hcell, rfl, rfl⟩ := found h
    obtain ⟨cell', hcell', rfl, name⟩ := found h'
    rw [List.inj_on_of_nodup_map distinct.names hcell' hcell name]

variable {d : DefinedName}

/-- A name for cells that have no identifier yet. -/
theorem bind (bound : NamesBound p w ds t) {key : String} (named : w.namedKey? d = some key)
    (unbound : t.lookup key = none) :
    NamesBound p w (ds ++ [d]) (t.bind key (t.rename d.name) .definedName) := by
  have rename : ∀ name, (t.bind key (t.rename d.name) .definedName).rename name = t.rename name := by
    simp [AliasTable.rename]
  have old : ∀ {other identifier}, t.lookup other = some identifier →
      (t.bind key (t.rename d.name) .definedName).lookup other = some identifier := by
    intro other identifier h
    rw [lookup_bind, if_neg, h]
    rintro rfl
    simp [unbound] at h
  refine ⟨?_, bound.layers.bind _ _, bound.used.bind _ _ _, fun other => ?_,
    fun other identifier h => ?_, fun name h => ?_, fun name h => ?_, fun name h => ?_, ?_⟩
  · rw [sheets_bind, bound.sheets]
  · have := bound.unbound_iff other
    rw [lookup_bind, List.filterMap_append]
    by_cases same : other = key
    · simp [same, named]
    · simp [same, named, this]
  · rw [Workbook.mem_cellNames_concat]
    rw [lookup_bind] at h
    split at h
    · obtain rfl := Option.some.inj h
      by_cases before : d.name ∈ w.cellNames ds
      · obtain ⟨other, h⟩ := bound.written d.name before
        exact (bound.identifiers other _ h).imp id .inl
      · exact .inr (.inr ⟨by simp [named], bound.unwritten d.name before⟩)
    · exact (bound.identifiers other identifier h).imp id .inl
  · obtain ⟨other, h⟩ := bound.aliases name h
    exact ⟨other, old h⟩
  · rw [rename]
    rcases Workbook.mem_cellNames_concat.1 h with before | ⟨-, rfl⟩
    · obtain ⟨other, h⟩ := bound.written name before
      exact ⟨other, old h⟩
    · exact ⟨key, by simp [lookup_bind]⟩
  · rw [rename]
    exact bound.unwritten name fun before => h (Workbook.mem_cellNames_concat.2 (.inl before))
  · rw [injective_bind_iff unbound, bound.injective_iff, Workbook.clashFree_concat,
      bound.clashes_iff named unbound, not_exists]

/-- A name that leaves all identifiers as they are. -/
theorem keep (bound : NamesBound p w ds t) {t' : AliasTable} (sheets : t'.sheets = t.sheets)
    (bindings : ∀ key, t'.binding? key = t.binding? key) (used : t.used ⊆ t'.used)
    (known : ∀ key, w.namedKey? d = some key → t.lookup key ≠ none)
    (renamed : ∀ name, w.namedKey? d = none ∨ name ≠ d.name → t'.rename name = t.rename name)
    (written : w.namedKey? d ≠ none → ∃ key, t.lookup key = some (t'.rename d.name)) :
    NamesBound p w (ds ++ [d]) t' := by
  have lookup : ∀ key, t'.lookup key = t.lookup key := fun key => by
    simp [AliasTable.lookup, bindings]
  refine ⟨sheets.trans bound.sheets, fun key b h => ?_, fun key identifier h => ?_, fun key => ?_,
    fun key identifier h => ?_, fun name h => ?_, fun name h => ?_, fun name h => ?_, ?_⟩
  · exact bound.layers key b (bindings key ▸ h)
  · exact used (bound.used key identifier (lookup key ▸ h))
  · have old := bound.unbound_iff key
    have new : w.namedKey? d = some key → t.lookup key ≠ none := known key
    rw [lookup, List.filterMap_append, List.mem_append]
    cases named : w.namedKey? d with
    | none => simp [named, old]
    | some other =>
      by_cases same : key = other
      · subst same
        have := new named
        simp [named, this]
      · simp [named, same, old]
  · rw [Workbook.mem_cellNames_concat]
    exact (bound.identifiers key identifier (lookup key ▸ h)).imp id .inl
  · simpa only [lookup] using bound.aliases name h
  · simp only [lookup]
    by_cases same : w.namedKey? d = none ∨ name ≠ d.name
    · rw [renamed name same]
      refine bound.written name ((Workbook.mem_cellNames_concat.1 h).resolve_right ?_)
      rintro ⟨some, eq⟩
      exact same.elim (fun none => by simp [none] at some) (fun ne => ne eq)
    · obtain ⟨named, same⟩ := not_or.1 same
      rw [not_not.1 same]
      exact written named
  · rw [Workbook.mem_cellNames_concat, not_or] at h
    rw [renamed name, bound.unwritten name h.1]
    cases named : w.namedKey? d with
    | none => exact .inl rfl
    | some key => exact .inr fun eq => h.2 ⟨by simp [named], eq⟩
  · have injective : t'.Injective ↔ t.Injective := by simp [Injective, lookup]
    rw [injective, bound.injective_iff, Workbook.clashFree_concat, and_iff_left]
    -- A clash needs cells without an identifier, but these have one.
    rintro ⟨key, named, noAlias, noName, -⟩
    exact known key named ((bound.unbound_iff key).2 ⟨noAlias, noName⟩)

/-- The step, by the three ways to bind a name: only the first name of some cells gives them an
identifier, and it clashes exactly if this is taken. -/
theorem naming {run : Run} {result : Candidate × Run} (bound : NamesBound p w ds run.table)
    (naming : Run.Naming p.config w run d result) : NamesBound p w (ds ++ [d]) result.2.table := by
  have named : ∀ {r}, d.target = .cells r → w.namedKey? d = some (run.table.key r none) := by
    intro r target
    simp [Workbook.namedKey?, target, bound.key_eq]
  cases naming with
  | first r key identifier target hkey unbound written =>
    subst hkey written
    rw [Run.table_declare]
    exact bound.bind (named target) (lookup_eq_none_iff.2 unbound)
  | again r b target hb =>
    have found : run.table.lookup (run.table.key r none) = some b.identifier := by
      simp [AliasTable.lookup, hb]
    have known : ∀ key, w.namedKey? d = some key → run.table.lookup key ≠ none := by
      intro key hkey
      obtain rfl := Option.some.inj ((named target).symm.trans hkey)
      simp [found]
    dsimp only
    split
    next own =>
      -- The name is spelled like the identifier of the cells.
      refine bound.keep rfl (fun _ => rfl) (List.Subset.refl _) known (fun _ _ => rfl) fun _ => ?_
      by_cases before : d.name ∈ w.cellNames ds
      · exact bound.written d.name before
      · rw [bound.unwritten d.name before]
        exact ⟨_, own ▸ found⟩
    next =>
      refine bound.keep (by simp) (by simp) (fun x hx => by simp [insertRename, hx]) known ?_ ?_
      · intro name h
        rw [rename_insertRename, if_neg (h.resolve_left (by simp [named target]))]
      · intro _
        exact ⟨_, by rw [rename_insertRename, if_pos rfl, found]⟩
  | elsewhere identifier used target grown =>
    have nameless : w.namedKey? d = none := by
      unfold Workbook.namedKey?
      split
      next r h => exact absurd h (target r)
      next => rfl
    exact bound.keep rfl (fun _ => rfl) grown (by simp [nameless]) (fun _ _ => rfl)
      (by simp [nameless])

end NamesBound

namespace Run

variable {p : Plan} {w : Workbook}

/-- Binding names one by one is a fold. -/
theorem bindNames_snd (c : Config) (w : Workbook) (ds : List DefinedName) (run : Run) :
    (bindNames c w ds run).2 = ds.foldl (fun run d => (run.bindName c w d).2) run := by
  induction ds generalizing run with
  | nil => rfl
  | cons d ds ih => rw [bindNames, List.foldl_cons, ← ih]

/-- The run of the step over all names of the workbook. -/
theorem namesBound_bind (distinct : p.Distinct w) :
    NamesBound p w w.names (Run.bind p w).2.table := by
  have step : ∀ ds : List DefinedName, NamesBound p w ds
      (ds.foldl (fun run d => (run.bindName p.config w d).2) (bindConfig p w)).table := by
    intro ds
    induction ds using List.reverseRecOn with
    | nil => exact .bindConfig distinct
    | append_singleton ds d ih =>
      rw [List.foldl_append, List.foldl_cons, List.foldl_nil]
      exact ih.naming (bindName_naming ih.layers)
  have := step w.names
  rwa [← bindNames_snd] at this

/-- Classifying and following keep the table as injective as it is. -/
theorem Point.injective_iff {todo : List Candidate} {left : Nat} {run : Run}
    (distinct : p.Distinct w) (point : Point p w todo left run) :
    run.table.BoundUsed ∧ (run.table.Injective ↔ w.ClashFree p w.names) := by
  refine point.table_induction
    (P := fun t => t.BoundUsed ∧ (t.Injective ↔ w.ClashFree p w.names)) ?_ ?_ ?_
  · have bound := namesBound_bind distinct
    exact ⟨bound.used, bound.injective_iff⟩
  · rintro t r current ⟨used, iff⟩
    obtain ⟨used, step⟩ := used.resolve r current
    exact ⟨used, step.trans iff⟩
  · exact fun t pending h => h

/-- **When identifiers are distinct.** With aliases that have names and cells of their own and
without renamed names, at every point of a compilation distinct keys have distinct identifiers
exactly if no defined name clashes with the aliases and the names before it. -/
theorem identifiers_distinct_iff {todo : List Candidate} {left : Nat} {run : Run}
    (distinct : p.Distinct w) (point : Point p w todo left run) :
    (∀ key other identifier, run.table.lookup key = some identifier →
      run.table.lookup other = some identifier → key = other) ↔ w.ClashFree p w.names :=
  (point.injective_iff distinct).2

/-- An input, an output with a name of its own, and one name for a cell on the whole workbook and
on one of its sheets. -/
def oneLabel : Except WorkbookError Workbook := do
  let w ← ({} : Workbook).addSheet "Calc"
  let w ← w.addSheet "Data"
  let w ← w.setFormula "Calc" "B1" "=Data!A1&DATA!$B$1&C1"
  let w ← w.setValue "Data" "A1" (.string "north")
  let w ← w.defineName { name := "Label", refersTo := "=Data!$A$1" }
  let w ← w.defineName { name := "Label", refersTo := "=data!A1", localSheet := some "Calc" }
  w.defineName { name := "Both", refersTo := "=Calc!$B$1" }

def oneLabelConfig : Config where
  spreadsheet := "labels.xlsx"
  inputs := [⟨"Data!B1", "side"⟩]
  outputs := [⟨"Calc!B1", "text"⟩]

/-- Two names of one spelling for one cell do not clash. -/
theorem identifiers_distinct_iff_oneLabel :
    ∃ p w, Plan.ofConfig oneLabelConfig = .ok p ∧ oneLabel = .ok w ∧ p.Distinct w ∧
      (∃ left, Point p w [] left (compile p w)) ∧ w.ClashFree p w.names ∧
      (compile p w).table.lookup "Calc!$C$1" = some "CalcC1" ∧
      ∀ key, (compile p w).table.lookup key = some "CalcC1" → key = "Calc!$C$1" := by
  have facts : ((Plan.ofConfig oneLabelConfig).toOption.bind fun p =>
      oneLabel.toOption.map fun w =>
        decide (p.Distinct w ∧ w.ClashFree p w.names ∧
          (compile p w).table.lookup "Calc!$C$1" = some "CalcC1")) = some true := by decide +kernel
  obtain ⟨p, hp, facts⟩ := Option.bind_eq_some_iff.1 facts
  obtain ⟨w, hw, facts⟩ := Option.map_eq_some_iff.1 facts
  obtain ⟨distinct, free, made⟩ := of_decide_eq_true facts
  obtain ⟨left, point, -⟩ := exists_point_compile p w
  refine ⟨p, w, Fallible.toOption_eq_some_iff.1 hp, Fallible.toOption_eq_some_iff.1 hw, distinct,
    ⟨left, point⟩, free, made, fun key h => ?_⟩
  exact (identifiers_distinct_iff distinct point).2 free _ _ _ h made

/-- One name for two cells, on the whole workbook and on one of its sheets. -/
def twoLabels : Except WorkbookError Workbook := do
  let w ← ({} : Workbook).addSheet "Calc"
  let w ← w.addSheet "Data"
  let w ← w.setValue "Calc" "A1" (.string "south")
  let w ← w.setFormula "Calc" "B1" "=Data!A1&A1"
  let w ← w.setValue "Data" "A1" (.string "north")
  let w ← w.defineName { name := "Label", refersTo := "=Data!$A$1" }
  let w ← w.defineName { name := "Label", refersTo := "=Calc!$A$1", localSheet := some "Calc" }
  w.defineName { name := "Both", refersTo := "=Calc!$B$1" }

def labelsConfig : Config := { spreadsheet := "labels.xlsx", timestamp := false }

/-- Two names of one spelling for two cells clash, and a formula reads one of the cells twice. -/
theorem twoLabels_shared :
    ∃ p w, Plan.ofConfig labelsConfig = .ok p ∧ twoLabels = .ok w ∧ p.Distinct w ∧
      (∃ left, Point p w [] left (compile p w)) ∧
      (compile p w).sections.properties.map (·.text) = ["self.Label + self.Label"] ∧
      ¬(compile p w).table.Injective := by
  have facts : ((Plan.ofConfig labelsConfig).toOption.bind fun p =>
      twoLabels.toOption.map fun w =>
        decide (p.Distinct w ∧
          (compile p w).sections.properties.map (·.text) = ["self.Label + self.Label"] ∧
          (compile p w).table.lookup "Data!$A$1" = some "Label" ∧
          (compile p w).table.lookup "Calc!$A$1" = some "Label")) = some true := by decide +kernel
  obtain ⟨p, hp, facts⟩ := Option.bind_eq_some_iff.1 facts
  obtain ⟨w, hw, facts⟩ := Option.map_eq_some_iff.1 facts
  obtain ⟨distinct, text, onData, onCalc⟩ := of_decide_eq_true facts
  obtain ⟨left, point, -⟩ := exists_point_compile p w
  refine ⟨p, w, Fallible.toOption_eq_some_iff.1 hp, Fallible.toOption_eq_some_iff.1 hw, distinct,
    ⟨left, point⟩, text, fun injective => ?_⟩
  exact absurd (injective _ _ _ onData onCalc) (by decide)

end Run

end SheetCompiler
