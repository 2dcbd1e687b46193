import SheetCompiler.Compile.Run
import SheetCompiler.Proofs.Alias.Resolution
import SheetCompiler.Proofs.Block.Soundness

/-!
# The references that a body reads

`Content.reads` lists the references that are resolved while the body of a property is written, in
order. It depends on what the workbook holds only, and says all that writing the body does to the
alias table (`Run.body_table`). A block is tried as a comprehension first; what that has resolved
counts, also if the cells are written one by one in the end. Whether a body can be written depends
on what the workbook holds only, too (`Run.body_fst`).
-/

namespace SheetCompiler

open AliasTable Fallible

/-- References, each with the sheet it is seen from. -/
abbrev Reads := List (Reference × Option String)

/-- The references of a formula given as text; none if it cannot be read. -/
def Formula.readsOfText (sheet : Option String) (text : String) : Reads :=
  match Formula.parseSingle text with
  | .ok f => f.references.map (·, sheet)
  | .error _ => []

/-! ### Comprehensions -/

namespace Block

/-- The ranges parallel to the block, up to the first offset that leaves the sheet. -/
def parallels (b : Block) : List Offset → Reads
  | [] => []
  | o :: os =>
    match b.parallel o with
    | some r => (r, none) :: b.parallels os
    | none => []

/-- The ranges of all offsets stay on the sheet. -/
def fits (b : Block) (os : List Offset) : Bool := os.all fun o => (b.parallel o).isSome

/-- The block can be written as a comprehension. -/
def generalizes (b : Block) : Bool :=
  match b.pattern with
  | .ok p => b.fits p.groups
  | .error _ => false

/-- What is resolved in the attempt to write the block as a comprehension. -/
def reads (b : Block) : Reads :=
  match b.pattern with
  | .ok p =>
    b.parallels p.groups ++
      if b.fits p.groups then p.body.references.map (·, some b.sheet) else []
  | .error _ => []

variable (b : Block) (symbols : Python.Symbols)

/-- The ranges of the loop can be written exactly if they stay on the sheet. -/
theorem iterables_fst (first : Address) (os : List Offset) (t : AliasTable) :
    (b.iterables symbols first os t).1.toOption.isSome = b.fits os := by
  induction os generalizing t with
  | nil => simp [iterables, fits, Except.toOption]
  | cons o os ih =>
    cases h : b.parallel o with
    | none => simp [iterables, fits, h, Except.toOption]
    | some r =>
      have ih := ih (t.resolve r none).2
      simp only [iterables, h, fits, List.all_cons, Option.isSome_some, Bool.true_and] at ih ⊢
      rw [← ih]
      cases (b.iterables symbols first os (t.resolve r none).2).1 <;> rfl

/-- One range is resolved for each offset, up to the first that leaves the sheet. -/
theorem iterables_snd (first : Address) (os : List Offset) (t : AliasTable) :
    (b.iterables symbols first os t).2 = (resolveAll (b.parallels os) t).2 := by
  induction os generalizing t with
  | nil => simp [iterables, parallels, resolveAll]
  | cons o os ih =>
    cases h : b.parallel o with
    | none => simp [iterables, parallels, h, resolveAll]
    | some r => simp [iterables, parallels, h, resolveAll, ih]

/-- Whether a block becomes a comprehension does not depend on the table. -/
theorem comprehension_fst (t : AliasTable) :
    (b.comprehension symbols t).1.toOption.isSome = b.generalizes := by
  unfold comprehension generalizes
  cases b.pattern with
  | error e => rfl
  | ok p =>
    have fst := b.iterables_fst symbols p.first p.groups t
    dsimp only
    generalize b.iterables symbols p.first p.groups t = looped at fst ⊢
    rcases looped with ⟨_ | ranges, t₁⟩ <;> exact fst

/-- The ranges of the loop are resolved first, then the references that are left in its body. -/
theorem comprehension_snd (t : AliasTable) :
    (b.comprehension symbols t).2 = (resolveAll b.reads t).2 := by
  unfold comprehension reads
  cases b.pattern with
  | error e => rfl
  | ok p =>
    have fst := b.iterables_fst symbols p.first p.groups t
    have snd := b.iterables_snd symbols p.first p.groups t
    dsimp only
    generalize b.iterables symbols p.first p.groups t = looped at fst snd ⊢
    rcases looped with ⟨_ | ranges, t₁⟩
    · have fits : b.fits p.groups = false := fst.symm
      simpa [fits] using snd
    · have fits : b.fits p.groups = true := fst.symm
      simp only [fits, if_true, resolveAll_append, Python.Scope.formula_snd]
      rw [← snd]

end Block

/-! ### Cells and regions -/

namespace RegionCell

/-- The formula of the cell, if it has one, can be read. -/
def isReadable (cell : RegionCell) : Bool :=
  cell.formula.all fun text => (Formula.parseSingle text).toOption.isSome

def reads (sheet : String) (cell : RegionCell) : Reads :=
  match cell.formula with
  | some text => Formula.readsOfText (some sheet) text
  | none => []

/-- What cells read, up to the first that is not readable. -/
def readsOfList (sheet : String) : List RegionCell → Reads
  | [] => []
  | cell :: cells => cell.reads sheet ++ if cell.isReadable then readsOfList sheet cells else []

/-- The second list is read only if all of the first is readable. -/
theorem readsOfList_append (sheet : String) (xs ys : List RegionCell) :
    readsOfList sheet (xs ++ ys) =
      readsOfList sheet xs ++ if xs.all isReadable then readsOfList sheet ys else [] := by
  induction xs with
  | nil => simp [readsOfList]
  | cons x xs ih => by_cases h : x.isReadable <;> simp [readsOfList, h, ih]

end RegionCell

namespace Body

/-- The table after a formula: its references are resolved in order. -/
theorem formula_snd (scope : Python.Scope) (name location text : String) (t : AliasTable) :
    (formula scope name location text t).2 =
      (resolveAll (Formula.readsOfText scope.sheet text) t).2 := by
  unfold formula Formula.readsOfText
  cases Formula.parseSingle text with
  | error e => rfl
  | ok f => exact scope.formula_snd f t

/-- A formula is written if it can be read, whatever the table is. -/
theorem formula_fst (scope : Python.Scope) (name location text : String) (t : AliasTable) :
    (formula scope name location text t).1.toOption.isSome =
      (Formula.parseSingle text).toOption.isSome := by
  unfold formula
  cases Formula.parseSingle text <;> rfl

section

variable (c : Config) (symbols : Python.Symbols) (name sheet : String)

theorem cell_fst (literal : RegionCell → String) (cell : RegionCell) (t : AliasTable) :
    (Body.cell symbols name literal sheet cell t).1.toOption.isSome = cell.isReadable := by
  unfold Body.cell RegionCell.isReadable
  cases cell.formula with
  | none => rfl
  | some text => exact formula_fst _ _ _ text t

/-- Only the formula of a cell resolves anything. -/
theorem cell_snd (literal : RegionCell → String) (cell : RegionCell) (t : AliasTable) :
    (Body.cell symbols name literal sheet cell t).2 = (resolveAll (cell.reads sheet) t).2 := by
  unfold Body.cell RegionCell.reads
  cases cell.formula with
  | none => rfl
  | some text => exact formula_snd _ _ _ text t

/-- A row is written exactly if each of its cells can be read. -/
theorem items_fst (cells : List RegionCell) (t : AliasTable) :
    (items c symbols name sheet cells t).1.toOption.isSome = cells.all (·.isReadable) := by
  induction cells generalizing t with
  | nil => rfl
  | cons first rest ih =>
    have fst := cell_fst symbols name sheet (·.literal c) first t
    unfold items
    generalize Body.cell symbols name (·.literal c) sheet first t = written at fst ⊢
    rcases written with ⟨_ | item, t₁⟩
    · rw [List.all_cons, ← fst]
      rfl
    · rw [List.all_cons, ← fst, ← ih t₁]
      dsimp only
      cases (items c symbols name sheet rest t₁).1 <;> rfl

/-- What a row resolves, by induction on its cells: a cell that fails ends the row, but the
references of the cells before it stay resolved. -/
theorem items_snd (cells : List RegionCell) (t : AliasTable) :
    (items c symbols name sheet cells t).2 =
      (resolveAll (RegionCell.readsOfList sheet cells) t).2 := by
  induction cells generalizing t with
  | nil => rfl
  | cons first rest ih =>
    have fst := cell_fst symbols name sheet (·.literal c) first t
    have snd := cell_snd symbols name sheet (·.literal c) first t
    unfold items RegionCell.readsOfList
    generalize Body.cell symbols name (·.literal c) sheet first t = written at fst snd ⊢
    rcases written with ⟨_ | item, t₁⟩
    · have unreadable : first.isReadable = false := fst.symm
      simpa [unreadable] using snd
    · have readable : first.isReadable = true := fst.symm
      simp only [readable, if_true, resolveAll_append, ih]
      rw [← snd]

/-- Rows resolve what their cells do in reading order. -/
theorem rows_snd (cells : List (List RegionCell)) (t : AliasTable) :
    (rows c symbols name sheet cells t).2 =
      (resolveAll (RegionCell.readsOfList sheet cells.flatten) t).2 := by
  induction cells generalizing t with
  | nil => rfl
  | cons first rest ih =>
    have fst := items_fst c symbols name sheet first t
    have snd := items_snd c symbols name sheet first t
    unfold rows
    rw [List.flatten_cons, RegionCell.readsOfList_append]
    generalize items c symbols name sheet first t = written at fst snd ⊢
    rcases written with ⟨_ | row, t₁⟩
    · have unreadable : first.all (·.isReadable) = false := fst.symm
      simpa [unreadable] using snd
    · have readable : first.all (·.isReadable) = true := fst.symm
      simp only [readable, if_true, resolveAll_append, ih]
      rw [← snd]

end

end Body

namespace Region

/-- The block that is tried as a comprehension. -/
def block? (g : Region) : Option Block :=
  match g.formulas? with
  | none => none
  | some formulas =>
    let b : Block := ⟨g.sheet, g.origin, formulas⟩
    if b.isUniform then none else some b

/-- What is resolved for a region of several cells. -/
def readsOfBlock (g : Region) : Reads :=
  match g.block? with
  | none => RegionCell.readsOfList g.sheet g.rows.flatten
  | some b => b.reads ++ if b.generalizes then [] else RegionCell.readsOfList g.sheet g.rows.flatten

def reads (g : Region) : Reads :=
  match g.rows with
  | [[only]] => only.reads g.sheet
  | _ => g.readsOfBlock

end Region

namespace Body

variable (c : Config) (symbols : Python.Symbols) (name : String) (g : Region) (t : AliasTable)

/-- A comprehension is tried for regions that are blocks, and what it has resolved stays if it
fails. -/
theorem comprehension?_eq :
    comprehension? symbols g t =
      match g.block? with
      | none => (none, t)
      | some b => ((b.comprehension symbols t).1.toOption, (b.comprehension symbols t).2) := by
  unfold comprehension? Region.block?
  cases g.formulas? with
  | none => rfl
  | some formulas =>
    dsimp only
    split <;> rfl

/-- Cells one by one after an attempt at a comprehension that has failed. -/
theorem region_of_several (several : ∀ only, g.rows ≠ [[only]]) :
    region c symbols name g t =
      match comprehension? symbols g t with
      | (some python, t) => (.ok python, t, .comprehension)
      | (none, t) =>
        ((rows c symbols name g.sheet g.rows t).1.map Python.tuple,
          (rows c symbols name g.sheet g.rows t).2, .cellByCell) := by
  unfold region
  split
  next only single => exact absurd single (several only)
  next => rfl

/-- What writing a region does to the table, whichever way it is written. A comprehension that fails
has resolved some references already, and the cells follow behind these. -/
theorem region_table : (region c symbols name g t).2.1 = (resolveAll g.reads t).2 := by
  by_cases single : ∃ only, g.rows = [[only]]
  · obtain ⟨only, single⟩ := single
    simp only [region, Region.reads, single, cell_snd]
  · have several : ∀ only, g.rows ≠ [[only]] := fun only h => single ⟨only, h⟩
    have reads : g.reads = g.readsOfBlock := by
      unfold Region.reads
      split
      next only h => exact absurd h (several only)
      next => rfl
    rw [region_of_several c symbols name g t several, comprehension?_eq, reads]
    unfold Region.readsOfBlock
    cases g.block? with
    | none => exact rows_snd c symbols name g.sheet g.rows t
    | some b =>
      have fst := b.comprehension_fst symbols t
      have snd := b.comprehension_snd symbols t
      dsimp only
      rw [resolveAll_append, ← snd, ← fst]
      cases (b.comprehension symbols t).1 with
      | ok python => rfl
      | error e => exact rows_snd c symbols name g.sheet g.rows _

end Body

/-- What writing the body of a property resolves. -/
def Content.reads : Content → Reads
  | .region g => g.reads
  | .formula text sheet => Formula.readsOfText sheet text
  | .nothing => []

theorem Run.body_formula (p : Plan) (candidate : Candidate) (t : AliasTable) (text : String)
    (sheet : Option String) :
    body p candidate t (.formula text sheet) =
      let written :=
        Body.formula { symbols := p.symbols, sheet } candidate.name candidate.refersTo text t
      (written.1, written.2, .direct) := by
  rw [body]

/-- All that writing a body does to the table is to resolve what the content reads. -/
theorem Run.body_table (p : Plan) (candidate : Candidate) (t : AliasTable) (content : Content) :
    (Run.body p candidate t content).2.1 = (resolveAll content.reads t).2 := by
  cases content with
  | region g => exact Body.region_table _ _ _ g t
  | formula text sheet =>
    rw [body_formula]
    exact Body.formula_snd _ _ _ text t
  | nothing => rfl

/-! ### Bodies that can be written -/

/-- The formulas that have to be read for the body can be. -/
def Region.isWritable (g : Region) : Bool :=
  match g.rows with
  | [[only]] => only.isReadable
  | _ => g.block?.any (·.generalizes) || g.rows.flatten.all (·.isReadable)

/-- The body can be written, whatever the table is. -/
def Content.isWritable : Content → Bool
  | .region g => g.isWritable
  | .formula text _ => (Formula.parseSingle text).toOption.isSome
  | .nothing => true

namespace Body

variable (c : Config) (symbols : Python.Symbols) (name : String)

/-- Rows are written exactly if all their cells can be read. -/
theorem rows_fst (sheet : String) (cells : List (List RegionCell)) (t : AliasTable) :
    (rows c symbols name sheet cells t).1.toOption.isSome = cells.flatten.all (·.isReadable) := by
  induction cells generalizing t with
  | nil => rfl
  | cons first rest ih =>
    have fst := items_fst c symbols name sheet first t
    unfold rows
    rw [List.flatten_cons, List.all_append]
    generalize items c symbols name sheet first t = written at fst ⊢
    rcases written with ⟨_ | row, t₁⟩
    · rw [← fst]
      rfl
    · rw [← fst, ← ih t₁]
      dsimp only
      cases (rows c symbols name sheet rest t₁).1 <;> rfl

/-- A region is written exactly if it generalizes or all its cells can be read. -/
theorem region_fst (g : Region) (t : AliasTable) :
    (region c symbols name g t).1.toOption.isSome = g.isWritable := by
  by_cases single : ∃ only, g.rows = [[only]]
  · obtain ⟨only, single⟩ := single
    simp only [region, Region.isWritable, single, cell_fst]
  · have several : ∀ only, g.rows ≠ [[only]] := fun only h => single ⟨only, h⟩
    have writable : g.isWritable =
        (g.block?.any (·.generalizes) || g.rows.flatten.all (·.isReadable)) := by
      unfold Region.isWritable
      split
      next only h => exact absurd h (several only)
      next => rfl
    have cellByCell : ∀ t,
        ((rows c symbols name g.sheet g.rows t).1.map Python.tuple).toOption.isSome =
          g.rows.flatten.all (·.isReadable) := fun t => by
      rw [← rows_fst c symbols name g.sheet g.rows t]
      cases (rows c symbols name g.sheet g.rows t).1 <;> rfl
    rw [region_of_several c symbols name g t several, comprehension?_eq, writable]
    cases g.block? with
    | none => exact cellByCell t
    | some b =>
      have fst := b.comprehension_fst symbols t
      dsimp only
      rw [Option.any_some, ← fst]
      cases (b.comprehension symbols t).1 with
      | ok python => rfl
      | error e => exact cellByCell _

end Body

/-- Whether a body can be written is a matter of the content alone. -/
theorem Run.body_fst (p : Plan) (candidate : Candidate) (t : AliasTable) (content : Content) :
    (Run.body p candidate t content).1.toOption.isSome = content.isWritable := by
  cases content with
  | region g => exact Body.region_fst _ _ _ g t
  | formula text sheet =>
    rw [body_formula]
    exact Body.formula_fst _ _ _ text t
  | nothing => rfl

/-! ### Ranges that are read lie on the sheet -/

/-- Every range that is read lies on the sheet and starts at its upper left corner. -/
def Reads.Normalized (reads : Reads) : Prop := ∀ x ∈ reads, x.1.range.Normalized

namespace Reads

@[simp] theorem normalized_nil : Normalized [] := by simp [Normalized]

@[simp] theorem normalized_append {xs ys : Reads} : Normalized (xs ++ ys) ↔ Normalized xs ∧ Normalized ys := by
  simp [Normalized, or_imp, forall_and]

theorem normalized_map {rs : List Reference} (h : AllNormalized rs) (sheet : Option String) :
    Normalized (rs.map (·, sheet)) := by
  simpa [Normalized, AllNormalized] using h

/-- What the parser reads lies on the sheet. -/
theorem normalized_readsOfText (sheet : Option String) (text : String) :
    Normalized (Formula.readsOfText sheet text) := by
  unfold Formula.readsOfText
  cases h : Formula.parseSingle text with
  | error e => exact normalized_nil
  | ok f => exact normalized_map (Formula.allNormalized_of_parseSingle h) sheet

/-- A range parallel to a block is kept only if it lies on the sheet. -/
theorem normalized_parallels (b : Block) (os : List Offset) : Normalized (b.parallels os) := by
  induction os with
  | nil => exact normalized_nil
  | cons o os ih =>
    unfold Block.parallels
    split
    next r h =>
      obtain ⟨range, hrange, rfl⟩ := Option.map_eq_some_iff.1 h
      obtain ⟨first, hfirst, hrange⟩ := Option.bind_eq_some_iff.1 hrange
      obtain ⟨last, hlast, hrange⟩ := Option.bind_eq_some_iff.1 hrange
      cases hrange
      have normalized := Range.normalized_ofCorners (Address.of_offset hfirst).1
        (Address.of_offset hlast).1
      exact List.forall_mem_cons.2 ⟨normalized, ih⟩
    next => exact normalized_nil

theorem normalized_block (b : Block) : Normalized b.reads := by
  unfold Block.reads
  cases h : b.pattern with
  | error e => exact normalized_nil
  | ok p =>
    refine normalized_append.2 ⟨normalized_parallels b p.groups, ?_⟩
    obtain ⟨text, -, hformula⟩ := Block.pattern_formula h
    have formula := Formula.allNormalized_of_parseSingle hformula
    have body : AllNormalized p.body.references :=
      fun r hr => formula r ((p.formula.references_fill p.choices).subset hr)
    split
    · exact normalized_map body _
    · exact normalized_nil

/-- By induction on the cells, up to the first that is not readable. -/
theorem normalized_cells (sheet : String) (cells : List RegionCell) :
    Normalized (RegionCell.readsOfList sheet cells) := by
  induction cells with
  | nil => exact normalized_nil
  | cons cell cells ih =>
    refine normalized_append.2 ⟨?_, ?_⟩
    · unfold RegionCell.reads
      split
      · exact normalized_readsOfText _ _
      · exact normalized_nil
    · split
      · exact ih
      · exact normalized_nil

end Reads

/-- All ranges that a region reads lie on the sheet, in a comprehension as cell by cell. -/
theorem Region.normalized_reads (g : Region) : g.reads.Normalized := by
  unfold Region.reads
  split
  next only _ =>
    have := Reads.normalized_cells g.sheet [only]
    exact (Reads.normalized_append.1 this).1
  next =>
    unfold Region.readsOfBlock
    split
    · exact Reads.normalized_cells _ _
    · refine Reads.normalized_append.2 ⟨Reads.normalized_block _, ?_⟩
      split
      · exact Reads.normalized_nil
      · exact Reads.normalized_cells _ _

theorem Content.normalized_reads (content : Content) : content.reads.Normalized := by
  cases content with
  | region g => exact g.normalized_reads
  | formula text sheet => exact Reads.normalized_readsOfText sheet text
  | nothing => exact Reads.normalized_nil

end SheetCompiler
