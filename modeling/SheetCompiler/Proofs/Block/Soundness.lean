import SheetCompiler.Block.Comprehension
import SheetCompiler.Proofs.Alias.Resolution
import SheetCompiler.Proofs.Block.Filling
import SheetCompiler.Proofs.Fallible

/-!
# A comprehension computes what its cells compute

A comprehension is written from the first formula of a block. The others are only compared with
it: they have its shape, and each of their leaves either is the leaf of the first formula or keeps
a distance that all formulas share. `Block.pattern_cell` is that comparison for one cell. With the
values that the loop variables take at a cell, the body is then the formula of that cell
(`Block.comprehension_sound`).
-/

namespace SheetCompiler

open Fallible

/-- The cell in a row and a column of a range, both counted from its upper left corner. -/
def Range.cell? (r : Range) (i j : Nat) : Option Address := r.rows[i]?.bind (·[j]?)

theorem Range.cell?_eq_some {r : Range} {i j : Nat} (hi : i < r.rowCount) (hj : j < r.colCount) :
    r.cell? i j = some { row := r.first.row + i, col := r.first.col + j } := by
  simp [cell?, rows, hi, hj]

/-- A leaf position that is the same in all cells has no offset. -/
theorem Offset.eq_of_common_none {ps : List (Address × Reference)}
    (h : Offset.common ps = .ok none) {p q : Address × Reference} (hp : p ∈ ps) (hq : q ∈ ps) :
    p.2 = q.2 := by
  match ps with
  | [] => simp at hp
  | (cell, r) :: rest =>
    simp only [Offset.common] at h
    split at h
    next same =>
      have eq : ∀ p ∈ (cell, r) :: rest, p.2 = r := by simpa using same
      rw [eq p hp, eq q hq]
    next => split at h <;> simp at h

/-- A leaf position that moves has one offset in all cells. -/
theorem Offset.between_eq_of_common {ps : List (Address × Reference)} {o : Offset}
    (h : Offset.common ps = .ok (some o)) {p : Address × Reference} (hp : p ∈ ps) :
    Offset.between p.1 p.2 = o := by
  match ps with
  | [] => simp at hp
  | (cell, r) :: rest =>
    simp only [Offset.common] at h
    split at h
    next => simp at h
    next =>
      split at h
      next => simp at h
      next found =>
        simp only [Except.ok.injEq, Option.some.injEq] at h
        rcases List.mem_cons.1 hp with rfl | hp
        · exact h
        · rw [← h]
          simpa using List.find?_eq_none.1 found p hp

/-- The offset of a cell says where it lies. -/
theorem Offset.of_between_cell {a : Address} {sheet : String} {row col : Nat} {o : Offset}
    (h : Offset.between a (.cell sheet { row, col }) = o) :
    o.sheet = sheet ∧ (row : Int) = a.row + o.rows ∧ (col : Int) = a.col + o.cols := by
  subst h
  simp only [between, Reference.cell, Range.single, Option.getD_some, true_and]
  omega

namespace Block

/-- All rows have one length, and it is not zero. -/
def Rectangular (b : Block) : Prop := ∃ width, 0 < width ∧ ∀ row ∈ b.rows, row.length = width

/-- The formula in a row and a column of a block. -/
def cell? (b : Block) (i j : Nat) : Option String := b.rows[i]?.bind (·[j]?)

/-- The cell that a loop variable stands for when the loop is at a row and a column. -/
def loopValue (ranges : List Reference) (i j : Nat) (name : String) : Option Reference :=
  ranges.zipIdx.findSome? fun (r, g) =>
    if loopName g = name then (r.range.cell? i j).map fun a => ⟨r.sheet, .single a⟩ else none

/-! ### Loop variables -/

/-- Groups have variables of their own. -/
theorem loopName_inj {g h : Nat} : loopName g = loopName h ↔ g = h := by
  simp [loopName, ← String.toList_inj, toDigits_inj]

/-- A loop variable stands for the cell of its own range. -/
theorem loopValue_loopName {ranges : List Reference} {i j g : Nat} {r : Reference} {a : Address}
    (hr : ranges[g]? = some r) (ha : r.range.cell? i j = some a) :
    loopValue ranges i j (loopName g) = some ⟨r.sheet, .single a⟩ := by
  obtain ⟨x, hx⟩ : ∃ x, loopValue ranges i j (loopName g) = some x := by
    refine Option.isSome_iff_exists.1 (List.findSome?_isSome_iff.2 ⟨(r, g), ?_, ?_⟩)
    · exact List.mem_zipIdx_iff_getElem?.2 hr
    · simp [ha]
  obtain ⟨⟨q, k⟩, hq, hk⟩ := List.exists_of_findSome?_eq_some hx
  have hq := List.mem_zipIdx_iff_getElem?.1 hq
  by_cases hkg : k = g
  · subst hkg
    obtain rfl : q = r := Option.some.inj (hq.symm.trans hr)
    rw [hx, ← hk]
    simp [ha]
  · simp [loopName_inj, hkg] at hk

/-- Other names stand for no cell. -/
theorem loopValue_eq_none {ranges : List Reference} {i j : Nat} {name : String}
    (h : ∀ g, loopName g ≠ name) : loopValue ranges i j name = none := by
  simp [loopValue, List.findSome?_eq_none_iff, h]

/-! ### What a pattern says about each cell -/

/-- A formula in a row and a column is listed with its address. -/
theorem mem_cells {b : Block} {i j : Nat} {text : String} (h : b.cell? i j = some text) :
    ({ row := b.origin.row + i, col := b.origin.col + j }, text) ∈ b.cells := by
  obtain ⟨row, hrow, htext⟩ := Option.bind_eq_some_iff.1 h
  have inRow : (b.rows.mapIdx b.rowCells)[i]? = some (b.rowCells i row) := by simp [hrow]
  have inCell : (b.rowCells i row)[j]? =
      some ({ row := b.origin.row + i, col := b.origin.col + j }, text) := by
    simp [rowCells, htext]
  exact List.mem_flatten.2 ⟨_, List.mem_of_getElem? inRow, List.mem_of_getElem? inCell⟩

theorem text_mem_of_mem_cells {b : Block} {a : Address} {text : String}
    (h : (a, text) ∈ b.cells) : text ∈ b.rows.flatten := by
  obtain ⟨cells, hrow, hcell⟩ := List.mem_flatten.1 h
  obtain ⟨i, hi, rfl⟩ := List.mem_mapIdx.1 hrow
  obtain ⟨j, hj, eq⟩ := List.mem_mapIdx.1 hcell
  cases eq
  exact List.mem_flatten.2 ⟨b.rows[i], List.getElem_mem hi, List.getElem_mem hj⟩

/-- The steps that lead to a pattern. -/
theorem pattern_eq_ok {b : Block} {p : Pattern} (h : b.pattern = .ok p) :
    ∃ read leaves, b.readCells b.cells = .ok read ∧ (p.first, p.formula) ∈ read ∧
      b.leavesOf (p.formula.shape b.sheet) read = .ok leaves ∧
      b.offsetsOf (p.formula.leaves b.sheet).length leaves = .ok p.offsets := by
  obtain ⟨-, -, h⟩ := bind_eq_ok_iff.1 h
  obtain ⟨read, hread, h⟩ := bind_eq_ok_iff.1 h
  match read with
  | [] => simp [throw, throwThe, MonadExceptOf.throw] at h
  | (first, f) :: rest =>
    obtain ⟨leaves, hleaves, h⟩ := bind_eq_ok_iff.1 h
    obtain ⟨offsets, hoffsets, h⟩ := bind_eq_ok_iff.1 h
    dsimp only at h
    split at h
    next => simp [throw, throwThe, MonadExceptOf.throw] at h
    next =>
      cases h
      exact ⟨_, leaves, hread, List.mem_cons_self, hleaves, hoffsets⟩

/-- Every formula that is compared has the shape of the first one. -/
theorem leavesOf_mem {b : Block} {shape : Formula} {read : List (Address × Formula)}
    {leaves : List (Address × List Reference)} (h : b.leavesOf shape read = .ok leaves)
    {a : Address} {f : Formula} (hf : (a, f) ∈ read) :
    f.shape b.sheet = shape ∧ (a, f.leaves b.sheet) ∈ leaves := by
  obtain ⟨y, hy, hstep⟩ := exists_mem_right (mapM_eq_ok_iff.1 h) hf
  dsimp only at hstep
  split at hstep
  next same =>
    cases hstep
    exact ⟨same, hy⟩
  next => simp at hstep

theorem mem_column {i : Nat} {cells : List (Address × List Reference)} {a : Address}
    {leaves : List Reference} {r : Reference} (h : (a, leaves) ∈ cells) (hr : leaves[i]? = some r) :
    (a, r) ∈ column i cells :=
  List.mem_filterMap.2 ⟨(a, leaves), h, by simp [hr]⟩

/-- How a cell of a block compares with the first one: the shapes are equal, and leaf by leaf the
cell has the leaf of the first one, or a leaf at the offset of that position. -/
theorem pattern_cell {b : Block} {p : Pattern} (h : b.pattern = .ok p) {a : Address}
    {text : String} (hcell : (a, text) ∈ b.cells) :
    ∃ f, Formula.parseSingle text = .ok f ∧ f.shape b.sheet = p.formula.shape b.sheet ∧
      p.offsets.length = (p.formula.leaves b.sheet).length ∧
      ∀ (k : Nat) (leaf first : Reference), (f.leaves b.sheet)[k]? = some leaf →
        (p.formula.leaves b.sheet)[k]? = some first →
        (p.offsets[k]? = some none ∧ leaf = first) ∨
        ∃ o, p.offsets[k]? = some (some o) ∧ Offset.between a leaf = o := by
  obtain ⟨read, leaves, hread, hfirst, hleaves, hoffsets⟩ := pattern_eq_ok h
  obtain ⟨⟨a', f⟩, hmem, hf⟩ := exists_mem_right (mapM_eq_ok_iff.1 hread) hcell
  dsimp only at hf
  split at hf
  next g hg =>
    cases hf
    have steps := mapM_eq_ok_iff.1 hoffsets
    refine ⟨f, hg, (leavesOf_mem hleaves hmem).1, ?_, fun k leaf first hleaf hfirstLeaf => ?_⟩
    · simpa using steps.length_eq.symm
    · have hk : (List.range (p.formula.leaves b.sheet).length)[k]? = some k := by
        obtain ⟨hk, -⟩ := List.getElem?_eq_some_iff.1 hfirstLeaf
        simp [hk]
      obtain ⟨o, ho, hcommon⟩ := exists_getElem? steps hk
      have hcommon := mapError_eq_ok_iff.1 hcommon
      have here := mem_column (leavesOf_mem hleaves hmem).2 hleaf
      have there := mem_column (leavesOf_mem hleaves hfirst).2 hfirstLeaf
      match o with
      | none => exact .inl ⟨ho, Offset.eq_of_common_none hcommon here there⟩
      | some o => exact .inr ⟨o, ho, Offset.between_eq_of_common hcommon here⟩
  next => simp at hf

/-- The body of a comprehension is written from the formula of one of its cells. -/
theorem pattern_formula {b : Block} {p : Pattern} (h : b.pattern = .ok p) :
    ∃ text ∈ b.rows.flatten, Formula.parseSingle text = .ok p.formula := by
  obtain ⟨read, leaves, hread, hfirst, -⟩ := pattern_eq_ok h
  obtain ⟨⟨a, text⟩, hcell, hstep⟩ := exists_mem_left (mapM_eq_ok_iff.1 hread) hfirst
  dsimp only at hstep
  split at hstep
  next f hf =>
    cases hstep
    exact ⟨text, text_mem_of_mem_cells hcell, hf⟩
  next => simp at hstep

/-! ### The ranges that the loop runs over -/

/-- The cells of a block, if its rows are not empty. -/
theorem range_eq {b : Block} {row : List String} {rest : List (List String)}
    (rows : b.rows = row :: rest) (positive : 0 < row.length) :
    b.range =
      { first := { row := b.origin.row, col := b.origin.col }
        last := { row := b.origin.row + rest.length, col := b.origin.col + (row.length - 1) } } := by
  have height : max (rest.length + 1) 1 = rest.length + 1 := Nat.max_eq_left (by omega)
  have width : max row.length 1 = row.length := Nat.max_eq_left positive
  simp only [range, rows, List.length_cons, List.head?_cons, Option.map_some, Option.getD_some,
    height, width, ← Nat.add_assoc, Nat.add_sub_cancel, Nat.add_sub_assoc positive]
  exact Range.ofCorners_of_ordered (r := ⟨_, _⟩) ⟨Nat.le_add_right _ _, Nat.le_add_right _ _⟩

/-- A parallel range has the size of the block and lies at its offset from it. -/
theorem parallel_eq_some {b : Block} {o : Offset} {r : Reference} (rect : b.Rectangular)
    (rows : b.rows ≠ []) (h : b.parallel o = some r) :
    r.sheet = some o.sheet ∧
    r.range.rowCount = b.rows.length ∧ (∀ row ∈ b.rows, r.range.colCount = row.length) ∧
    (r.range.first.row : Int) = b.origin.row + o.rows ∧
    (r.range.first.col : Int) = b.origin.col + o.cols := by
  obtain ⟨width, positive, widths⟩ := rect
  obtain ⟨row, rest, hrows⟩ := List.exists_cons_of_ne_nil rows
  have hwidth : row.length = width := widths row (by simp [hrows])
  obtain ⟨range, moved, rfl⟩ := Option.map_eq_some_iff.1 h
  rw [range_eq hrows (hwidth ▸ positive), hwidth] at moved
  obtain ⟨top, left, bottom, right⟩ :=
    Range.of_offset ⟨Nat.le_add_right _ _, Nat.le_add_right _ _⟩ moved
  dsimp only at top left bottom right
  refine ⟨rfl, ?_, fun row hrow => ?_, top, left⟩
  · rw [hrows, List.length_cons]
    dsimp only [Range.rowCount]
    omega
  · rw [widths row hrow]
    dsimp only [Range.colCount]
    omega

/-- Writing the ranges resolves them, in order. -/
theorem iterables_eq_ok {b : Block} {symbols : Python.Symbols} {first : Address}
    {os : List Offset} {t t' : AliasTable} {texts : List String}
    (h : b.iterables symbols first os t = (.ok texts, t')) :
    ∃ ranges, List.Forall₂ (fun o r => b.parallel o = some r) os ranges ∧
      texts = (AliasTable.resolveAll (ranges.map (·, none)) t).1.map symbols.qualify ∧
      t' = (AliasTable.resolveAll (ranges.map (·, none)) t).2 := by
  induction os generalizing t texts with
  | nil =>
    cases h
    exact ⟨[], .nil, rfl, rfl⟩
  | cons o os ih =>
    simp only [iterables] at h
    split at h
    next => simp at h
    next r hr =>
      obtain ⟨htexts, ht⟩ := Prod.mk.inj h
      obtain ⟨rest, hrest, rfl⟩ := map_eq_ok_iff.1 htexts
      obtain ⟨ranges, hranges, rfl, ht'⟩ := ih (Prod.ext hrest ht)
      exact ⟨r :: ranges, .cons hr hranges, by simp [AliasTable.resolveAll],
        by simpa [AliasTable.resolveAll] using ht'⟩

/-! ### The body at a cell -/

section

variable {b : Block} {p : Pattern} {ranges : List Reference} {i j : Nat} {text : String}

/-- At a cell of the block, the loop variable of an offset stands for the cell at that offset. -/
theorem loopValue_group (rect : b.Rectangular)
    (parallel : List.Forall₂ (fun o r => b.parallel o = some r) p.groups ranges)
    (cell : b.cell? i j = some text) {o : Offset} (ho : some o ∈ p.offsets) :
    ∃ row col : Nat, (row : Int) = b.origin.row + i + o.rows ∧
      (col : Int) = b.origin.col + j + o.cols ∧
      loopValue ranges i j (loopName (p.groups.idxOf o)) = some (.cell o.sheet { row, col }) := by
  have mem : o ∈ p.groups := List.mem_eraseDups.2 (List.mem_filterMap.2 ⟨some o, ho, rfl⟩)
  obtain ⟨r, hr, hparallel⟩ := exists_getElem? parallel
    (List.getElem?_eq_some_iff.2 ⟨List.idxOf_lt_length_of_mem mem, List.getElem_idxOf _⟩)
  obtain ⟨cells, hrow, htext⟩ := Option.bind_eq_some_iff.1 cell
  obtain ⟨hi, rfl⟩ := List.getElem?_eq_some_iff.1 hrow
  obtain ⟨hj, -⟩ := List.getElem?_eq_some_iff.1 htext
  obtain ⟨sheet, rowCount, colCount, row, col⟩ :=
    parallel_eq_some rect (List.ne_nil_of_length_pos (by omega)) hparallel
  have value := loopValue_loopName hr (Range.cell?_eq_some (rowCount ▸ hi)
    (colCount _ (List.getElem_mem hi) ▸ hj))
  refine ⟨r.range.first.row + i, r.range.first.col + j, by omega, by omega, ?_⟩
  rw [value, sheet]
  rfl

/-- The values that the loop variables take at a cell are the leaves of its formula. -/
theorem filled_choices (h : b.pattern = .ok p) (rect : b.Rectangular)
    (parallel : List.Forall₂ (fun o r => b.parallel o = some r) p.groups ranges)
    (cell : b.cell? i j = some text) {f : Formula} (hf : Formula.parseSingle text = .ok f) :
    List.zipWith (Reference.filled (loopValue ranges i j) b.sheet) p.choices
      (p.formula.leaves b.sheet) = f.leaves b.sheet := by
  obtain ⟨g, hg, shape, length, leaves⟩ := pattern_cell h (mem_cells cell)
  cases hf.symm.trans hg
  have count := Formula.length_leaves_eq shape
  apply List.ext_getElem
  · simp [Pattern.choices, length, count]
  · intro k hk hk'
    have hfirst : k < (p.formula.leaves b.sheet).length := by omega
    have hoffset : k < p.offsets.length := by omega
    have both := leaves k _ _ (List.getElem?_eq_getElem hk') (List.getElem?_eq_getElem hfirst)
    have hchoice : k < p.choices.length := by simpa [Pattern.choices] using hoffset
    rw [List.getElem_zipWith]
    -- A leaf is the same in all formulas, or it moves with the cell and a loop reads it.
    rcases both with ⟨fixed, same⟩ | ⟨o, moves, between⟩
    · have choice : p.choices[k] = none := by
        simp [Pattern.choices, (List.getElem?_eq_some_iff.1 fixed).2]
      rw [choice, same]
      rfl
    · have choice : p.choices[k] = some (loopName (p.groups.idxOf o)) := by
        simp [Pattern.choices, (List.getElem?_eq_some_iff.1 moves).2]
      obtain ⟨row, col, hrow, hcol, value⟩ :=
        loopValue_group rect parallel cell (List.mem_of_getElem? moves)
      obtain ⟨sheet, row', col', leaf⟩ :=
        Expression.eq_cell_of_mem_leavesOfList (List.getElem_mem hk')
      change (f.leaves b.sheet)[k] = _ at leaf
      rw [leaf] at between
      obtain ⟨rfl, hrow', hcol'⟩ := Offset.of_between_cell between
      dsimp only at hrow' hcol'
      obtain rfl : row = row' := by omega
      obtain rfl : col = col' := by omega
      rw [choice, leaf, Reference.filled, value]
      rfl

/-- The names filled in are loop variables, and have cells as values. -/
theorem fillsCells_choices (rect : b.Rectangular)
    (parallel : List.Forall₂ (fun o r => b.parallel o = some r) p.groups ranges)
    (cell : b.cell? i j = some text) : FillsCells (loopValue ranges i j) p.choices := by
  intro n hn
  obtain ⟨offset, hoffset, hname⟩ := List.mem_map.1 hn
  obtain ⟨o, rfl, rfl⟩ := Option.map_eq_some_iff.1 hname
  obtain ⟨row, col, -, -, value⟩ := loopValue_group rect parallel cell hoffset
  exact ⟨_, value, by simp [Reference.isMultiCell, Reference.cell, Range.isSingle, Range.single,
    Address.sameCell]⟩

end

/-- **Soundness of comprehensions.** A comprehension loops over ranges of the size of the block.
At each cell, its body with the cells that the loop variables stand for is the formula of that
cell, up to marks and written out sheets. -/
theorem comprehension_sound {b : Block} {symbols : Python.Symbols} {t t' : AliasTable}
    {python : String} (rect : b.Rectangular)
    (apart : ∀ text ∈ b.rows.flatten, ∀ f, Formula.parseSingle text = .ok f →
      ∀ g, loopName g ∉ f.names)
    (h : b.comprehension symbols t = (.ok python, t')) :
    ∃ p ranges, b.pattern = .ok p ∧
      List.Forall₂ (fun o r => b.parallel o = some r) p.groups ranges ∧
      (let resolved := AliasTable.resolveAll (ranges.map (·, none)) t
       let locals := (List.range ranges.length).map loopName
       let body := Python.Scope.formula { symbols, sheet := some b.sheet, locals } p.body resolved.2
       python = loop body.1 (resolved.1.map symbols.qualify) ∧ t' = body.2) ∧
      (∀ r ∈ ranges, r.sheet.isSome ∧ r.range.rowCount = b.rows.length ∧
        ∀ row ∈ b.rows, r.range.colCount = row.length) ∧
      ∀ i j text, b.cell? i j = some text → ∃ f, Formula.parseSingle text = .ok f ∧
        (p.body.substitute (loopValue ranges i j)).plain b.sheet = f.plain b.sheet := by
  simp only [comprehension] at h
  split at h
  next => simp at h
  next p hp =>
    split at h
    next => simp at h
    next texts t₁ hiter =>
      obtain ⟨ranges, parallel, rfl, rfl⟩ := iterables_eq_ok hiter
      obtain ⟨first, hfirst, hformula⟩ := pattern_formula hp
      simp only [Prod.mk.injEq, Except.ok.injEq] at h
      obtain ⟨rfl, rfl⟩ := h
      refine ⟨p, ranges, hp, parallel, ?_, fun r hr => ?_, fun i j text cell => ?_⟩
      · rw [← parallel.length_eq]
        exact ⟨rfl, rfl⟩
      · obtain ⟨o, -, ho⟩ := exists_mem_left parallel hr
        have rows : b.rows ≠ [] := by
          rintro empty
          simp [empty] at hfirst
        obtain ⟨sheet, rowCount, colCount, -⟩ := parallel_eq_some rect rows ho
        exact ⟨by simp [sheet], rowCount, colCount⟩
      · obtain ⟨f, hf, shape, length, -⟩ := pattern_cell hp (mem_cells cell)
        -- No name is taken for a loop variable, so only the filled places get values.
        refine ⟨f, hf, Formula.plain_substitute_fill _ _ (fun n hn => ?_)
          (fillsCells_choices rect parallel cell) ?_ shape.symm
          (filled_choices hp rect parallel cell hf)⟩
        · refine loopValue_eq_none fun g hg => ?_
          exact apart first hfirst p.formula hformula g (hg ▸ hn)
        · simp [Pattern.choices, length]

/-- A column of differences, each from the cell beside it on another sheet. -/
def differences : Block where
  sheet := "Calc"
  origin := { row := 0, col := 2 }
  rows := [["=Data!A1-$F$1"], ["=Data!A2-$F$1"]]

/-- One leaf moves along another sheet, the other one stays. -/
theorem comprehension_sound_differences :
    differences.Rectangular ∧
    (differences.comprehension {} {}).1 = .ok
      "tuple(tuple(_v0-self.CalcF1 for _v0 in _r0) for _r0 in self.DataA1A2)" ∧
    ∃ p ranges f, differences.pattern = .ok p ∧
      List.Forall₂ (fun o r => differences.parallel o = some r) p.groups ranges ∧
      Formula.parseSingle "=Data!A2-$F$1" = .ok f ∧
      (p.body.substitute (loopValue ranges 1 0)).plain "Calc" = f.plain "Calc" := by
  have rect : differences.Rectangular := ⟨1, by decide, by decide⟩
  have run : (differences.comprehension {} {}).1 = .ok
      "tuple(tuple(_v0-self.CalcF1 for _v0 in _r0) for _r0 in self.DataA1A2)" :=
    toOption_eq_some_iff.1 (by decide +kernel)
  have names : ∀ text ∈ differences.rows.flatten,
      (Formula.parseSingle text).toOption.map (·.names) = some [] := by decide +kernel
  have pair : ∀ x : Except BlockError String × AliasTable, ∀ python, x.1 = .ok python →
      x = (.ok python, x.2) := fun x python h => by rw [← h]
  obtain ⟨p, ranges, hp, parallel, -, -, cells⟩ := comprehension_sound rect
    (fun text htext f hf g => by
      have nameless : f.names = [] := by simpa [hf, Except.toOption] using names text htext
      simp [nameless])
    (pair _ _ run)
  obtain ⟨f, hf, eq⟩ := cells 1 0 "=Data!A2-$F$1" rfl
  exact ⟨rect, run, p, ranges, f, hp, parallel, hf, eq⟩

end Block

end SheetCompiler
