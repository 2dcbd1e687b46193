import SheetCompiler.Proofs.Block.Soundness
import SheetCompiler.Proofs.Formula.References

/-!
# Comprehensions that fail leave no trace

The ranges that a comprehension loops over are resolved one by one, and a range that leaves the
sheet would stop it when others are in the table already. This does not happen: moved by the offset
of a leaf, every cell of the block lands on the leaf of its own formula
(`Block.exists_offset_of_cell`), and what a formula refers to lies on the sheet. So do both corners
of the block, and a comprehension can only fail before it looks at the table
(`Block.failure_leaves_no_trace`).
-/

namespace SheetCompiler

/-! ### Leaves lie on the sheet -/

mutual

/-- A leaf is a reference of the formula with its sheet written out. -/
theorem Term.exists_reference_of_mem_leaves {sheet : String} {t : Term} {r : Reference}
    (h : r ∈ t.leaves sheet) : ∃ q ∈ t.references, r = q.plain sheet := by
  match t with
  | .number .. | .text _ | .name _ | .null => simp [Term.leaves] at h
  | .range q =>
    by_cases hq : q.isMultiCell
    · simp [Term.leaves, hq] at h
    · exact ⟨q, by simp [Term.references], by simpa [Term.leaves, hq] using h⟩
  | .call _ arguments =>
    have h : r ∈ Expression.leavesOfList sheet arguments := by simpa [Term.leaves] using h
    exact Expression.exists_reference_of_mem_leavesOfList h
  | .group items =>
    have h : r ∈ Expression.leavesOfList sheet items := by simpa [Term.leaves] using h
    exact Expression.exists_reference_of_mem_leavesOfList h
  | .negate operand =>
    exact Term.exists_reference_of_mem_leaves (t := operand) (by simpa [Term.leaves] using h)

/-- A leaf of an expression is one of its references with its sheet written out. -/
theorem Expression.exists_reference_of_mem_leaves {sheet : String} {e : Expression} {r : Reference}
    (h : r ∈ e.leaves sheet) : ∃ q ∈ e.references, r = q.plain sheet := by
  match e with
  | .last t =>
    exact Term.exists_reference_of_mem_leaves (t := t) (by simpa [Expression.leaves] using h)
  | .link t _ rest =>
    simp only [Expression.leaves, List.mem_append] at h
    rcases h with h | h
    · obtain ⟨q, hq, eq⟩ := Term.exists_reference_of_mem_leaves h
      exact ⟨q, List.mem_append_left _ hq, eq⟩
    · obtain ⟨q, hq, eq⟩ := Expression.exists_reference_of_mem_leaves h
      exact ⟨q, List.mem_append_right _ hq, eq⟩

theorem Expression.exists_reference_of_mem_leavesOfList {sheet : String} {es : List Expression}
    {r : Reference} (h : r ∈ Expression.leavesOfList sheet es) :
    ∃ q ∈ Expression.referencesOfList es, r = q.plain sheet := by
  match es with
  | [] => simp [Expression.leavesOfList] at h
  | e :: es =>
    simp only [Expression.leavesOfList, List.mem_append] at h
    rcases h with h | h
    · obtain ⟨q, hq, eq⟩ := Expression.exists_reference_of_mem_leaves h
      exact ⟨q, List.mem_append_left _ hq, eq⟩
    · obtain ⟨q, hq, eq⟩ := Expression.exists_reference_of_mem_leavesOfList h
      exact ⟨q, List.mem_append_right _ hq, eq⟩

end

/-- What a formula that was read refers to lies on the sheet. -/
theorem Formula.inSheet_of_mem_leaves {text sheet : String} {f : Formula}
    (hf : Formula.parseSingle text = .ok f) {r : Reference} (h : r ∈ f.leaves sheet) :
    r.range.first.InSheet := by
  obtain ⟨q, hq, rfl⟩ := Expression.exists_reference_of_mem_leavesOfList h
  exact (Formula.allNormalized_of_parseSingle hf q hq).inSheet.1

/-- A cell can be moved onto any cell of the sheet. -/
theorem Address.exists_offset {a b : Address} (inside : b.InSheet) {rows cols : Int}
    (row : (b.row : Int) = a.row + rows) (col : (b.col : Int) = a.col + cols) :
    ∃ c, a.offset rows cols = some c := by
  obtain ⟨rowInside, colInside⟩ := inside
  unfold offset
  dsimp only
  rw [if_pos (by omega)]
  exact ⟨_, rfl⟩

namespace Block

variable {b : Block} {p : Pattern} {o : Offset}

/-! ### Parallel ranges -/

/-- Moved by the offset of a leaf, a cell of the block stays on the sheet: the leaf of its own
formula is there. -/
theorem exists_offset_of_cell (h : b.pattern = .ok p) (ho : some o ∈ p.offsets) {i j : Nat}
    {text : String} (cell : b.cell? i j = some text) :
    ∃ a, Address.offset { row := b.origin.row + i, col := b.origin.col + j } o.rows o.cols =
      some a := by
  obtain ⟨f, hf, shape, length, leaves⟩ := pattern_cell h (mem_cells cell)
  obtain ⟨k, hk⟩ := List.mem_iff_getElem?.1 ho
  have hoffset : k < p.offsets.length := (List.getElem?_eq_some_iff.1 hk).1
  have hfirst : k < (p.formula.leaves b.sheet).length := length ▸ hoffset
  have hleaf : k < (f.leaves b.sheet).length := Formula.length_leaves_eq shape ▸ hfirst
  rcases leaves k _ _ (List.getElem?_eq_getElem hleaf) (List.getElem?_eq_getElem hfirst) with
    ⟨fixed, -⟩ | ⟨o', moves, between⟩
  · simp [hk] at fixed
  · obtain rfl : o = o' := Option.some.inj (Option.some.inj (hk.symm.trans moves))
    refine Address.exists_offset (Formula.inSheet_of_mem_leaves hf (List.getElem_mem hleaf)) ?_ ?_
    · rw [← between]
      dsimp only [Offset.between]
      omega
    · rw [← between]
      dsimp only [Offset.between]
      omega

/-- The range parallel to a block lies on the sheet, with both its corners. -/
theorem exists_offset_of_group (rect : b.Rectangular) (h : b.pattern = .ok p) (ho : o ∈ p.groups) :
    ∃ r, b.range.offset o.rows o.cols = some r ∧ r.InSheet := by
  have moves : some o ∈ p.offsets := by simpa [Pattern.groups] using ho
  obtain ⟨text, htext, -⟩ := pattern_formula h
  obtain ⟨width, positive, widths⟩ := rect
  obtain ⟨row, rest, hrows⟩ := List.exists_cons_of_ne_nil (l := b.rows) (by
    rintro empty
    simp [empty] at htext)
  have hwidth : row.length = width := widths row (by simp [hrows])
  have upperLeft : ∃ text, b.cell? 0 0 = some text :=
    ⟨row[0], by simp [cell?, hrows, hwidth, positive]⟩
  have lowerRight : ∃ text, b.cell? rest.length (row.length - 1) = some text := by
    have last : rest.length < b.rows.length := by simp [hrows]
    have full : b.rows[rest.length].length = width := widths _ (List.getElem_mem last)
    exact ⟨b.rows[rest.length][row.length - 1], by simp [cell?, last, hwidth]⟩
  obtain ⟨text, cell⟩ := upperLeft
  obtain ⟨first, hfirst⟩ := exists_offset_of_cell h moves cell
  obtain ⟨text, cell⟩ := lowerRight
  obtain ⟨last, hlast⟩ := exists_offset_of_cell h moves cell
  refine ⟨.ofCorners first last, ?_, ?_⟩
  · rw [range_eq hrows (hwidth ▸ positive)]
    simp only [Nat.add_zero] at hfirst
    simp [Range.offset, hfirst, hlast]
  · exact (Range.normalized_ofCorners (Address.of_offset hfirst).1
      (Address.of_offset hlast).1).inSheet

/-- Ranges that lie on the sheet are all written. -/
theorem iterables_isOk (symbols : Python.Symbols) (first : Address) {os : List Offset}
    (inside : ∀ o ∈ os, (b.parallel o).isSome) (t : AliasTable) :
    ∃ texts t', b.iterables symbols first os t = (.ok texts, t') := by
  induction os generalizing t with
  | nil => exact ⟨[], t, rfl⟩
  | cons o os ih =>
    obtain ⟨r, hr⟩ := Option.isSome_iff_exists.1 (inside o List.mem_cons_self)
    obtain ⟨texts, t', rest⟩ :=
      ih (fun o ho => inside o (List.mem_cons_of_mem _ ho)) (t.resolve r none).2
    exact ⟨symbols.qualify (t.resolve r none).1 :: texts, t',
      by simp [iterables, hr, rest, Except.map]⟩

/-- **A failed comprehension leaves no trace.** Once a rectangular block has a pattern, the ranges
parallel to it lie on the sheet, all of them are written, and there is a comprehension. So if there
is none, it is the pattern that failed, and the table is as it was. -/
theorem failure_leaves_no_trace {width : Nat} (rect : ∀ row ∈ b.rows, row.length = width)
    (symbols : Python.Symbols) (t : AliasTable) :
    (∀ p, b.pattern = .ok p →
      (∀ o ∈ p.groups, ∃ r, b.range.offset o.rows o.cols = some r ∧ r.InSheet) ∧
      ∃ texts t', b.iterables symbols p.first p.groups t = (.ok texts, t')) ∧
    ∀ e t', b.comprehension symbols t = (.error e, t') → t' = t ∧ b.pattern = .error e := by
  have written : ∀ p, b.pattern = .ok p →
      (∀ o ∈ p.groups, ∃ r, b.range.offset o.rows o.cols = some r ∧ r.InSheet) ∧
      ∃ texts t', b.iterables symbols p.first p.groups t = (.ok texts, t') := by
    intro p hp
    obtain ⟨text, htext, -⟩ := pattern_formula hp
    obtain ⟨row, hrow, hcell⟩ := List.mem_flatten.1 htext
    have positive : 0 < width := rect row hrow ▸ List.length_pos_of_mem hcell
    have inside : ∀ o ∈ p.groups, ∃ r, b.range.offset o.rows o.cols = some r ∧ r.InSheet :=
      fun o ho => exists_offset_of_group ⟨width, positive, rect⟩ hp ho
    refine ⟨inside, iterables_isOk symbols p.first (fun o ho => ?_) t⟩
    obtain ⟨r, hr, -⟩ := inside o ho
    simp [parallel, hr]
  refine ⟨written, fun e t' h => ?_⟩
  simp only [comprehension] at h
  split at h
  next failed =>
    cases h
    exact ⟨rfl, failed⟩
  next p hp =>
    obtain ⟨-, texts, t₁, ok⟩ := written p hp
    simp [ok] at h

/-- Differences whose first cells are beside the formulas, and whose second cells are not. -/
def skewed : Block where
  sheet := "Calc"
  origin := { row := 0, col := 2 }
  rows := [["=A1-B1"], ["=A2-B3"]]

/-- Formulas beside the last column of the sheet. -/
def edge : Block where
  sheet := "Calc"
  origin := { row := 0, col := 16382 }
  rows := [["=XFD1*2"], ["=XFD2*2"]]

/-- The skewed block fails at the cell whose second leaf does not move along, and the block at the
edge of the sheet does not fail. -/
theorem failure_leaves_no_trace_skewed :
    (∀ row ∈ skewed.rows, row.length = 1) ∧ (∀ row ∈ edge.rows, row.length = 1) ∧
    (∃ e t', skewed.comprehension {} { used := ["CalcA1A2"] } = (.error e, t') ∧
      e = .noOffset (.cell "Calc" { row := 1, col := 2 }) ∧ t' = { used := ["CalcA1A2"] }) ∧
    ∃ p, edge.pattern = .ok p ∧ p.groups = [⟨"Calc", 0, 1⟩] ∧
      ∃ r, edge.range.offset 0 1 = some r ∧ r.InSheet := by
  have skewedRows : ∀ row ∈ skewed.rows, row.length = 1 := by decide
  have edgeRows : ∀ row ∈ edge.rows, row.length = 1 := by decide
  have failed : (skewed.comprehension {} { used := ["CalcA1A2"] }).1 =
      .error (.noOffset (.cell "Calc" { row := 1, col := 2 })) := by decide +kernel
  have groups : edge.pattern.toOption.map (·.groups) = some [⟨"Calc", 0, 1⟩] := by decide +kernel
  obtain ⟨p, hp, groups⟩ := Option.map_eq_some_iff.1 groups
  have hp := Fallible.toOption_eq_some_iff.1 hp
  have pair : ∀ x : Except BlockError String × AliasTable, ∀ e, x.1 = .error e →
      x = (.error e, x.2) := fun x e h => by rw [← h]
  have run := pair _ _ failed
  refine ⟨skewedRows, edgeRows, ⟨_, _, run, rfl, ?_⟩, p, hp, groups, ?_⟩
  · exact ((failure_leaves_no_trace skewedRows {} _).2 _ _ run).1
  · exact ((failure_leaves_no_trace edgeRows {} {}).1 p hp).1 ⟨"Calc", 0, 1⟩ (by simp [groups])

end Block

end SheetCompiler
