import SheetCompiler.Proofs.Grid.RoundTrip

/-!
# The cells of a range

A range stands for all cells of a rectangle, but only its two corners are kept, ordered, moved and
checked against the sheet. `Range.mem_rows_iff` says which cells are listed and
`Range.pairwise_rows` in which order; a rectangle stays on the sheet if its corners do, so moving the
corners moves every cell (`Range.isSome_offset_iff`, `Range.rows_offset`).
-/

namespace SheetCompiler

namespace Address

/-- One cell comes before another one: in a row above it, or to the left in its own row. -/
def Before (a b : Address) : Prop := a.row < b.row ∨ a.row = b.row ∧ a.col < b.col

/-- The cell that lies so many rows below and columns to the right is on the sheet. -/
def Stays (rows cols : Int) (a : Address) : Prop :=
  0 ≤ a.row + rows ∧ a.row + rows < 1048576 ∧ 0 ≤ a.col + cols ∧ a.col + cols < 16384

/-- The second cell lies so many rows below and columns to the right of the first, and is written
with the same marks. -/
def Moved (rows cols : Int) (a b : Address) : Prop :=
  (b.row : Int) = a.row + rows ∧ (b.col : Int) = a.col + cols ∧
    b.rowFixed = a.rowFixed ∧ b.colFixed = a.colFixed

/-- A cell can be moved as long as it stays on the sheet. -/
theorem isSome_offset_iff {a : Address} {rows cols : Int} :
    (a.offset rows cols).isSome ↔ a.Stays rows cols := by
  have sheet : (maxRows : Int) = 1048576 ∧ (maxCols : Int) = 16384 := ⟨rfl, rfl⟩
  unfold offset Stays
  dsimp only
  rw [sheet.1, sheet.2]
  split
  next inside => exact iff_of_true rfl ⟨inside.1, inside.2.2.1, inside.2.1, inside.2.2.2⟩
  next outside =>
    refine iff_of_false (by simp) fun stays => outside ?_
    exact ⟨stays.1, stays.2.2.1, stays.2.1, stays.2.2.2⟩

end Address

namespace Range

variable {r : Range}

/-- The corners are put in order. -/
theorem ordered_ofCorners (p q : Address) : (ofCorners p q).Ordered := by
  constructor
  · change min p.row q.row ≤ max p.row q.row
    omega
  · change min p.col q.col ≤ max p.col q.col
    omega

theorem length_rows (r : Range) : r.rows.length = r.rowCount := by
  simp [rows]

theorem length_of_mem_rows {row : List Address} (mem : row ∈ r.rows) : row.length = r.colCount := by
  obtain ⟨i, -, rfl⟩ := List.mem_map.1 mem
  simp

/-- As many cells are listed as the range has. -/
theorem length_flatten_rows (r : Range) : r.rows.flatten.length = r.cellCount := by
  have lengths : r.rows.map List.length = List.replicate r.rowCount r.colCount := by
    rw [List.eq_replicate_iff, List.length_map, length_rows]
    refine ⟨rfl, fun n mem => ?_⟩
    obtain ⟨row, listed, rfl⟩ := List.mem_map.1 mem
    exact length_of_mem_rows listed
  rw [List.length_flatten, lengths, List.sum_replicate_nat, cellCount]

/-- The cells between the corners are listed, without marks. -/
theorem mem_rows_iff (ordered : r.Ordered) {a : Address} :
    a ∈ r.rows.flatten ↔ (a.rowFixed = false ∧ a.colFixed = false) ∧
      (r.first.row ≤ a.row ∧ a.row ≤ r.last.row) ∧ r.first.col ≤ a.col ∧ a.col ≤ r.last.col := by
  obtain ⟨rowsOrdered, colsOrdered⟩ := ordered
  simp only [rows, List.mem_flatten, List.mem_map, List.mem_range, exists_exists_and_eq_and, rowCount,
    colCount]
  constructor
  · rintro ⟨i, hi, j, hj, rfl⟩
    refine ⟨⟨rfl, rfl⟩, ⟨?_, ?_⟩, ?_, ?_⟩ <;> dsimp only <;> omega
  · rintro ⟨⟨rowMark, colMark⟩, ⟨top, bottom⟩, left, right⟩
    refine ⟨a.row - r.first.row, by omega, a.col - r.first.col, by omega, ?_⟩
    rw [Nat.add_sub_cancel' top, Nat.add_sub_cancel' left]
    exact congrArg₂ (Address.mk a.row a.col) rowMark.symm colMark.symm

/-- The cells are listed row by row, and each row from the left. -/
theorem pairwise_rows (r : Range) : r.rows.flatten.Pairwise Address.Before := by
  rw [List.pairwise_flatten]
  constructor
  · intro row mem
    obtain ⟨i, -, rfl⟩ := List.mem_map.1 mem
    rw [List.pairwise_map]
    refine List.pairwise_lt_range.imp fun {j k} before => .inr ⟨rfl, ?_⟩
    dsimp only
    omega
  · rw [rows, List.pairwise_map]
    refine List.pairwise_lt_range.imp fun {i k} above a mem b mem' => .inl ?_
    obtain ⟨j, -, rfl⟩ := List.mem_map.1 mem
    obtain ⟨j', -, rfl⟩ := List.mem_map.1 mem'
    dsimp only
    omega

/-- Each cell is listed once, as it comes before those behind it. -/
theorem nodup_rows (r : Range) : r.rows.flatten.Nodup := by
  refine r.pairwise_rows.imp fun {a b} before same => ?_
  subst same
  rcases before with above | ⟨-, left⟩
  · exact Nat.lt_irrefl _ above
  · exact Nat.lt_irrefl _ left

/-- A rectangle stays on the sheet if all its cells do: the corners speak for the others. -/
theorem isSome_offset_iff (ordered : r.Ordered) {rows cols : Int} :
    (r.offset rows cols).isSome ↔ ∀ a ∈ r.rows.flatten, a.Stays rows cols := by
  have corners : (r.offset rows cols).isSome ↔
      r.first.Stays rows cols ∧ r.last.Stays rows cols := by
    rw [← Address.isSome_offset_iff, ← Address.isSome_offset_iff, offset]
    cases r.first.offset rows cols <;> cases r.last.offset rows cols <;> simp
  rw [corners]
  constructor
  · rintro ⟨first, last⟩ a mem
    obtain ⟨-, ⟨top, bottom⟩, left, right⟩ := (mem_rows_iff ordered).1 mem
    unfold Address.Stays at *
    omega
  · intro stays
    have first := stays r.first.unpinned ((mem_rows_iff ordered).2
      ⟨⟨rfl, rfl⟩, ⟨Nat.le_refl _, ordered.1⟩, Nat.le_refl _, ordered.2⟩)
    have last := stays r.last.unpinned ((mem_rows_iff ordered).2
      ⟨⟨rfl, rfl⟩, ⟨ordered.1, Nat.le_refl _⟩, ordered.2, Nat.le_refl _⟩)
    exact ⟨first, last⟩

/-- The cells of the moved rectangle are the moved cells, in their places. -/
theorem rows_offset (ordered : r.Ordered) {r' : Range} {rows cols : Int}
    (moved : r.offset rows cols = some r') :
    List.Forall₂ (List.Forall₂ (Address.Moved rows cols)) r.rows r'.rows := by
  obtain ⟨top, left, bottom, right⟩ := of_offset ordered moved
  obtain ⟨rowsOrdered, colsOrdered⟩ := ordered
  have height : r'.rowCount = r.rowCount := by
    unfold rowCount
    omega
  have width : r'.colCount = r.colCount := by
    unfold colCount
    omega
  unfold Range.rows
  rw [height, width, List.forall₂_map_left_iff, List.forall₂_map_right_iff, List.forall₂_same]
  intro i _
  rw [List.forall₂_map_left_iff, List.forall₂_map_right_iff, List.forall₂_same]
  intro j _
  refine ⟨?_, ?_, rfl, rfl⟩ <;> push_cast <;> omega

/-- The range between two cells lists the cells between them, row by row and each once, and is moved
cell by cell. -/
theorem cells_listed_and_moved {p q : Address} (hp : p.InSheet) (hq : q.InSheet) :
    (ofCorners p q).Ordered ∧
    ((ofCorners p q).rowCount ≤ 1048576 ∧ (ofCorners p q).colCount ≤ 16384) ∧
    (ofCorners p q).rows.length = (ofCorners p q).rowCount ∧
    (∀ row ∈ (ofCorners p q).rows, row.length = (ofCorners p q).colCount) ∧
    (ofCorners p q).rows.flatten.Pairwise Address.Before ∧
    (ofCorners p q).rows.flatten.Nodup ∧
    (∀ a, a ∈ (ofCorners p q).rows.flatten ↔ (a.rowFixed = false ∧ a.colFixed = false) ∧
      (min p.row q.row ≤ a.row ∧ a.row ≤ max p.row q.row) ∧
      min p.col q.col ≤ a.col ∧ a.col ≤ max p.col q.col) ∧
    (ofCorners p q).rows.flatten.length = (ofCorners p q).cellCount ∧
    ∀ rows cols : Int,
      (((ofCorners p q).offset rows cols).isSome ↔
        ∀ a ∈ (ofCorners p q).rows.flatten, a.Stays rows cols) ∧
      ∀ r, (ofCorners p q).offset rows cols = some r →
        List.Forall₂ (List.Forall₂ (Address.Moved rows cols)) (ofCorners p q).rows r.rows := by
  have ordered := ordered_ofCorners p q
  obtain ⟨rowP, colP⟩ : p.row < 1048576 ∧ p.col < 16384 := hp
  obtain ⟨rowQ, colQ⟩ : q.row < 1048576 ∧ q.col < 16384 := hq
  refine ⟨ordered, ⟨?_, ?_⟩, length_rows _, fun row mem => length_of_mem_rows mem, pairwise_rows _,
    nodup_rows _, fun a => mem_rows_iff ordered, length_flatten_rows _, fun rows cols =>
      ⟨isSome_offset_iff ordered, fun r moved => rows_offset ordered moved⟩⟩
  · change max p.row q.row - min p.row q.row + 1 ≤ 1048576
    omega
  · change max p.col q.col - min p.col q.col + 1 ≤ 16384
    omega

/-- Two cells in the last rows of the sheet, the lower right one first: their range can go up and to
the left, and not down. -/
theorem cells_listed_and_moved_edge :
    Address.InSheet ⟨1048575, 2, true, false⟩ ∧ Address.InSheet ⟨1048574, 1, false, false⟩ ∧
    ∃ r, ofCorners ⟨1048575, 2, true, false⟩ ⟨1048574, 1, false, false⟩ = r ∧
      ⟨1048575, 1, false, false⟩ ∈ r.rows.flatten ∧ r.offset 1 0 = none ∧
      ∃ r', r.offset (-1048574) (-1) = some r' ∧
        List.Forall₂ (List.Forall₂ (Address.Moved (-1048574) (-1))) r.rows r'.rows := by
  have lower : Address.InSheet ⟨1048575, 2, true, false⟩ := by decide
  have upper : Address.InSheet ⟨1048574, 1, false, false⟩ := by decide
  obtain ⟨-, -, -, -, -, -, listed, -, offsets⟩ := cells_listed_and_moved lower upper
  have corner := (listed ⟨1048575, 1, false, false⟩).2 (by decide)
  have back :
      (ofCorners ⟨1048575, 2, true, false⟩ ⟨1048574, 1, false, false⟩).offset (-1048574) (-1) =
        some ⟨⟨0, 0, true, false⟩, ⟨1, 1, false, false⟩⟩ := by decide
  refine ⟨lower, upper, _, rfl, corner, ?_, _, back, (offsets _ _).2 _ back⟩
  rw [← Option.not_isSome_iff_eq_none, (offsets 1 0).1]
  exact fun stays => absurd (stays _ corner).2.1 (by decide)

end Range

end SheetCompiler
