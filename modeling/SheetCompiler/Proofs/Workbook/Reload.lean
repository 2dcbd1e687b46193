import Mathlib.Data.List.Induction
import Mathlib.Data.List.Perm.Basic
import SheetCompiler.Proofs.Workbook.Loading

/-!
# Dumps are read back

The dump of a workbook, read again, gives the workbook with its sheets and cells in the order of
their keys: nothing is lost, since no two cells have one address text (`Workbook.perm_dumpCells`),
and what a workbook satisfies is what reading asks for, in any order of the sheets
(`Workbook.WellFormed.reload`). A dump that was read is written in its normal form
(`Workbook.normalized_toDump`).
-/

namespace SheetCompiler

namespace Workbook

variable {w : Workbook} {s : Sheet}

/-! ### Writing -/

theorem dumpCells_eq (s : Sheet) : dumpCells s =
    (s.cells.map Sheet.entry).foldl (fun m entry => Json.insertKey entry.1 entry.2 m) [] := by
  rw [dumpCells, List.foldl_map]
  rfl

theorem sorted_dumpCells (s : Sheet) : (dumpCells s).Pairwise (·.1 < ·.1) :=
  dumpCells_eq s ▸ Json.sorted_foldl_insertKey .nil

/-- No cell is lost, since no two have one address. -/
theorem perm_dumpCells (placed : s.Placed) : (dumpCells s).Perm (s.cells.map Sheet.entry) := by
  rw [dumpCells_eq]
  refine Json.perm_foldl_insertKey ?_
  have keys : (s.cells.map Sheet.entry).map (·.1) = (s.cells.map (·.1)).map Sheet.key := by
    simp [Sheet.entry]
  rw [List.nil_append, keys]
  refine placed.distinct.map_on fun p hp q hq same => ?_
  have read := Address.parse_text (placed.inSheet p hp)
  have read' := Address.parse_text (placed.inSheet q hq)
  rw [Sheet.key, Sheet.key] at same
  rw [same, read'] at read
  have same := Except.ok.inj read
  exact Prod.ext (congrArg Address.row same).symm (congrArg Address.col same).symm

/-- A sheet as it is written. -/
def dumpSheet (s : Sheet) : String × List (String × Cell) := (s.name, dumpCells s)

theorem map_fst_dumpSheet (sheets : List Sheet) :
    (sheets.map dumpSheet).map (·.1) = sheets.map (·.name) := by
  simp [dumpSheet]

theorem toDump_sheets_eq (w : Workbook) : w.toDump.sheets =
    (w.sheets.map dumpSheet).foldl (fun m entry => Json.insertKey entry.1 entry.2 m) [] := by
  rw [toDump, List.foldl_map]
  rfl

theorem sorted_toDump (w : Workbook) : w.toDump.sheets.Pairwise (·.1 < ·.1) :=
  toDump_sheets_eq w ▸ Json.sorted_foldl_insertKey .nil

/-- No sheet is lost, since no two have one name. -/
theorem perm_toDump (valid : SheetName.AreValid w.sheetNames) :
    w.toDump.sheets.Perm (w.sheets.map dumpSheet) := by
  rw [toDump_sheets_eq]
  refine Json.perm_foldl_insertKey ?_
  rw [List.nil_append, map_fst_dumpSheet]
  exact valid.2.imp fun apart same => apart (congrArg _ same)

/-! ### Reading what was written -/

/-- The second sheet is what the dump of the first one is read as. -/
structure Reread (s s' : Sheet) : Prop where
  read : Sheet.Read (s.name, dumpCells s) s'
  cells : s'.cells.Perm s.cells
  dump : dumpCells s' = dumpCells s

/-- What is in another order after a map could have been so before. -/
theorem exists_perm_of_perm_map {α β : Type} {f : α → β} {xs : List β} {ys : List α}
    (perm : xs.Perm (ys.map f)) : ∃ zs : List α, xs = zs.map f ∧ zs.Perm ys := by
  have related : Relation.Comp (fun xs zs => xs = List.map f zs) List.Perm xs ys := by
    rw [List.eq_map_comp_perm]
    exact perm
  exact related

/-- The step: the dump of a sheet is read as a sheet with the same cells. -/
theorem exists_reread (placed : s.Placed) : ∃ s', Reread s s' := by
  obtain ⟨cells, written, perm⟩ := exists_perm_of_perm_map (perm_dumpCells placed)
  have keys := perm.map (·.1)
  have placed' : Sheet.Placed { name := s.name, cells } :=
    ⟨keys.nodup_iff.2 placed.distinct, fun p mem => placed.inSheet p (keys.mem_iff.1 mem)⟩
  refine ⟨{ name := s.name, cells }, ?_, perm, ?_⟩
  · rw [written]
    exact @Sheet.putCells_entries s.name [] cells placed'
  · refine Json.eq_of_perm (sorted_dumpCells _) (sorted_dumpCells _) ?_
    rw [written]
    exact perm_dumpCells placed'

/-- The run over all sheets. -/
theorem exists_rereads {sheets : List Sheet} (placed : ∀ s ∈ sheets, s.Placed) :
    ∃ sheets', List.Forall₂ Reread sheets sheets' := by
  induction sheets with
  | nil => exact ⟨[], .nil⟩
  | cons s sheets ih =>
    obtain ⟨first, others⟩ := List.forall_mem_cons.1 placed
    obtain ⟨s', reread⟩ := exists_reread first
    obtain ⟨sheets', rereads⟩ := ih others
    exact ⟨s' :: sheets', .cons reread rereads⟩

/-- Sheets that are read again have the same dump. -/
theorem map_dumpSheet_of_rereads {sheets sheets' : List Sheet}
    (rereads : List.Forall₂ Reread sheets sheets') : sheets'.map dumpSheet = sheets.map dumpSheet := by
  induction rereads with
  | nil => rfl
  | cons reread _ ih =>
    rw [List.map_cons, List.map_cons, ih, dumpSheet, dumpSheet, reread.dump,
      Sheet.name_putCells reread.read]

/-- The dump of a workbook is read as a workbook with the same cells and the same dump. -/
theorem WellFormed.reload (wf : WellFormed w) :
    ∃ w', ofDump w.toDump = .ok w' ∧ w'.sheetNames = w.toDump.sheets.map (·.1) ∧
      w'.cell? = w.cell? ∧ w'.toDump = w.toDump := by
  obtain ⟨sheets, written, perm⟩ := exists_perm_of_perm_map (perm_toDump wf.valid)
  obtain ⟨sheets', rereads⟩ := exists_rereads fun s mem => wf.placed s (perm.mem_iff.1 mem)
  have reads : List.Forall₂ Sheet.Read w.toDump.sheets sheets' := by
    rw [written, List.forall₂_map_left_iff]
    exact rereads.imp fun _ _ reread => reread.read
  have valid : SheetName.AreValid (w.toDump.sheets.map (·.1)) := by
    rw [written, map_fst_dumpSheet]
    exact wf.valid.perm (perm.map _)
  have read : ofDump w.toDump = .ok { sheets := sheets', names := w.names } :=
    ofDump_eq_ok_iff.2 ⟨reads, valid, wf.apart, rfl⟩
  have wf' := wellFormed_of_ofDump read
  refine ⟨_, read, sheetNames_of_reads reads, ?_, ?_⟩
  · funext sheet a
    ext c
    rw [wf'.cell?_eq_some_iff, wf.cell?_eq_some_iff]
    constructor
    · rintro ⟨s', mem, same, held⟩
      obtain ⟨s, mem, reread⟩ := Fallible.exists_mem_left rereads mem
      exact ⟨s, perm.mem_iff.1 mem, Sheet.name_putCells reread.read ▸ same,
        reread.cells.mem_iff.1 held⟩
    · rintro ⟨s, mem, same, held⟩
      obtain ⟨s', mem', reread⟩ := Fallible.exists_mem_right rereads (perm.mem_iff.2 mem)
      exact ⟨s', mem', (Sheet.name_putCells reread.read).symm ▸ same, reread.cells.mem_iff.2 held⟩
  · have written' : sheets'.map dumpSheet = w.toDump.sheets :=
      (map_dumpSheet_of_rereads rereads).trans written.symm
    have same : toDump { sheets := sheets', names := w.names } = w.toDump := by
      have sheets_eq := Json.eq_of_perm (sorted_toDump _) (sorted_toDump w)
        (written' ▸ perm_toDump wf'.valid)
      exact congrArg (Dump.mk · w.names) sheets_eq
    exact same

end Workbook

/-! ### What a dump becomes -/

/-- An address without marks is written in capital letters and digits. -/
theorem Address.plain_text (row col : Nat) :
    ∀ c ∈ (Address.text { row, col }).toList, c.isUpper ∨ c.isDigit := by
  intro c mem
  have chars : c ∈ columnLetters col ++ Nat.toDigits 10 (row + 1) := by
    rw [text, String.toList_ofList] at mem
    simpa [toChars, mark] using mem
  rcases List.mem_append.1 chars with letter | digit
  · exact .inl (isUpper_of_mem_columnLetters letter)
  · exact .inr (Nat.isDigit_of_mem_toDigits (by decide) (by decide) digit)

namespace Dump

/-- The entries are in the order of their keys, as they are in every dump that is read from text
(`sorted_of_parse`). -/
structure Sorted (d : Dump) : Prop where
  sheets : d.sheets.Pairwise (·.1 < ·.1)
  cells : ∀ sheet ∈ d.sheets, sheet.2.Pairwise (·.1 < ·.1)

/-- What is read from text is in the order of its keys. -/
theorem sorted_of_parse {text : String} {d : Dump} (parsed : parse text = some d) : d.Sorted := by
  simp only [parse, ofJson?, Option.bind_eq_bind, Option.bind_eq_some_iff] at parsed
  obtain ⟨j, -, fields, -, built⟩ := parsed
  split at built
  next sheets names =>
    simp only [Option.bind_eq_some_iff, Option.pure_def, Option.some.injEq] at built
    obtain ⟨sheets', read, names', -, rfl⟩ := built
    cases sheets with
    | none =>
      cases read
      exact ⟨.nil, by simp⟩
    | some j =>
      obtain ⟨sorted, reads⟩ := Json.of_map?_eq_some read
      refine ⟨sorted, fun sheet mem => ?_⟩
      obtain ⟨j', read⟩ := reads sheet mem
      exact (Json.of_map?_eq_some read).1
  next => cases built

/-- The key is read as the address of the cell. -/
def Names (key : String) (a : Address) : Prop := ∃ b, Address.parse key = .ok b ∧ b.sameCell a

/-- What counts for a cell: the last of its keys. -/
def Holds (cells : List (String × Cell)) (a : Address) (c : Cell) : Prop :=
  ∃ key, (key, c) ∈ cells ∧ Names key a ∧ ∀ other ∈ cells, Names other.1 a → other.1 ≤ key

/-- A sheet as it was given and as it is written: in order, with addresses in capital letters and
without marks, each with what counts for its cell. -/
structure Normalized (given written : String × List (String × Cell)) : Prop where
  name : written.1 = given.1
  sorted : written.2.Pairwise (·.1 < ·.1)
  plain : ∀ entry ∈ written.2, ∀ c ∈ entry.1.toList, c.isUpper ∨ c.isDigit
  holds : ∀ key c, (key, c) ∈ written.2 ↔
    ∃ row col, key = Address.text { row, col } ∧ Holds given.2 { row, col } c

variable {cells : List (String × Cell)} {last : String × Cell} {a : Address} {c : Cell}

/-- Where the last key names the cell, it counts. -/
theorem holds_concat_of_names (sorted : (cells ++ [last]).Pairwise (·.1 < ·.1))
    (here : Names last.1 a) : Holds (cells ++ [last]) a c ↔ last.2 = c := by
  have below : ∀ entry ∈ cells, entry.1 < last.1 := fun entry mem =>
    (List.pairwise_append.1 sorted).2.2 entry mem last (List.mem_singleton_self last)
  constructor
  · rintro ⟨key, mem, -, greatest⟩
    rcases List.mem_append.1 mem with mem | mem
    · have above := greatest last (by simp) here
      exact absurd (below _ mem) (String.not_lt.2 above)
    · rw [← List.mem_singleton.1 mem]
  · rintro rfl
    refine ⟨last.1, by simp, here, fun other mem _ => ?_⟩
    rcases List.mem_append.1 mem with mem | mem
    · exact String.not_lt.1 (String.lt_asymm (below other mem))
    · obtain rfl := List.mem_singleton.1 mem
      exact String.le_refl _

/-- Where it names another cell, it does not. -/
theorem holds_concat_of_not_names (elsewhere : ¬Names last.1 a) :
    Holds (cells ++ [last]) a c ↔ Holds cells a c := by
  constructor
  · rintro ⟨key, mem, here, greatest⟩
    rcases List.mem_append.1 mem with mem | mem
    · exact ⟨key, mem, here, fun other mem => greatest other (List.mem_append_left _ mem)⟩
    · exact absurd (List.mem_singleton.1 mem ▸ here) elsewhere
  · rintro ⟨key, mem, here, greatest⟩
    refine ⟨key, List.mem_append_left _ mem, here, fun other mem there => ?_⟩
    rcases List.mem_append.1 mem with mem | mem
    · exact greatest other mem there
    · exact absurd (List.mem_singleton.1 mem ▸ there) elsewhere

end Dump

/-- Cells that are read in order hold what counts for them. -/
theorem Sheet.cell?_putCells {name : String} {s : Sheet} {cells : List (String × Cell)}
    (sorted : cells.Pairwise (·.1 < ·.1)) (put : Sheet.putCells { name } cells = .ok s) (a : Address)
    (c : Cell) : s.cell? a = some c ↔ Dump.Holds cells a c := by
  induction cells using List.reverseRecOn generalizing s with
  | nil =>
    cases put
    simp [Sheet.cell?, Dump.Holds]
  | append_singleton cells last ih =>
    obtain ⟨t, b, before, parsed, rfl⟩ := Sheet.putCells_concat_eq_ok_iff.1 put
    have set : (t.setCell b last.2).cell? a =
        if (a.row, a.col) = (b.row, b.col) then some last.2 else t.cell? a := Assoc.find?_insert ..
    have names : Dump.Names last.1 a ↔ (a.row, a.col) = (b.row, b.col) := by
      constructor
      · rintro ⟨_, parsed', same⟩
        cases parsed.symm.trans parsed'
        simp only [Address.sameCell, Bool.and_eq_true, beq_iff_eq] at same
        rw [same.1, same.2]
      · intro here
        obtain ⟨row, col⟩ := Prod.mk.inj here
        exact ⟨b, parsed, by simp [Address.sameCell, row, col]⟩
    rw [set]
    split
    next here =>
      rw [Dump.holds_concat_of_names sorted (names.2 here), Option.some.injEq]
    next elsewhere =>
      rw [Dump.holds_concat_of_not_names (mt names.1 elsewhere)]
      exact ih (List.pairwise_append.1 sorted).1 before

namespace Workbook

/-- A sheet that was read is written in its normal form. -/
theorem normalized_dumpSheet {given : String × List (String × Cell)} {s : Sheet}
    (sorted : given.2.Pairwise (·.1 < ·.1)) (put : Sheet.Read given s) :
    Dump.Normalized given (dumpSheet s) := by
  have placed := (Sheet.placed_empty given.1).putCells put
  have mem_iff : ∀ key c, (key, c) ∈ dumpCells s ↔
      ∃ row col, key = Address.text { row, col } ∧ Dump.Holds given.2 { row, col } c := by
    intro key c
    rw [(perm_dumpCells placed).mem_iff, List.mem_map]
    constructor
    · rintro ⟨⟨⟨row, col⟩, c⟩, mem, ⟨⟩⟩
      have held := (Assoc.find?_eq_some_iff placed.distinct).2 mem
      exact ⟨row, col, rfl, (Sheet.cell?_putCells sorted put { row, col } c).1 held⟩
    · rintro ⟨row, col, rfl, holds⟩
      have held := (Sheet.cell?_putCells sorted put { row, col } c).2 holds
      exact ⟨((row, col), c), (Assoc.find?_eq_some_iff placed.distinct).1 held, rfl⟩
  refine ⟨Sheet.name_putCells put, sorted_dumpCells s, fun entry mem => ?_, mem_iff⟩
  obtain ⟨row, col, same, -⟩ := (mem_iff entry.1 entry.2).1 mem
  rw [same]
  exact Address.plain_text row col

/-- So are all sheets. -/
theorem normalized_of_reads {entries : List (String × List (String × Cell))} {sheets : List Sheet}
    (sorted : ∀ entry ∈ entries, entry.2.Pairwise (·.1 < ·.1))
    (reads : List.Forall₂ Sheet.Read entries sheets) :
    List.Forall₂ (fun given s => Dump.Normalized given (dumpSheet s)) entries sheets := by
  induction reads with
  | nil => exact .nil
  | cons put _ ih =>
    obtain ⟨first, others⟩ := List.forall_mem_cons.1 sorted
    exact .cons (normalized_dumpSheet first put) (ih others)

/-- A dump in order keeps its sheets, and their cells are put in order anew. -/
theorem normalized_toDump {w : Workbook} {d : Dump} (sorted : d.Sorted) (read : ofDump d = .ok w) :
    List.Forall₂ Dump.Normalized d.sheets w.toDump.sheets := by
  obtain ⟨reads, -⟩ := ofDump_eq_ok_iff.1 read
  have sorted' : (w.sheets.map dumpSheet).Pairwise (·.1 < ·.1) := by
    have keys : (w.sheets.map (·.name)).Pairwise (· < ·) := by
      rw [sheetNames_of_reads reads, List.pairwise_map]
      exact sorted.sheets
    rw [List.pairwise_map] at keys ⊢
    exact keys
  have written : w.toDump.sheets = w.sheets.map dumpSheet :=
    Json.eq_of_perm (sorted_toDump w) sorted' (perm_toDump (wellFormed_of_ofDump read).valid)
  rw [written, List.forall₂_map_right_iff]
  exact normalized_of_reads sorted.cells reads

/-- Dumping a workbook and reading the dump loses nothing, and a second dump is the same. Sheets and
cells come in the order of their keys. Of a dump in order that was read, each address is written in
its plain form, with what the last of its keys had. -/
theorem dump_reloads {w : Workbook} (built : Built w) :
    (∃ w', ofDump w.toDump = .ok w' ∧
      w'.sheetNames.Perm w.sheetNames ∧ w'.sheetNames.Pairwise (· < ·) ∧ w'.names = w.names ∧
      (∀ sheet a, w'.formula? sheet a = w.formula? sheet a ∧ w'.value sheet a = w.value sheet a ∧
        w'.format sheet a = w.format sheet a) ∧
      w'.toDump = w.toDump) ∧
    ∀ d : Dump, d.Sorted → ofDump d = .ok w →
      w.toDump.names = d.names ∧ List.Forall₂ Dump.Normalized d.sheets w.toDump.sheets := by
  have wf := built.wellFormed
  obtain ⟨w', read, names, cells, same⟩ := wf.reload
  refine ⟨⟨w', read, ?_, ?_, ?_, fun sheet a => ⟨?_, ?_, ?_⟩, same⟩, fun d sorted loaded => ⟨?_, ?_⟩⟩
  · rw [names, sheetNames, ← map_fst_dumpSheet]
    exact (perm_toDump wf.valid).map _
  · rw [names]
    exact List.pairwise_map.2 (sorted_toDump w)
  · exact congrArg Dump.names same
  · rw [formula?, formula?, cells]
  · rw [value, value, cells]
  · rw [format, format, cells]
  · exact (ofDump_eq_ok_iff.1 loaded).2.2.2
  · exact normalized_toDump sorted loaded

/-- Three spellings of one address, and a formula with a value behind it. -/
def spellings : Dump where
  sheets := [
    ("Data", [("$A$1", { value := .string "old" }), ("A1", { format := some "0.00" }),
      ("a1", { value := .string "new" }), ("xfd1048576", { value := .boolean true })]),
    ("calc", [("b$2", { formula := some "=Data!A1", value := .string "new" })])]
  names := [{ name := "Total", refersTo := "=calc!$B$2" },
    { name := "total", refersTo := "=Data!$A$1", localSheet := some "Data" }]

def spellingsRead : Workbook where
  sheets := [
    { name := "Data", cells := [((0, 0), { value := .string "new" }),
      ((1048575, 16383), { value := .boolean true })] },
    { name := "calc", cells := [((1, 1), { formula := some "=Data!A1", value := .string "new" })] }]
  names := spellings.names

/-- Of three spellings the last one counts, and the value behind the formula is kept. -/
theorem dump_reloads_spellings :
    spellings.Sorted ∧ ofDump spellings = .ok spellingsRead ∧
    (∃ w', ofDump spellingsRead.toDump = .ok w' ∧
      w'.value "DATA" { row := 0, col := 0 } = .string "new" ∧ w'.toDump = spellingsRead.toDump) ∧
    List.Forall₂ Dump.Normalized spellings.sheets spellingsRead.toDump.sheets := by
  have sorted : spellings.Sorted := ⟨by decide +kernel, by decide +kernel⟩
  have read : ofDump spellings = .ok spellingsRead := rfl
  obtain ⟨⟨w', reload, -, -, -, same, dump⟩, normalized⟩ := dump_reloads (.loaded read)
  exact ⟨sorted, read, ⟨w', reload, (same _ _).2.1, dump⟩, (normalized _ sorted read).2⟩

end Workbook

end SheetCompiler
