import SheetCompiler.Proofs.Fallible
import SheetCompiler.Proofs.Grid.RoundTrip
import SheetCompiler.Proofs.Json.Entries
import SheetCompiler.Proofs.Workbook.CellMap
import SheetCompiler.Workbook.Dump

/-!
# Reading dumps

Reading is characterised once and for all dumps (`Workbook.ofDump_eq_ok_iff`): each sheet is read by
itself, and the names go together. What every workbook satisfies (`Workbook.Built.wellFormed`),
whether it was read or edited, is what reading asks for.
-/

namespace SheetCompiler

/-! ### One sheet -/

namespace Sheet

variable {s s' : Sheet} {a : Address} {c : Cell} {cell : String × Cell} {cells : List (String × Cell)}

/-- The cells are on the sheet, each once. -/
structure Placed (s : Sheet) : Prop where
  distinct : (s.cells.map (·.1)).Nodup
  inSheet : ∀ p ∈ s.cells.map (·.1), Address.InSheet { row := p.1, col := p.2 }

theorem placed_empty (name : String) : Placed { name } := ⟨.nil, by simp⟩

/-- The step: setting a cell of the sheet keeps it among them once. -/
theorem Placed.setCell (placed : s.Placed) (here : a.InSheet) (c : Cell) : (s.setCell a c).Placed := by
  have keys : (s.setCell a c).cells.map (·.1) = _ := Assoc.keys_insert
  constructor
  · rw [keys]
    split
    next known => exact placed.distinct
    next new => exact List.concat_eq_append ▸ placed.distinct.concat new
  · intro p mem
    rw [keys] at mem
    split at mem
    · exact placed.inSheet p mem
    · rcases List.mem_append.1 mem with mem | mem
      · exact placed.inSheet p mem
      · rw [List.mem_singleton.1 mem]
        exact here

/-- Puts cells by address on a sheet, one by one. -/
def putCells (s : Sheet) (cells : List (String × Cell)) : Except AddressError Sheet :=
  cells.foldlM (fun s cell => (Address.parse cell.1).map fun a => s.setCell a cell.2) s

/-- The entry of a sheet is read as the sheet. -/
def Read (entry : String × List (String × Cell)) (s : Sheet) : Prop :=
  putCells { name := entry.1 } entry.2 = .ok s

theorem putCells_cons_eq_ok_iff : s.putCells (cell :: cells) = .ok s' ↔
    ∃ a, Address.parse cell.1 = .ok a ∧ (s.setCell a cell.2).putCells cells = .ok s' := by
  simp only [putCells, List.foldlM_cons, Fallible.bind_eq_ok_iff, Fallible.map_eq_ok_iff]
  constructor
  · rintro ⟨_, ⟨a, parsed, rfl⟩, put⟩
    exact ⟨a, parsed, put⟩
  · rintro ⟨a, parsed, put⟩
    exact ⟨_, ⟨a, parsed, rfl⟩, put⟩

/-- Cells are put one by one, the last one at the end. -/
theorem putCells_concat_eq_ok_iff : s.putCells (cells ++ [cell]) = .ok s' ↔
    ∃ t a, s.putCells cells = .ok t ∧ Address.parse cell.1 = .ok a ∧ t.setCell a cell.2 = s' := by
  simp only [putCells, List.foldlM_append, List.foldlM_cons, List.foldlM_nil,
    Fallible.bind_eq_ok_iff, Fallible.map_eq_ok_iff]
  constructor
  · rintro ⟨t, put, _, ⟨a, parsed, rfl⟩, ⟨⟩⟩
    exact ⟨t, a, put, parsed, rfl⟩
  · rintro ⟨t, a, put, parsed, rfl⟩
    exact ⟨t, put, _, ⟨a, parsed, rfl⟩, rfl⟩

/-- Putting cells keeps the name of the sheet. -/
theorem name_putCells (put : s.putCells cells = .ok s') : s'.name = s.name := by
  induction cells generalizing s with
  | nil => cases put; rfl
  | cons cell cells ih =>
    obtain ⟨a, -, put⟩ := putCells_cons_eq_ok_iff.1 put
    have kept := ih put
    exact kept

/-- The run over all cells. -/
theorem Placed.putCells (placed : s.Placed) (put : s.putCells cells = .ok s') : s'.Placed := by
  induction cells generalizing s with
  | nil => cases put; exact placed
  | cons cell cells ih =>
    obtain ⟨a, parsed, put⟩ := putCells_cons_eq_ok_iff.1 put
    exact ih (placed.setCell (Address.inSheet_of_ofChars parsed) cell.2) put

/-- The address of a cell, without marks. -/
def key (p : Nat × Nat) : String := Address.text { row := p.1, col := p.2 }

def entry (cell : (Nat × Nat) × Cell) : String × Cell := (key cell.1, cell.2)

/-- Cells that are read in some order are kept in it. -/
theorem putCells_entries {name : String} {before cells : List ((Nat × Nat) × Cell)}
    (placed : Placed { name, cells := before ++ cells }) :
    putCells { name, cells := before } (cells.map entry) = .ok { name, cells := before ++ cells } := by
  induction cells generalizing before with
  | nil => simp [putCells, pure, Except.pure]
  | cons cell cells ih =>
    have new : cell.1 ∉ before.map (·.1) := by
      have distinct := placed.distinct
      rw [List.map_append, List.map_cons, List.nodup_middle, List.nodup_cons] at distinct
      exact fun mem => distinct.1 (List.mem_append_left _ mem)
    have parsed := Address.parse_text (placed.inSheet cell.1 (by simp))
    refine putCells_cons_eq_ok_iff.2 ⟨_, parsed, ?_⟩
    have set : setCell { name, cells := before } { row := cell.1.1, col := cell.1.2 } cell.2 =
        { name, cells := before ++ [cell] } := by
      rw [setCell, Assoc.insert_of_notMem new]
    have assoc : before ++ cell :: cells = (before ++ [cell]) ++ cells := by simp
    rw [assoc] at placed ⊢
    exact set ▸ ih placed

end Sheet

/-! ### Reading -/

theorem SheetName.AreValid.sublist {names others : List String} (valid : AreValid others)
    (some : names.Sublist others) : AreValid names :=
  ⟨fun name mem => valid.1 name (some.subset mem), valid.2.sublist some⟩

theorem SheetName.AreValid.perm {names others : List String} (valid : AreValid others)
    (perm : names.Perm others) : AreValid names :=
  ⟨fun name mem => valid.1 name (perm.mem_iff.1 mem), (perm.pairwise_iff Ne.symm).2 valid.2⟩

namespace Workbook

variable {w w' : Workbook} {s : Sheet}

theorem after_eq_ok_iff {α : Type} {steps : Editing α} :
    w.after steps = .ok w' ↔ ∃ a, w.perform steps = (.ok a, w') := by
  unfold after
  rcases w.perform steps with ⟨answer, next⟩
  cases answer <;> simp [Except.map]

/-- A sheet is added if its name goes with the others. -/
theorem addSheet_eq_ok_iff (valid : SheetName.AreValid w.sheetNames) {name : String} :
    w.addSheet name = .ok w' ↔
      SheetName.AreValid (w.sheetNames ++ [name]) ∧ { w with sheets := w.sheets ++ [{ name }] } = w' := by
  have accepted : w.checkSheetName name = .ok () ↔ SheetName.AreValid (w.sheetNames ++ [name]) := by
    rw [checkSheetName_eq_ok_iff, SheetName.areValid_concat, and_iff_right valid]
  rw [addSheet, after_eq_ok_iff, Edit.steps, ← accepted]
  cases checked : w.checkSheetName name with
  | ok => simp [perform_addSheet_of_ok checked]
  | error e => simp [perform_addSheet_of_error checked]

/-- A cell is put if its address can be read and its sheet is there. -/
theorem putCell_eq_ok_iff {sheet : String} {cell : String × Cell} :
    w.putCell sheet cell = .ok w' ↔ ∃ a, Address.parse cell.1 = .ok a ∧ w.hasSheet sheet ∧
      { w with sheets := modifySheets sheet (·.setCell a cell.2) w.sheets } = w' := by
  simp only [putCell, Fallible.bind_eq_ok_iff, Fallible.mapError_eq_ok_iff, after_eq_ok_iff]
  cases known : w.hasSheet sheet <;> simp [Editing.modifySheet, known]

/-- A change of the last sheet leaves the others, as none has its name. -/
theorem modifySheets_concat {sheets : List Sheet}
    (new : Text.asciiLower s.name ∉ (sheets.map (·.name)).map Text.asciiLower) (f : Sheet → Sheet) :
    modifySheets s.name f (sheets ++ [s]) = sheets ++ [f s] := by
  induction sheets with
  | nil => simp [modifySheets]
  | cons t sheets ih =>
    have other : ¬Text.sameLetters t.name s.name := by
      rw [Text.sameLetters_iff]
      exact fun same => new (by simp [same])
    rw [List.cons_append, modifySheets, if_neg other, ih (List.not_mem_of_not_mem_cons new),
      List.cons_append]

/-- The cells of the last sheet are put as if it were alone. By induction on the cells: its name
does not change. -/
theorem foldlM_putCell_eq_ok_iff
    (new : Text.asciiLower s.name ∉ w.sheetNames.map Text.asciiLower) {cells : List (String × Cell)} :
    cells.foldlM (fun w cell => w.putCell s.name cell) { w with sheets := w.sheets ++ [s] } = .ok w' ↔
      ∃ s', s.putCells cells = .ok s' ∧ { w with sheets := w.sheets ++ [s'] } = w' := by
  induction cells generalizing s with
  | nil => simp [Sheet.putCells, pure, Except.pure]
  | cons cell cells ih =>
    have known : hasSheet { w with sheets := w.sheets ++ [s] } s.name := by
      rw [hasSheet_iff]
      simp [sheetNames]
    have put : ∀ a, modifySheets s.name (·.setCell a cell.2) (w.sheets ++ [s]) =
        w.sheets ++ [s.setCell a cell.2] := fun a => modifySheets_concat new _
    have rest : ∀ a, _ := fun a => ih (s := s.setCell a cell.2) new
    simp only [List.foldlM_cons, Fallible.bind_eq_ok_iff, putCell_eq_ok_iff, known, true_and, put,
      Sheet.putCells_cons_eq_ok_iff]
    constructor
    · rintro ⟨_, ⟨a, parsed, rfl⟩, done⟩
      obtain ⟨s', read, rfl⟩ := (rest a).1 done
      exact ⟨s', ⟨a, parsed, read⟩, rfl⟩
    · rintro ⟨s', ⟨a, parsed, read⟩, rfl⟩
      exact ⟨_, ⟨a, parsed, rfl⟩, (rest a).2 ⟨s', read, rfl⟩⟩

/-- An entry is put as a sheet if its name goes with the others and its cells can be read. -/
theorem putSheet_eq_ok_iff (valid : SheetName.AreValid w.sheetNames)
    {entry : String × List (String × Cell)} :
    w.putSheet entry = .ok w' ↔ SheetName.AreValid (w.sheetNames ++ [entry.1]) ∧
      ∃ s, Sheet.Read entry s ∧ { w with sheets := w.sheets ++ [s] } = w' := by
  simp only [putSheet, Fallible.bind_eq_ok_iff, addSheet_eq_ok_iff valid]
  constructor
  · rintro ⟨_, ⟨accepted, rfl⟩, put⟩
    have new := (SheetName.areValid_concat.1 accepted).2.2
    exact ⟨accepted, (foldlM_putCell_eq_ok_iff (s := { name := entry.1 }) new).1 put⟩
  · rintro ⟨accepted, read⟩
    have new := (SheetName.areValid_concat.1 accepted).2.2
    exact ⟨_, ⟨accepted, rfl⟩, (foldlM_putCell_eq_ok_iff (s := { name := entry.1 }) new).2 read⟩

/-- Sheets are read one by one, and their names have to go with those before. -/
theorem foldlM_putSheet_eq_ok_iff (valid : SheetName.AreValid w.sheetNames)
    {entries : List (String × List (String × Cell))} :
    entries.foldlM putSheet w = .ok w' ↔
      ∃ sheets, List.Forall₂ Sheet.Read entries sheets ∧
        SheetName.AreValid (w.sheetNames ++ entries.map (·.1)) ∧
        { w with sheets := w.sheets ++ sheets } = w' := by
  induction entries generalizing w with
  | nil => simp [valid, pure, Except.pure]
  | cons entry entries ih =>
    simp only [List.foldlM_cons, Fallible.bind_eq_ok_iff, putSheet_eq_ok_iff valid]
    constructor
    · rintro ⟨_, ⟨accepted, s, read, rfl⟩, others⟩
      have name : s.name = entry.1 := Sheet.name_putCells read
      have names : sheetNames { w with sheets := w.sheets ++ [s] } = w.sheetNames ++ [entry.1] := by
        simp [sheetNames, name]
      obtain ⟨sheets, reads, accepted, rfl⟩ := (ih (names ▸ accepted)).1 others
      refine ⟨s :: sheets, .cons read reads, ?_, by simp⟩
      simpa [names] using accepted
    · rintro ⟨_, reads, accepted, rfl⟩
      cases reads with
      | @cons _ s _ sheets read reads =>
        have name : s.name = entry.1 := Sheet.name_putCells read
        have names : sheetNames { w with sheets := w.sheets ++ [s] } = w.sheetNames ++ [entry.1] := by
          simp [sheetNames, name]
        have first : SheetName.AreValid (w.sheetNames ++ [entry.1]) :=
          accepted.sublist (by simp)
        refine ⟨_, ⟨first, s, read, rfl⟩, (ih (names ▸ first)).2 ⟨sheets, reads, ?_, by simp⟩⟩
        simpa [names] using accepted

/-- No two names of one spelling have one scope. -/
def NamesApart (names : List DefinedName) : Prop := names.Pairwise fun a b => ¬clash a b

/-- One more name stays apart if it clashes with none. -/
theorem namesApart_concat {names : List DefinedName} (apart : NamesApart names) {d : DefinedName} :
    NamesApart (names ++ [d]) ↔ ¬∃ known ∈ names, clash known d := by
  unfold NamesApart at apart ⊢
  rw [List.pairwise_append, and_iff_right apart]
  simp

/-- The step: a name is defined if it stays apart from the others. -/
theorem defineName_eq_ok_iff (apart : NamesApart w.names) {d : DefinedName} :
    w.defineName d = .ok w' ↔
      NamesApart (w.names ++ [d]) ∧ { w with names := w.names ++ [d] } = w' := by
  rw [defineName, after_eq_ok_iff, Edit.steps, perform_defineName, namesApart_concat apart]
  split
  next taken => exact iff_of_false (by simp) fun free => free.1 taken
  next free =>
    rw [and_iff_right free]
    constructor
    · rintro ⟨_, ⟨⟩⟩
      rfl
    · rintro rfl
      exact ⟨(), rfl⟩

/-- The run over all names. -/
theorem foldlM_defineName_eq_ok_iff (apart : NamesApart w.names) {names : List DefinedName} :
    names.foldlM defineName w = .ok w' ↔
      NamesApart (w.names ++ names) ∧ { w with names := w.names ++ names } = w' := by
  induction names generalizing w with
  | nil => simp [apart, pure, Except.pure]
  | cons d names ih =>
    simp only [List.foldlM_cons, Fallible.bind_eq_ok_iff, defineName_eq_ok_iff apart]
    constructor
    · rintro ⟨_, ⟨first, rfl⟩, others⟩
      simpa using (ih first).1 others
    · rintro ⟨accepted, rfl⟩
      have first : NamesApart (w.names ++ [d]) := List.Pairwise.sublist (by simp) accepted
      exact ⟨_, ⟨first, rfl⟩, (ih first).2 (by simpa using accepted)⟩

/-- A dump is read if the addresses of each sheet are and the names go together, and nothing else
matters. -/
theorem ofDump_eq_ok_iff {d : Dump} : ofDump d = .ok w ↔
    List.Forall₂ Sheet.Read d.sheets w.sheets ∧
    SheetName.AreValid (d.sheets.map (·.1)) ∧ NamesApart d.names ∧ w.names = d.names := by
  have none : SheetName.AreValid (sheetNames {}) := ⟨by simp [sheetNames], .nil⟩
  simp only [ofDump, Fallible.bind_eq_ok_iff, foldlM_putSheet_eq_ok_iff none]
  constructor
  · rintro ⟨_, ⟨sheets, reads, valid, rfl⟩, named⟩
    obtain ⟨apart, rfl⟩ := (foldlM_defineName_eq_ok_iff (w := ⟨sheets, []⟩) .nil).1 named
    exact ⟨reads, valid, apart, rfl⟩
  · rintro ⟨reads, valid, apart, same⟩
    refine ⟨_, ⟨w.sheets, reads, valid, rfl⟩,
      (foldlM_defineName_eq_ok_iff (w := ⟨w.sheets, []⟩) .nil).2 ⟨apart, ?_⟩⟩
    exact same ▸ rfl

/-! ### What every workbook satisfies -/

/-- Sheets and names that go together, and cells in their places. -/
structure WellFormed (w : Workbook) : Prop where
  valid : SheetName.AreValid w.sheetNames
  placed : ∀ s ∈ w.sheets, s.Placed
  apart : NamesApart w.names

/-- A sheet is there after a change if it was, or if it was changed. -/
theorem mem_of_mem_modifySheets {name : String} {f : Sheet → Sheet} {sheets : List Sheet}
    (mem : s ∈ modifySheets name f sheets) : s ∈ sheets ∨ ∃ t ∈ sheets, f t = s := by
  induction sheets with
  | nil => cases mem
  | cons t sheets ih =>
    rw [modifySheets] at mem
    split at mem
    · rcases List.mem_cons.1 mem with rfl | mem
      · exact .inr ⟨t, List.mem_cons_self, rfl⟩
      · exact .inl (List.mem_cons_of_mem _ mem)
    · rcases List.mem_cons.1 mem with rfl | mem
      · exact .inl List.mem_cons_self
      · rcases ih mem with old | ⟨u, old, rfl⟩
        · exact .inl (List.mem_cons_of_mem _ old)
        · exact .inr ⟨u, List.mem_cons_of_mem _ old, rfl⟩

namespace WellFormed

/-- A change of one cell keeps it well-formed. -/
theorem changed (wf : WellFormed w) {a : Address} (here : a.InSheet) (sheet : String)
    (f : Cell → Cell) : WellFormed (w.changed sheet a f) := by
  refine ⟨by simpa using wf.valid, fun s mem => ?_, wf.apart⟩
  rcases mem_of_mem_modifySheets mem with old | ⟨t, old, rfl⟩
  · exact wf.placed s old
  · exact (wf.placed t old).setCell here _

/-- So does an edit of one cell, done or refused. -/
theorem modifyCell (wf : WellFormed w) (sheet address : String) (f : Cell → Cell) :
    WellFormed (w.perform (Editing.modifyCell sheet address f)).2 := by
  by_cases nowhere : ∀ a, Address.parse address = .ok a → w.hasSheet sheet = false
  · obtain ⟨e, failed⟩ := perform_modifyCell_of_error (f := f) nowhere
    rwa [failed]
  · simp only [not_forall, Bool.not_eq_false] at nowhere
    obtain ⟨a, parsed, known⟩ := nowhere
    have here := Address.inSheet_of_ofChars parsed
    rw [perform_modifyCell_of_ok parsed known]
    exact (wf.changed here sheet id).changed here sheet f

/-- The step: whatever the edit, done or refused, the workbook stays well-formed. -/
theorem edit (wf : WellFormed w) (e : Edit) : WellFormed (w.edit e).2 := by
  cases e with
  | addSheet name =>
    rw [Workbook.edit, Edit.steps]
    cases checked : w.checkSheetName name with
    | error e => rwa [perform_addSheet_of_error checked]
    | ok =>
      obtain ⟨valid, new⟩ := checkSheetName_eq_ok_iff.1 checked
      rw [perform_addSheet_of_ok checked]
      refine ⟨?_, fun s mem => ?_, wf.apart⟩
      · simpa [sheetNames] using SheetName.areValid_concat.2 ⟨wf.valid, valid, new⟩
      · rcases List.mem_append.1 mem with mem | mem
        · exact wf.placed s mem
        · rw [List.mem_singleton.1 mem]
          exact Sheet.placed_empty name
  | setValue sheet address value => exact wf.modifyCell sheet address _
  | setFormula sheet address formula =>
    rw [Workbook.edit]
    cases formed : isFormula formula with
    | true =>
      rw [perform_setFormula formed]
      exact wf.modifyCell sheet address _
    | false => rwa [perform_setFormula_of_noFormula formed]
  | setFormat sheet address format => exact wf.modifyCell sheet address _
  | defineName d =>
    rw [Workbook.edit, Edit.steps, perform_defineName]
    split
    next taken => exact wf
    next free =>
      exact ⟨wf.valid, wf.placed, (namesApart_concat wf.apart).2 free⟩

end WellFormed

/-- Sheets have the names of their entries. -/
theorem sheetNames_of_reads {entries : List (String × List (String × Cell))} {sheets : List Sheet}
    (reads : List.Forall₂ Sheet.Read entries sheets) : sheets.map (·.name) = entries.map (·.1) := by
  induction reads with
  | nil => rfl
  | cons read _ ih => rw [List.map_cons, List.map_cons, ih, Sheet.name_putCells read]

/-- What is read from a dump is well-formed. -/
theorem wellFormed_of_ofDump {d : Dump} (read : ofDump d = .ok w) : WellFormed w := by
  obtain ⟨reads, valid, apart, same⟩ := ofDump_eq_ok_iff.1 read
  refine ⟨?_, fun s mem => ?_, same ▸ apart⟩
  · rw [sheetNames, sheetNames_of_reads reads]
    exact valid
  · obtain ⟨entry, -, put⟩ := Fallible.exists_mem_left reads mem
    exact (Sheet.placed_empty entry.1).putCells put

/-- A workbook that can be had: empty, from a dump, or by an edit of another one. -/
inductive Built : Workbook → Prop
  | empty : Built {}
  | loaded {w : Workbook} {d : Dump} (read : ofDump d = .ok w) : Built w
  | edited {w : Workbook} (built : Built w) (e : Edit) : Built (w.edit e).2

/-- The run: by induction on how the workbook came about. -/
theorem Built.wellFormed (built : Built w) : WellFormed w := by
  induction built with
  | empty => exact ⟨⟨by simp [sheetNames], .nil⟩, by simp, .nil⟩
  | loaded read => exact wellFormed_of_ofDump read
  | edited _ e ih => exact ih.edit e

/-- A cell is found on the sheet of its name, wherever this stands among the sheets. -/
theorem WellFormed.cell?_eq_some_iff (wf : WellFormed w) {sheet : String} {a : Address} {c : Cell} :
    w.cell? sheet a = some c ↔ ∃ s ∈ w.sheets,
      Text.asciiLower s.name = Text.asciiLower sheet ∧ ((a.row, a.col), c) ∈ s.cells := by
  have distinct : (w.sheets.map fun s => Text.asciiLower s.name).Nodup := by
    have apart := wf.valid.2
    rw [sheetNames, List.pairwise_map] at apart
    exact List.pairwise_map.2 apart
  have found : ∀ s, w.sheet? sheet = some s ↔
      s ∈ w.sheets ∧ Text.asciiLower s.name = Text.asciiLower sheet := by
    intro s
    constructor
    · intro hit
      have same := List.find?_some hit
      exact ⟨List.mem_of_find?_eq_some hit, Text.sameLetters_iff.1 same⟩
    · rintro ⟨mem, same⟩
      obtain ⟨t, hit⟩ : ∃ t, w.sheet? sheet = some t := by
        exact Option.isSome_iff_exists.1 (List.find?_isSome.2 ⟨s, mem, Text.sameLetters_iff.2 same⟩)
      have alike := List.find?_some hit
      have alike := (Text.sameLetters_iff.1 alike).trans same.symm
      rw [hit, List.inj_on_of_nodup_map distinct (List.mem_of_find?_eq_some hit) mem alike]
  rw [cell?, Option.bind_eq_some_iff]
  constructor
  · rintro ⟨s, hit, held⟩
    obtain ⟨mem, same⟩ := (found s).1 hit
    exact ⟨s, mem, same, (Assoc.find?_eq_some_iff (wf.placed s mem).distinct).1 held⟩
  · rintro ⟨s, mem, same, held⟩
    exact ⟨s, (found s).2 ⟨mem, same⟩, (Assoc.find?_eq_some_iff (wf.placed s mem).distinct).2 held⟩

end Workbook

end SheetCompiler
