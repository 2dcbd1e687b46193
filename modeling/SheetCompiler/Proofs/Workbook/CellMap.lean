import SheetCompiler.Proofs.Fallible
import SheetCompiler.Workbook.Basic

/-!
# A workbook is a map of cells

Whatever edits a workbook has been through, it looks like a plain map from places to cells
(`CellMap`), where a place is a sheet in lower case, a row and a column. `Workbook.perform` is
opened once, step by step, into what each edit does (`Workbook.perform_modifyCell_of_ok` and its
like). From these follow that an edit that fails changes nothing, and that one edit keeps the
likeness (`Refines.edit`); `Workbook.edits_refine_cellMap` says so of all edits.
-/

namespace SheetCompiler

/-- A name that a sheet can have: neither empty nor longer than 31 characters, and without the
characters that are used around sheet names. -/
def SheetName.IsValid (name : String) : Prop :=
  name ≠ "" ∧ name.length ≤ 31 ∧ ∀ c ∈ name.toList, c ∉ [':', '\\', '/', '?', '*', '[', ']']

instance (name : String) : Decidable (SheetName.IsValid name) :=
  decidable_of_iff (name ≠ "" ∧ name.length ≤ 31 ∧
      name.toList.all (fun c => decide (c ∉ [':', '\\', '/', '?', '*', '[', ']'])) = true)
    (by simp only [SheetName.IsValid, List.all_eq_true, decide_eq_true_eq])

/-- Names that sheets of one workbook can have: valid ones, and no two of the same letters. -/
def SheetName.AreValid (names : List String) : Prop :=
  (∀ name ∈ names, SheetName.IsValid name) ∧
    names.Pairwise fun a b => Text.asciiLower a ≠ Text.asciiLower b

/-- One more name goes with the others if it is valid and new. -/
theorem SheetName.areValid_concat {names : List String} {name : String} :
    AreValid (names ++ [name]) ↔ AreValid names ∧ IsValid name ∧
      Text.asciiLower name ∉ names.map Text.asciiLower := by
  have apart : (∀ a ∈ names, Text.asciiLower a ≠ Text.asciiLower name) ↔
      Text.asciiLower name ∉ names.map Text.asciiLower := by simp
  simp only [AreValid, List.forall_mem_append, List.forall_mem_singleton, List.pairwise_append,
    List.pairwise_singleton, true_and, apart]
  exact and_and_and_comm

/-- The names of the sheets, the defined names, and a cell at every place. -/
structure CellMap where
  sheets : List String := []
  /-- By the sheet in lower case, the row and the column. -/
  cells : String × Nat × Nat → Cell := fun _ => {}
  names : List DefinedName := []

namespace CellMap

/-- The place of an address on a sheet. -/
def place (sheet : String) (a : Address) : String × Nat × Nat :=
  (Text.asciiLower sheet, a.row, a.col)

def hasSheet (m : CellMap) (sheet : String) : Prop :=
  Text.asciiLower sheet ∈ m.sheets.map Text.asciiLower

instance (m : CellMap) (sheet : String) : Decidable (m.hasSheet sheet) :=
  inferInstanceAs (Decidable (_ ∈ _))

/-- The place that a sheet and an address name, if they name one. -/
def place? (m : CellMap) (sheet address : String) : Option (String × Nat × Nat) :=
  (Address.parse address).toOption.bind fun a => if m.hasSheet sheet then some (place sheet a) else none

/-- Changes one cell. -/
def modify (m : CellMap) (f : Cell → Cell) (here : String × Nat × Nat) : CellMap :=
  { m with cells := fun there => if there = here then f (m.cells here) else m.cells there }

@[simp] theorem modify_id (m : CellMap) (here : String × Nat × Nat) : m.modify id here = m := by
  have same : (fun there => if there = here then id (m.cells here) else m.cells there) = m.cells := by
    funext there
    by_cases h : there = here <;> simp [h]
  rw [modify, same]

/-- The map after an edit, if the edit is accepted. -/
def edit? (m : CellMap) : Edit → Option CellMap
  | .addSheet name =>
    if SheetName.IsValid name ∧ ¬m.hasSheet name then some { m with sheets := m.sheets ++ [name] }
    else none
  | .setValue sheet address value =>
    (m.place? sheet address).map (m.modify fun c => { c with formula := none, value })
  | .setFormula sheet address formula =>
    if Workbook.isFormula formula then
      (m.place? sheet address).map (m.modify fun c => { c with formula := some formula, value := .empty })
    else none
  | .setFormat sheet address format =>
    (m.place? sheet address).map (m.modify fun c => { c with format := some format })
  | .defineName d =>
    if ∃ known ∈ m.names, Workbook.clash known d then none else some { m with names := m.names ++ [d] }

end CellMap

namespace Sheet

/-- A change of one cell is seen in this cell only. -/
theorem cell?_modifyCell (s : Sheet) (a : Address) (f : Cell → Cell) (b : Address) :
    (s.modifyCell a f).cell? b =
      if (b.row, b.col) = (a.row, a.col) then some (f ((s.cell? a).getD {})) else s.cell? b :=
  Assoc.find?_insert _ _ _ _

end Sheet

namespace Workbook

/-! ### What steps do -/

section

variable {α β : Type} (w : Workbook)

@[simp] theorem perform_throw (e : WorkbookError) :
    w.perform (throw e : Editing α) = (.error e, w) := rfl

@[simp] theorem perform_modify (f : Workbook → Workbook) : w.perform (modify f) = (.ok (), f w) := rfl

@[simp] theorem perform_get_bind (k : Workbook → Editing β) :
    w.perform (get >>= k) = w.perform (k w) := rfl

@[simp] theorem perform_modify_bind (f : Workbook → Workbook) (k : Unit → Editing β) :
    w.perform (modify f >>= k) = (f w).perform (k ()) := rfl

@[simp] theorem perform_throw_bind (e : WorkbookError) (k : α → Editing β) :
    w.perform (throw e >>= k) = (.error e, w) := rfl

@[simp] theorem perform_ok_bind (a : α) (k : α → Editing β) :
    w.perform (liftM (Except.ok a : Except WorkbookError α) >>= k) = w.perform (k a) := rfl

@[simp] theorem perform_error_bind (e : WorkbookError) (k : α → Editing β) :
    w.perform (liftM (Except.error e : Except WorkbookError α) >>= k) = (.error e, w) := rfl

end

variable {w : Workbook} {sheet address : String} {a : Address} {f : Cell → Cell}

/-- A sheet is added behind the others. -/
theorem perform_addSheet_of_ok {name : String} (free : w.checkSheetName name = .ok ()) :
    w.perform (Editing.addSheet name) = (.ok (), { w with sheets := w.sheets ++ [{ name }] }) := by
  simp [Editing.addSheet, free]

theorem perform_addSheet_of_error {name : String} {e : WorkbookError}
    (refused : w.checkSheetName name = .error e) :
    w.perform (Editing.addSheet name) = (.error e, w) := by
  simp [Editing.addSheet, refused]

/-- Changes a cell of a sheet, which is there. -/
def changed (w : Workbook) (sheet : String) (a : Address) (f : Cell → Cell) : Workbook :=
  { w with sheets := modifySheets sheet (·.modifyCell a f) w.sheets }

/-- A cell is created where there is none, and then changed. -/
theorem perform_modifyCell_of_ok (parsed : Address.parse address = .ok a) (known : w.hasSheet sheet) :
    w.perform (Editing.modifyCell sheet address f) =
      (.ok (), (w.changed sheet a id).changed sheet a f) := by
  simp [Editing.modifyCell, Editing.entry, Editing.modifySheet, parsed, known, changed]

/-- A cell is created only when the address and the sheet are checked, so without a cell there is
no change. -/
theorem perform_modifyCell_of_error
    (nowhere : ∀ a, Address.parse address = .ok a → w.hasSheet sheet = false) :
    ∃ e, w.perform (Editing.modifyCell sheet address f) = (.error e, w) := by
  cases parsed : Address.parse address with
  | error e =>
    exact ⟨.address e, by simp [Editing.modifyCell, Editing.entry, parsed]⟩
  | ok a =>
    refine ⟨.sheetNotFound sheet, ?_⟩
    simp [Editing.modifyCell, Editing.entry, Editing.modifySheet, parsed, nowhere a parsed]

/-- A name is added behind the others, unless one like it is there. -/
theorem perform_defineName (d : DefinedName) : w.perform (Editing.defineName d) =
    if ∃ known ∈ w.names, clash known d then (.error (.nameTaken d.name), w)
    else (.ok (), { w with names := w.names ++ [d] }) := by
  by_cases taken : ∃ known ∈ w.names, clash known d <;> simp [Editing.defineName, taken]

theorem perform_setFormula_of_noFormula {formula : String} (refused : isFormula formula = false) :
    w.perform (Edit.setFormula sheet address formula).steps =
      (.error (.noFormula sheet address formula), w) := by
  simp [Edit.steps, refused]

theorem perform_setFormula {formula : String} (accepted : isFormula formula = true) :
    w.perform (Edit.setFormula sheet address formula).steps = w.perform (Editing.modifyCell sheet
      address fun c => { c with formula := some formula, value := .empty }) := by
  simp [Edit.steps, accepted]

/-! ### What is read afterwards -/

theorem hasSheet_iff : w.hasSheet sheet = true ↔
    Text.asciiLower sheet ∈ w.sheetNames.map Text.asciiLower := by
  simp [hasSheet, sheet?, sheetNames, Text.sameLetters_iff]

/-- A sheet is found by its letters. -/
theorem sheet?_congr {other : String} (same : Text.asciiLower other = Text.asciiLower sheet) :
    w.sheet? other = w.sheet? sheet := by
  have letters : ∀ name, Text.sameLetters name other = Text.sameLetters name sheet := by
    intro name
    rw [Bool.eq_iff_iff, Text.sameLetters_iff, Text.sameLetters_iff, same]
  simp only [sheet?, letters]

/-- A name is accepted for a new sheet exactly if it is valid and no sheet has its letters. -/
theorem checkSheetName_eq_ok_iff {name : String} : w.checkSheetName name = .ok () ↔
    SheetName.IsValid name ∧ Text.asciiLower name ∉ w.sheetNames.map Text.asciiLower := by
  rw [← hasSheet_iff]
  unfold checkSheetName SheetName.IsValid maxSheetName
  split
  next empty => simp [String.toList_eq_nil_iff.1 (List.isEmpty_iff.1 empty)]
  next nonempty =>
    have nonempty : name ≠ "" := by simpa using nonempty
    split
    next long =>
      have long : ¬name.length ≤ 31 := by
        rw [String.length_toList] at long
        omega
      simp [long]
    next short =>
      have short : name.length ≤ 31 := by
        rw [String.length_toList] at short
        omega
      split
      next c bad =>
        have forbidden := List.find?_some bad
        have free : ¬∀ c ∈ name.toList, c ∉ [':', '\\', '/', '?', '*', '[', ']'] :=
          fun free => free c (List.mem_of_find?_eq_some bad) (by simpa [isForbidden] using forbidden)
        simp only [reduceCtorEq, free, and_false, false_and]
      next good =>
        have free : ∀ c ∈ name.toList, c ∉ [':', '\\', '/', '?', '*', '[', ']'] := fun c hc => by
          simpa [isForbidden] using List.find?_eq_none.1 good c hc
        rw [and_iff_right ⟨nonempty, short, free⟩]
        cases w.hasSheet name <;> simp

/-- Changes of sheets keep their names. -/
theorem map_name_modifySheets (change : Sheet → Sheet) (keeps : ∀ s, (change s).name = s.name)
    (name : String) (sheets : List Sheet) :
    (modifySheets name change sheets).map (·.name) = sheets.map (·.name) := by
  induction sheets with
  | nil => rfl
  | cons s sheets ih =>
    unfold modifySheets
    split
    · rw [List.map_cons, keeps, List.map_cons]
    · rw [List.map_cons, ih, List.map_cons]

@[simp] theorem sheetNames_changed (w : Workbook) (sheet : String) (a : Address) (f : Cell → Cell) :
    (w.changed sheet a f).sheetNames = w.sheetNames :=
  map_name_modifySheets (·.modifyCell a f) (fun _ => rfl) sheet w.sheets

/-- A sheet is found by any spelling of its name, and a change that keeps its name changes what is
found by that name only. -/
theorem find?_modifySheets (change : Sheet → Sheet) (keeps : ∀ s, (change s).name = s.name)
    (name other : String) (sheets : List Sheet) :
    (modifySheets name change sheets).find? (fun s => Text.sameLetters s.name other) =
      if Text.asciiLower other = Text.asciiLower name then
        (sheets.find? fun s => Text.sameLetters s.name name).map change
      else sheets.find? fun s => Text.sameLetters s.name other := by
  induction sheets with
  | nil => simp [modifySheets]
  | cons s sheets ih =>
    by_cases here : Text.asciiLower s.name = Text.asciiLower name
    · by_cases same : Text.asciiLower other = Text.asciiLower name
      · have found : Text.sameLetters (change s).name other := by
          rw [keeps, Text.sameLetters_iff, here, same]
        simp [modifySheets, Text.sameLetters_iff.2 here, found, same]
      · have passed : Text.sameLetters s.name other = false := by
          rw [Bool.eq_false_iff, ne_eq, Text.sameLetters_iff, here]
          exact Ne.symm same
        simp [modifySheets, Text.sameLetters_iff.2 here, keeps, passed, same]
    · have passed : Text.sameLetters s.name name = false := by
        rw [Bool.eq_false_iff, ne_eq, Text.sameLetters_iff]
        exact here
      by_cases same : Text.asciiLower other = Text.asciiLower name
      · have passed' : Text.sameLetters s.name other = false := by
          rw [Bool.eq_false_iff, ne_eq, Text.sameLetters_iff, same]
          exact here
        simpa [modifySheets, passed, passed', same] using ih
      · simp only [modifySheets, passed, Bool.false_eq_true, if_false, List.find?_cons, ih, same]

/-- A change is seen at its place, by any spelling of the sheet, and nowhere else. -/
theorem cell?_changed (known : w.hasSheet sheet) (a : Address) (f : Cell → Cell) (other : String)
    (b : Address) :
    (w.changed sheet a f).cell? other b =
      if CellMap.place other b = CellMap.place sheet a then some (f ((w.cell? sheet a).getD {}))
      else w.cell? other b := by
  obtain ⟨s, here⟩ := Option.isSome_iff_exists.1 known
  have found : (w.changed sheet a f).sheet? other =
      if Text.asciiLower other = Text.asciiLower sheet then (w.sheet? sheet).map (·.modifyCell a f)
      else w.sheet? other :=
    find?_modifySheets (·.modifyCell a f) (fun _ => rfl) sheet other w.sheets
  by_cases same : Text.asciiLower other = Text.asciiLower sheet
  · have there : w.sheet? other = some s := (sheet?_congr same).trans here
    simp [cell?, found, same, here, there, Sheet.cell?_modifyCell, CellMap.place]
  · simp [cell?, found, same, CellMap.place]

end Workbook

/-! ### One edit, then all -/

/-- The workbook looks like the map: it has the sheets, the names and, by any spelling of a sheet,
the cells. -/
structure Refines (w : Workbook) (m : CellMap) : Prop where
  sheets : w.sheetNames = m.sheets
  names : w.names = m.names
  cells : ∀ sheet a, (w.cell? sheet a).getD {} = m.cells (CellMap.place sheet a)
  valid : SheetName.AreValid m.sheets
  /-- No value stays behind a formula. -/
  single : ∀ place, (m.cells place).formula.isSome → (m.cells place).value = .empty

/-- What an edit of a workbook comes to: it is accepted, and what follows looks like the map that
follows, or it is refused, and the workbook is as it was. -/
inductive Outcome (w : Workbook) : Except WorkbookError Unit × Workbook → Option CellMap → Prop
  | accepted {w' : Workbook} {m' : CellMap} (like : Refines w' m') : Outcome w (.ok (), w') (some m')
  | refused (cause : WorkbookError) : Outcome w (.error cause, w) none

namespace Outcome

variable {w : Workbook} {m : CellMap} {result : Except WorkbookError Unit × Workbook}
  {m' : Option CellMap}

theorem ok_iff (outcome : Outcome w result m') : result.1 = .ok () ↔ m'.isSome := by
  cases outcome <;> simp

/-- What fails leaves the workbook as it was. -/
theorem eq_of_error (outcome : Outcome w result m') {cause : WorkbookError}
    (failed : result.1 = .error cause) : result.2 = w := by
  cases outcome with
  | accepted like => cases failed
  | refused cause => rfl

/-- Accepted or refused, the workbook looks like the map. -/
theorem like (outcome : Outcome w result m') (refines : Refines w m) :
    Refines result.2 (m'.getD m) := by
  cases outcome with
  | accepted like => exact like
  | refused cause => exact refines

end Outcome

namespace Refines

open Workbook

variable {w : Workbook} {m : CellMap} {sheet address : String}

theorem empty : Refines {} {} :=
  ⟨rfl, rfl, fun _ _ => rfl, ⟨by simp, .nil⟩, by simp⟩

theorem formula?_eq (refines : Refines w m) (sheet : String) (a : Address) :
    w.formula? sheet a = (m.cells (CellMap.place sheet a)).formula := by
  rw [← refines.cells, formula?]
  cases w.cell? sheet a <;> rfl

/-- A formula hides no value, for there is none behind it. -/
theorem value_eq (refines : Refines w m) (sheet : String) (a : Address) :
    w.value sheet a = (m.cells (CellMap.place sheet a)).value := by
  have single := refines.single (CellMap.place sheet a)
  rw [← refines.cells] at single ⊢
  rw [Workbook.value]
  cases found : w.cell? sheet a with
  | none => rfl
  | some c =>
    rw [found, Option.getD_some] at single
    cases written : c.formula with
    | none => simp [written]
    | some formula => simp [written, single (by simp [written])]

theorem format_eq (refines : Refines w m) (sheet : String) (a : Address) :
    w.format sheet a = (m.cells (CellMap.place sheet a)).format.getD "General" := by
  rw [← refines.cells, Workbook.format]
  cases w.cell? sheet a <;> rfl

theorem hasSheet_iff (refines : Refines w m) : w.hasSheet sheet = true ↔ m.hasSheet sheet := by
  rw [Workbook.hasSheet_iff, refines.sheets, CellMap.hasSheet]

/-- A new sheet has empty cells, as the map has where there is no sheet. -/
theorem addSheet (refines : Refines w m) {name : String} (valid : SheetName.IsValid name)
    (new : ¬m.hasSheet name) :
    Refines { w with sheets := w.sheets ++ [{ name }] } { m with sheets := m.sheets ++ [name] } := by
  refine ⟨by simp [sheetNames, ← refines.sheets], refines.names, fun sheet a => ?_,
    SheetName.areValid_concat.2 ⟨refines.valid, valid, new⟩, refines.single⟩
  rw [← refines.cells, cell?, cell?, sheet?, List.find?_append, ← sheet?]
  cases w.sheet? sheet with
  | some s => rfl
  | none =>
    -- the new sheet, if it is the one, has no cells
    rw [Option.none_or, List.find?_singleton]
    split <;> rfl

/-- A change of one cell. -/
theorem changed (refines : Refines w m) (known : w.hasSheet sheet) (a : Address) (f : Cell → Cell)
    (single : ∀ c : Cell, (c.formula.isSome → c.value = .empty) →
      (f c).formula.isSome → (f c).value = .empty) :
    Refines (w.changed sheet a f) (m.modify f (CellMap.place sheet a)) := by
  refine ⟨by simp [refines.sheets, CellMap.modify], refines.names, fun other b => ?_, refines.valid,
    fun place => ?_⟩
  · rw [cell?_changed known, CellMap.modify]
    dsimp only
    split
    · rw [← refines.cells, Option.getD_some]
    · rw [refines.cells]
  · dsimp only [CellMap.modify]
    split
    · exact single _ (refines.single _)
    · exact refines.single place

/-- The map knows the places that the workbook knows. -/
theorem place?_eq_some_iff (refines : Refines w m) {place : String × Nat × Nat} :
    m.place? sheet address = some place ↔
      ∃ a, Address.parse address = .ok a ∧ w.hasSheet sheet ∧ CellMap.place sheet a = place := by
  rw [CellMap.place?, refines.hasSheet_iff]
  cases Address.parse address with
  | error e => simp [Except.toOption]
  | ok a => simp [Except.toOption]

/-- An edit of one cell is done at the place that it names. -/
theorem modifyCell (refines : Refines w m) (f : Cell → Cell)
    (single : ∀ c : Cell, (c.formula.isSome → c.value = .empty) →
      (f c).formula.isSome → (f c).value = .empty) :
    Outcome w (w.perform (Editing.modifyCell sheet address f))
      ((m.place? sheet address).map (m.modify f)) := by
  cases named : m.place? sheet address with
  | none =>
    have nowhere : ∀ a, Address.parse address = .ok a → w.hasSheet sheet = false := by
      intro a parsed
      cases known : w.hasSheet sheet with
      | false => rfl
      | true => cases named.symm.trans (refines.place?_eq_some_iff.2 ⟨a, parsed, known, rfl⟩)
    obtain ⟨e, failed⟩ := perform_modifyCell_of_error (f := f) nowhere
    rw [failed]
    exact .refused e
  | some place =>
    obtain ⟨a, parsed, known, rfl⟩ := refines.place?_eq_some_iff.1 named
    -- the cell is first made, which shows nowhere, and then changed
    have made : Refines (w.changed sheet a id) m := by
      simpa using refines.changed known a id (fun _ single => single)
    have known' := made.hasSheet_iff.2 (refines.hasSheet_iff.1 known)
    rw [perform_modifyCell_of_ok parsed known]
    exact .accepted (made.changed known' a f single)

/-- The workbook and the map accept the same edits and are alike after them. -/
theorem edit (refines : Refines w m) (e : Edit) : Outcome w (w.edit e) (m.edit? e) := by
  cases e with
  | addSheet name =>
    have accepted : w.checkSheetName name = .ok () ↔
        SheetName.IsValid name ∧ ¬m.hasSheet name := by
      rw [checkSheetName_eq_ok_iff, refines.sheets, CellMap.hasSheet]
    rw [CellMap.edit?, Workbook.edit, Edit.steps]
    cases checked : w.checkSheetName name with
    | ok =>
      obtain ⟨valid, new⟩ := accepted.1 checked
      rw [if_pos ⟨valid, new⟩, perform_addSheet_of_ok checked]
      exact .accepted (refines.addSheet valid new)
    | error e =>
      rw [if_neg (by simp [← accepted, checked]), perform_addSheet_of_error checked]
      exact .refused e
  | setValue sheet address value => exact refines.modifyCell _ (by simp)
  | setFormula sheet address formula =>
    rw [CellMap.edit?, Workbook.edit]
    cases formed : isFormula formula with
    | true =>
      rw [if_pos rfl, perform_setFormula formed]
      exact refines.modifyCell _ (by simp)
    | false =>
      rw [if_neg (by simp), perform_setFormula_of_noFormula formed]
      exact .refused _
  | setFormat sheet address format => exact refines.modifyCell _ (fun _ single => single)
  | defineName d =>
    rw [CellMap.edit?, Workbook.edit, Edit.steps, perform_defineName, refines.names]
    split
    · exact .refused _
    · exact .accepted { refines with names := by rw [← refines.names] }

end Refines

namespace Workbook

/-- The workbook after edits one by one, each accepted or not. -/
def edits (w : Workbook) (es : List Edit) : Workbook := es.foldl (fun w e => (w.edit e).2) w

end Workbook

/-- The map after edits one by one, each accepted or not. -/
def CellMap.edits (m : CellMap) (es : List Edit) : CellMap :=
  es.foldl (fun m e => (m.edit? e).getD m) m

/-- The run: by induction on the edits. -/
theorem Refines.edits {w : Workbook} {m : CellMap} (refines : Refines w m) (es : List Edit) :
    Refines (w.edits es) (m.edits es) := by
  induction es generalizing w m with
  | nil => exact refines
  | cons e es ih => exact ih ((refines.edit e).like refines)

namespace Workbook

/-- Whatever edits an empty workbook has been through, it looks like the map of cells that has been
through the same: it accepts the same edits and stays as it is on the others, and at every spelling
of a sheet and every address it reads what the map holds there. -/
theorem edits_refine_cellMap (es : List Edit) :
    let w := edits {} es
    let m := CellMap.edits {} es
    (∀ e, ((w.edit e).1 = .ok () ↔ (m.edit? e).isSome) ∧
      ∀ cause, (w.edit e).1 = .error cause → (w.edit e).2 = w) ∧
    (∀ name ∈ w.sheetNames, SheetName.IsValid name) ∧
    w.sheetNames.Pairwise (fun a b => Text.asciiLower a ≠ Text.asciiLower b) ∧
    w.sheetNames = m.sheets ∧ w.names = m.names ∧
    ∀ sheet a,
      w.formula? sheet a = (m.cells (CellMap.place sheet a)).formula ∧
      w.value sheet a = (m.cells (CellMap.place sheet a)).value ∧
      w.format sheet a = (m.cells (CellMap.place sheet a)).format.getD "General" := by
  intro w m
  have refines : Refines w m := Refines.empty.edits es
  refine ⟨fun e => ⟨(refines.edit e).ok_iff, fun _ => (refines.edit e).eq_of_error⟩, ?_, ?_,
    refines.sheets, refines.names, fun sheet a => ⟨?_, ?_, ?_⟩⟩
  · exact refines.sheets ▸ refines.valid.1
  · exact refines.sheets ▸ refines.valid.2
  · exact refines.formula?_eq sheet a
  · exact refines.value_eq sheet a
  · exact refines.format_eq sheet a

end Workbook

end SheetCompiler
