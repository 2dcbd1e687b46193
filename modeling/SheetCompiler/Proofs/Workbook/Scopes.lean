import Mathlib.Data.List.Pairwise
import SheetCompiler.Proofs.Workbook.Loading

/-!
# One name in one scope

A new name is checked against the names of its scope, and a scope is told by the spelling of its
sheet, where sheets are otherwise told by their letters alone. So the names of a workbook are those
that were offered, each spelling of name and scope once (`Workbook.Kept.edits`), and a name stands
once in a scope exactly if no sheet was spelled in two ways for it
(`Workbook.names_once_per_scope_iff`).
-/

namespace SheetCompiler

namespace DefinedName

/-- Where the name can be used: everywhere, or on a sheet, told by its letters. -/
def scope (d : DefinedName) : Option String := d.localSheet.map Text.asciiLower

/-- Both are one name in one scope, whatever the case of the letters. -/
def Same (a b : DefinedName) : Prop :=
  Text.asciiLower a.name = Text.asciiLower b.name ∧ a.scope = b.scope

instance (a b : DefinedName) : Decidable (a.Same b) := inferInstanceAs (Decidable (_ ∧ _))

theorem Same.symm {a b : DefinedName} (same : a.Same b) : b.Same a := ⟨same.1.symm, same.2.symm⟩

theorem Same.trans {a b c : DefinedName} (ab : a.Same b) (bc : b.Same c) : a.Same c :=
  ⟨ab.1.trans bc.1, ab.2.trans bc.2⟩

end DefinedName

namespace Workbook

/-- No scope has a name twice. -/
def OncePerScope (names : List DefinedName) : Prop := names.Pairwise fun a b => ¬a.Same b

instance (names : List DefinedName) : Decidable (OncePerScope names) :=
  inferInstanceAs (Decidable (names.Pairwise _))

/-- Names clash if they are the same and their scopes are spelled alike. -/
theorem clash_iff {a b : DefinedName} : clash a b = true ↔ a.Same b ∧ a.localSheet = b.localSheet := by
  rw [clash, Bool.and_eq_true, beq_iff_eq, Text.sameLetters_iff]
  constructor
  · rintro ⟨sheet, name⟩
    exact ⟨⟨name, congrArg (Option.map Text.asciiLower) sheet⟩, sheet⟩
  · rintro ⟨same, sheet⟩
    exact ⟨sheet, same.1⟩

end Workbook

/-- The name that an edit offers. -/
def Edit.name? : Edit → Option DefinedName
  | .defineName d => some d
  | _ => none

namespace Workbook

variable {w : Workbook} {names offers : List DefinedName}

/-! ### What is kept of the names that are offered -/

/-- The names are among those offered, and each of these has its spelling of name and scope kept. -/
structure Kept (names offers : List DefinedName) : Prop where
  offered : ∀ d ∈ names, d ∈ offers
  held : ∀ d ∈ offers, ∃ known ∈ names, clash known d

theorem clash_refl (d : DefinedName) : clash d d := clash_iff.2 ⟨⟨rfl, rfl⟩, rfl⟩

theorem kept_refl (names : List DefinedName) : Kept names names :=
  ⟨fun _ mem => mem, fun d mem => ⟨d, mem, clash_refl d⟩⟩

/-- Edits of cells leave the names. -/
theorem names_modifyCell (w : Workbook) (sheet address : String) (f : Cell → Cell) :
    (w.perform (Editing.modifyCell sheet address f)).2.names = w.names := by
  by_cases nowhere : ∀ a, Address.parse address = .ok a → w.hasSheet sheet = false
  · obtain ⟨e, failed⟩ := perform_modifyCell_of_error (f := f) nowhere
    rw [failed]
  · simp only [not_forall, Bool.not_eq_false] at nowhere
    obtain ⟨a, parsed, known⟩ := nowhere
    rw [perform_modifyCell_of_ok parsed known]
    rfl

/-- Only an edit that offers a name changes the names. -/
theorem names_edit_of_none {e : Edit} (other : e.name? = none) : (w.edit e).2.names = w.names := by
  cases e with
  | addSheet name =>
    rw [edit, Edit.steps]
    cases checked : w.checkSheetName name with
    | error e => rw [perform_addSheet_of_error checked]
    | ok => rw [perform_addSheet_of_ok checked]
  | setValue sheet address value => exact w.names_modifyCell sheet address _
  | setFormula sheet address formula =>
    rw [edit]
    cases formed : isFormula formula with
    | true =>
      rw [perform_setFormula formed]
      exact w.names_modifyCell sheet address _
    | false => rw [perform_setFormula_of_noFormula formed]
  | setFormat sheet address format => exact w.names_modifyCell sheet address _
  | defineName d => cases other

/-- Edits of a workbook make another one. -/
theorem Built.edits (built : Built w) (es : List Edit) : Built (w.edits es) := by
  induction es generalizing w with
  | nil => exact built
  | cons e es ih => exact ih (built.edited e)

namespace Kept

/-- The step: an edit keeps the name that it offers, or one like it was there before. -/
theorem edit (kept : Kept w.names offers) (e : Edit) :
    Kept (w.edit e).2.names (offers ++ e.name?.toList) := by
  cases offer : e.name? with
  | none =>
    rw [names_edit_of_none offer]
    simpa using kept
  | some d =>
    obtain rfl : e = .defineName d := by
      cases e <;> simp_all [Edit.name?]
    rw [Workbook.edit, Edit.steps, perform_defineName]
    split
    next taken =>
      refine ⟨fun d' mem => List.mem_append_left _ (kept.offered d' mem), fun d' mem => ?_⟩
      rcases List.mem_append.1 mem with old | new
      · exact kept.held d' old
      · rw [List.mem_singleton.1 new]
        exact taken
    next free =>
      refine ⟨fun d' mem => ?_, fun d' mem => ?_⟩
      · exact (List.mem_append.1 mem).elim
          (fun old => List.mem_append_left _ (kept.offered d' old)) (List.mem_append_right _)
      · rcases List.mem_append.1 mem with old | new
        · obtain ⟨known, mem, clashes⟩ := kept.held d' old
          exact ⟨known, List.mem_append_left _ mem, clashes⟩
        · exact ⟨d', List.mem_append_right _ new, clash_refl d'⟩

/-- Whatever the edits, each spelling of name and scope that was offered is kept. -/
theorem edits (kept : Kept w.names offers) (es : List Edit) :
    Kept (w.edits es).names (offers ++ es.filterMap Edit.name?) := by
  induction es generalizing w offers with
  | nil => simpa [Workbook.edits] using kept
  | cons e es ih =>
    have next := ih (kept.edit e)
    rw [List.append_assoc] at next
    cases offer : e.name? <;> simpa [Workbook.edits, offer] using next

/-- Where the names are spelled apart, one of them stands twice in a scope exactly if it was offered
with two spellings of the sheet. -/
theorem oncePerScope_iff (kept : Kept names offers) (apart : NamesApart names) :
    OncePerScope names ↔
      ∀ a ∈ offers, ∀ b ∈ offers, a.Same b → a.localSheet = b.localSheet := by
  constructor
  · intro once a offeredA b offeredB same
    obtain ⟨keptA, memA, clashA⟩ := kept.held a offeredA
    obtain ⟨keptB, memB, clashB⟩ := kept.held b offeredB
    obtain ⟨sameA, sheetA⟩ := clash_iff.1 clashA
    obtain ⟨sameB, sheetB⟩ := clash_iff.1 clashB
    have symmetric : Std.Symm fun a b : DefinedName => ¬a.Same b :=
      ⟨fun _ _ differ same => differ same.symm⟩
    have one : keptA = keptB := by
      by_contra two
      exact once.forall memA memB two ((sameA.trans same).trans sameB.symm)
    rw [← sheetA, ← sheetB, one]
  · intro spelled
    refine apart.imp_of_mem fun memA memB free same => free (clash_iff.2 ⟨same, ?_⟩)
    exact spelled _ (kept.offered _ memA) _ (kept.offered _ memB) same

end Kept

/-- No workbook has two names of one spelling whose scopes are spelled alike. It has no name twice in a
scope exactly if none of its names was offered for one sheet with two spellings of the sheet. -/
theorem names_once_per_scope_iff {start : Workbook} (built : Built start) (es : List Edit) :
    ((start.edits es).names.Pairwise fun a b =>
      ¬(Text.asciiLower a.name = Text.asciiLower b.name ∧ a.localSheet = b.localSheet)) ∧
    (OncePerScope (start.edits es).names ↔
      ∀ a ∈ start.names ++ es.filterMap Edit.name?, ∀ b ∈ start.names ++ es.filterMap Edit.name?,
        a.Same b → a.localSheet = b.localSheet) := by
  have apart := (built.edits es).wellFormed.apart
  refine ⟨apart.imp fun {a b} free => ?_, ((kept_refl start.names).edits es).oncePerScope_iff apart⟩
  rintro ⟨name, sheet⟩
  exact free (clash_iff.2 ⟨⟨name, congrArg (Option.map Text.asciiLower) sheet⟩, sheet⟩)

/-- Two names of a sheet that is spelled in two ways. -/
def twoRates : List Edit :=
  [.addSheet "Calc", .defineName ⟨"Rate", "=Calc!$A$1", some "Calc"⟩,
    .defineName ⟨"RATE", "=Calc!$A$2", some "calc"⟩]

/-- The sheet of the second name is not told to be that of the first one. -/
theorem twoRates_share_scope : ¬OncePerScope (edits {} twoRates).names := by
  decide

/-- A name for the workbook and one for a sheet, and another spelling of the latter that is refused. -/
theorem names_once_per_scope_iff_refused :
    Built {} ∧ OncePerScope (edits {} [.defineName ⟨"Rate", "=Calc!$A$1", none⟩, .addSheet "Calc",
      .defineName ⟨"Rate", "=Calc!$A$2", some "Calc"⟩,
      .defineName ⟨"RATE", "=Calc!$A$3", some "Calc"⟩]).names := by
  refine ⟨.empty, (names_once_per_scope_iff .empty _).2.2 ?_⟩
  decide

end Workbook

end SheetCompiler
