import SheetCompiler.Proofs.Compile.Reach

/-!
# The order of names does not matter

What a compilation reaches is said without an order, and so it is the same for workbooks that differ
in the order of their names only. The limit is no exception: cells are followed only if they are
needed, and how many are needed is the same. Hence both compilations succeed or none does
(`Run.success_reorder`), and `Run.name_order_irrelevant` compares what they have found. The made-up
identifiers may differ: where two would be spelled alike, the one found later gets a number.
-/

namespace SheetCompiler

open AliasTable

namespace Run

variable {p : Plan} {w w' : Workbook} {candidate : Candidate} {content : Content}
  {source : Option String} {kind : Option SectionKind} {key : String}

/-! ### What is reached in another order -/

section

variable (same : w'.Reorders w) (orderly : p.Orderly w)

include same

theorem keyOf?_reorder : w'.keyOf? candidate = w.keyOf? candidate := by
  rw [Workbook.keyOf?, Workbook.keyOf?, same.key]

include orderly

/-- The section of a candidate is found from the cells and the inputs, which are the same. -/
theorem sectionOf_reorder : sectionOf p w' candidate content = sectionOf p w candidate content := by
  obtain ⟨named, known, -⟩ := exists_named p w
  obtain ⟨named', known', -⟩ := exists_named p w'
  simp [sectionOf, factsOf, facts, isDuplicate, known.untouched.owners, known'.untouched.owners,
    Interface.hasInput, inputs_reorder same orderly]

/-- By induction on the way: each candidate is one in the other order, and each cell that has no
name has none there. -/
theorem Reaches.reorder (reached : Reaches p w source content kind) :
    Reaches p w' source content kind := by
  induction reached with
  | @named candidate content hc hread =>
    rw [← keyOf?_reorder same, ← sectionOf_reorder same orderly]
    exact .named ((bind_reorder same orderly).mem_iff.2 hc) (same.read ▸ hread)
  | found reached hx hkey unbound parsed hread ih =>
    exact .found ih hx (same.sheetTable ▸ hkey) ((unbound_reorder same orderly _).2 unbound) parsed
      (same.region ▸ hread)

theorem Needs.reorder (needs : Needs p w key) : Needs p w' key := by
  obtain ⟨source, content, x, reached, hx, hkey, unbound⟩ := needs
  exact ⟨source, content, x, reached.reorder same orderly, hx, same.sheetTable ▸ hkey,
    (unbound_reorder same orderly key).2 unbound⟩

end

/-- The order of the names does not matter for what is reached. -/
theorem reaches_reorder_iff (same : w'.Reorders w) (orderly : p.Orderly w) :
    Reaches p w' source content kind ↔ Reaches p w source content kind :=
  ⟨fun reached => reached.reorder same.symm (orderly_reorder same orderly),
    fun reached => reached.reorder same orderly⟩

theorem needs_reorder_iff (same : w'.Reorders w) (orderly : p.Orderly w) :
    Needs p w' key ↔ Needs p w key :=
  ⟨fun needs => needs.reorder same.symm (orderly_reorder same orderly),
    fun needs => needs.reorder same orderly⟩

/-- All that is reached in the other order is reached in this one, so it can be read and written. -/
theorem Passes.reorder (same : w'.Reorders w) (orderly : p.Orderly w) (passes : Passes p w) :
    Passes p w' := by
  refine ⟨fun candidate hc => ?_, fun key needs => ?_, fun source content reached => ?_⟩
  · rw [same.read]
    exact passes.names candidate ((bind_reorder same orderly).mem_iff.1 hc)
  · rw [same.region]
    exact passes.cells key ((needs_reorder_iff same orderly).1 needs)
  · exact passes.bodies source content ((reaches_reorder_iff same orderly).1 reached)

/-- If the limit suffices, it does in every order: no more cells are followed than are needed. -/
theorem settled_reorder (same : w'.Reorders w) (orderly : p.Orderly w)
    (settled : (compile p w).unsettled = []) : (compile p w').unsettled = [] := by
  have needed : (compile p w').table.madeUp ⊆ (compile p w).table.madeUp := by
    intro key made
    rw [mem_madeUp] at made ⊢
    obtain ⟨left, point, -⟩ := exists_point_compile p w'
    have needs := point.needs (orderly_reorder same orderly) made
    exact (made_up_iff_needs orderly settled key).2 ((needs_reorder_iff same orderly).1 needs)
  have fewer := (List.subperm_of_subset (nodup_madeUp _) needed).length_le
  rw [settled_iff] at settled ⊢
  omega

/-- A compilation that succeeds does in every order. -/
theorem success_reorder (same : w'.Reorders w) (orderly : p.Orderly w)
    (success : (compile p w).errors = []) : (compile p w').errors = [] := by
  rw [success_iff orderly] at success
  rw [success_iff (orderly_reorder same orderly)]
  exact ⟨settled_reorder same orderly success.1, success.2.reorder same orderly⟩

/-! ### One section for every key -/

/-- The cells of the key are read for a candidate, and the section takes it. -/
def Sorts (p : Plan) (w : Workbook) (key : String) (kind : Option SectionKind) : Prop :=
  ∃ candidate content, w.keyOf? candidate = some key ∧ Classified p w candidate content kind

/-- What is sorted is what is reached. -/
theorem sorts_iff (orderly : p.Orderly w) (settled : (compile p w).unsettled = []) :
    Sorts p w key kind ↔ ∃ content, Reaches p w (some key) content kind := by
  rw [Sorts, exists_comm]
  exact exists_congr fun content => classified_iff orderly settled

/-- Cells are reached through a candidate for them or, if they have no name, from a formula. -/
theorem Reaches.cases_key (reached : Reaches p w (some key) content kind) :
    (∃ candidate ∈ (bind p w).1, w.keyOf? candidate = some key ∧
      read w candidate = .ok content ∧ kind = sectionOf p w candidate content) ∨
    (bind p w).2.table.binding? key = none ∧ ∃ r g, Reference.parse key = .ok r ∧
      w.region r = .ok g ∧ kind = some (cellSection g) := by
  generalize source : some key = cells at reached
  cases reached with
  | @named candidate content hc hread => exact .inl ⟨candidate, hc, rfl, hread, rfl⟩
  | @found _ _ _ other r g reached hx hkey unbound parsed hread =>
    cases source
    exact .inr ⟨unbound, r, g, parsed, hread, rfl⟩

/-- Cells that are reached in two ways go into one section: a candidate for them is the only one,
and cells without a name are sorted by what they hold. -/
theorem Reaches.kind_unique (orderly : p.Orderly w) {content' : Content}
    {kind' : Option SectionKind} (reached : Reaches p w (some key) content kind)
    (reached' : Reaches p w (some key) content' kind') : kind = kind' := by
  rcases reached.cases_key with ⟨c, hc, hkey, hread, rfl⟩ | ⟨unbound, r, g, parsed, hread, rfl⟩ <;>
    rcases reached'.cases_key with
      ⟨c', hc', hkey', hread', rfl⟩ | ⟨unbound', r', g', parsed', hread', rfl⟩
  · obtain rfl := eq_of_keyOf?_eq orderly hc hc' hkey hkey'
    obtain rfl : content = content' := Except.ok.inj (hread.symm.trans hread')
    rfl
  · exact absurd unbound' (bound_of_candidate hc hkey)
  · exact absurd unbound (bound_of_candidate hc' hkey')
  · obtain rfl : r = r' := Except.ok.inj (parsed.symm.trans parsed')
    obtain rfl : g = g' := Except.ok.inj (hread.symm.trans hread')
    rfl

/-- The key is that of a candidate, or a made-up identifier stands for it in the end. -/
def Handles (p : Plan) (w : Workbook) (key : String) : Prop :=
  (∃ candidate ∈ (bind p w).1, w.keyOf? candidate = some key) ∨
    (compile p w).table.layerOf key = some .synthesized

/-- All that a compilation which succeeds handles is reached. -/
theorem exists_reaches (orderly : p.Orderly w) (success : (compile p w).errors = [])
    (handled : Handles p w key) : ∃ content kind, Reaches p w (some key) content kind := by
  obtain ⟨settled, passes⟩ := (success_iff orderly).1 success
  rcases handled with ⟨candidate, hc, hkey⟩ | made
  · obtain ⟨content, hread⟩ := passes.names candidate hc
    exact ⟨content, _, hkey ▸ Reaches.named hc hread⟩
  · have needs := (made_up_iff_needs orderly settled key).1 made
    obtain ⟨r, g, parsed, hg⟩ := passes.cells key needs
    obtain ⟨source, content, x, reached, hx, hkey, unbound⟩ := needs
    exact ⟨.region g, _, .found reached hx hkey unbound parsed hg⟩

/-- **The order of names does not matter.** For workbooks that differ in the order of their names
only, with inputs that have cells of their own and names that have spellings, cells and identifiers
of their own, both compilations succeed or none does. If they succeed, identifiers are made up for
the same keys, and every key, of a candidate or with a made-up identifier, goes into one section,
the same for both. -/
theorem name_order_irrelevant (same : w'.Reorders w) (orderly : p.Orderly w) (time : String) :
    (p.compile w' time).report.isSuccess = (p.compile w time).report.isSuccess ∧
    ((p.compile w time).report.isSuccess →
      (∀ key, (compile p w').table.layerOf key = some .synthesized ↔
        (compile p w).table.layerOf key = some .synthesized) ∧
      (∀ key kind, Sorts p w' key kind ↔ Sorts p w key kind) ∧
      ∀ key, Handles p w key → ∃! kind, Sorts p w key kind) := by
  have orderly' := orderly_reorder same orderly
  have report : ∀ w, (p.compile w time).report.isSuccess ↔ (compile p w).errors = [] :=
    fun w => List.isEmpty_iff
  have both : (compile p w').errors = [] ↔ (compile p w).errors = [] :=
    ⟨success_reorder same.symm orderly', success_reorder same orderly⟩
  refine ⟨Bool.eq_iff_iff.2 (by rw [report, report, both]), fun success => ?_⟩
  rw [report] at success
  obtain ⟨settled, -⟩ := (success_iff orderly).1 success
  have settled' := settled_reorder same orderly settled
  refine ⟨fun key => ?_, fun key kind => ?_, fun key handled => ?_⟩
  · rw [made_up_iff_needs orderly' settled', made_up_iff_needs orderly settled,
      needs_reorder_iff same orderly]
  · simp only [sorts_iff orderly' settled', sorts_iff orderly settled,
      reaches_reorder_iff same orderly]
  · obtain ⟨content, kind, reached⟩ := exists_reaches orderly success handled
    refine ⟨kind, (sorts_iff orderly settled).2 ⟨content, reached⟩, fun other sorts => ?_⟩
    obtain ⟨content', reached'⟩ := (sorts_iff orderly settled).1 sorts
    exact reached'.kind_unique orderly reached

/-- Two names, from which formulas lead to cells whose identifiers would be spelled alike. -/
def branches : Except WorkbookError Workbook := do
  let w ← ({} : Workbook).addSheet "Calc"
  let w ← w.addSheet "Q 1"
  let w ← w.addSheet "Q_1"
  let w ← w.setFormula "Calc" "A1" "='Q 1'!B1&C1"
  let w ← w.setFormula "Calc" "A2" "=Q_1!B1&A1"
  let w ← w.setFormula "Calc" "A3" "=A1&A2"
  let w ← w.setValue "Q 1" "B1" (.string "north")
  let w ← w.setFormula "Q_1" "B1" "='Q 1'!B1&C1"
  let w ← w.defineName { name := "First", refersTo := "=Calc!$A$1" }
  w.defineName { name := "Second", refersTo := "=Calc!$A$2" }

def branchesConfig : Config where
  spreadsheet := "branches.xlsx"
  inputs := [⟨"Calc!C1", "side"⟩]
  outputs := [⟨"Calc!A3", "both"⟩]

/-- In the other order `'Q 1'!B1` is found later and gets a number, but goes into the same
section. -/
theorem name_order_irrelevant_branches :
    ∃ p w w', Plan.ofConfig branchesConfig = .ok p ∧ branches = .ok w ∧
      w' = { w with names := w.names.reverse } ∧ w'.Reorders w ∧ p.Orderly w ∧
      (p.compile w "").report.isSuccess ∧ (p.compile w' "").report.isSuccess ∧
      (compile p w).table.lookup "'Q 1'!$B$1" = some "Q1B1" ∧
      (compile p w').table.lookup "'Q 1'!$B$1" = some "Q1B1_2" ∧
      (∀ key, (compile p w').table.layerOf key = some .synthesized ↔
        (compile p w).table.layerOf key = some .synthesized) ∧
      (∀ key kind, Sorts p w' key kind ↔ Sorts p w key kind) ∧
      ∃! kind, Sorts p w "'Q 1'!$B$1" kind := by
  have facts : ((Plan.ofConfig branchesConfig).toOption.bind fun p =>
      branches.toOption.map fun w =>
        decide (p.Orderly w ∧ (p.compile w "").report.isSuccess ∧
          (compile p w).table.layerOf "'Q 1'!$B$1" = some .synthesized ∧
          (compile p w).table.lookup "'Q 1'!$B$1" = some "Q1B1" ∧
          (compile p { w with names := w.names.reverse }).table.lookup "'Q 1'!$B$1" =
            some "Q1B1_2")) = some true := by decide +kernel
  obtain ⟨p, hp, facts⟩ := Option.bind_eq_some_iff.1 facts
  obtain ⟨w, hw, facts⟩ := Option.map_eq_some_iff.1 facts
  obtain ⟨orderly, success, made, first, second⟩ := of_decide_eq_true facts
  have same : { w with names := w.names.reverse }.Reorders w := ⟨rfl, List.reverse_perm _⟩
  obtain ⟨report, rest⟩ := name_order_irrelevant same orderly ""
  obtain ⟨keys, sections, unique⟩ := rest success
  exact ⟨p, w, _, Fallible.toOption_eq_some_iff.1 hp, Fallible.toOption_eq_some_iff.1 hw, rfl, same,
    orderly, success, report ▸ success, first, second, keys, sections, unique _ (.inr made)⟩

end Run

end SheetCompiler
