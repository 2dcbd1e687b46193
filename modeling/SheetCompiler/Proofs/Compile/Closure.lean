import Mathlib.Data.List.TakeWhile
import SheetCompiler.Proofs.Compile.Binding
import SheetCompiler.Proofs.Compile.Points

/-!
# What a property reads is declared

Every reference in a formula gets an identifier, from the configuration, from a defined name or a
made-up one, and each of the three is declared on a way of its own. `Run.Accounted` says what is
owed while a compilation goes on: a bound identifier is declared already, or its cells are queued,
or a candidate that is left stands for them. Once nothing is left, only one exception remains:
names and outputs on an ignored sheet are dropped (`Plan.Hides`), also if formulas refer to them.
-/

namespace SheetCompiler

open AliasTable

/-- The cells are on an ignored sheet, and an alias or a defined name binds them. -/
def Plan.Hides (p : Plan) (t : AliasTable) (key : String) : Prop :=
  (∃ b, t.binding? key = some b ∧ b.layer ≠ .synthesized) ∧
    ∃ r sheet, r.sheet = some sheet ∧ t.key r none = key ∧ p.config.isIgnoredSheet sheet

/-- Hidden cells stay hidden while bindings are added. -/
theorem Plan.Hides.mono {p : Plan} {t t' : AliasTable} {key : String} (hides : p.Hides t key)
    (grown : t'.Extends t) (sheets : t'.sheets = t.sheets) : p.Hides t' key := by
  obtain ⟨⟨b, bound, layer⟩, r, sheet, hsheet, hkey, ignored⟩ := hides
  refine ⟨⟨b, grown key b bound, layer⟩, r, sheet, hsheet, ?_, ignored⟩
  rw [key_congr sheets, hkey]

namespace Run

variable {p : Plan} {w : Workbook} {run run' : Run} {candidate : Candidate}
  {todo : List Candidate}

/-- A region is read from the sheet of its reference. -/
theorem sheet_of_region {r : Reference} {g : Region} (h : w.region r = .ok g) :
    r.sheet = some g.sheet := by
  unfold Workbook.region at h
  split at h
  next => cases h
  next sheet hsheet =>
    split at h
    · cases h
    · split at h
      · cases h
      · cases h
        exact hsheet

/-- Cells are unusable only if they are on an ignored sheet, or if another name holds the
identifier; those found in a formula never are. -/
theorem unusable_cells {r : Reference} {content : Content} (target : candidate.target = .cells r)
    (hread : read w candidate = .ok content)
    (unusable : (run.factsOf p candidate content).isUnusable) :
    candidate.discovered = false ∧
      ((∃ sheet, r.sheet = some sheet ∧ p.config.isIgnoredSheet sheet) ∨
        ∃ owner, Assoc.find? candidate.identifier run.owners = some owner) := by
  simp only [read, target] at hread
  obtain ⟨g, hg, rfl⟩ := Fallible.map_eq_ok_iff.1 hread
  have sheet := sheet_of_region (Fallible.mapError_eq_ok_iff.1 hg)
  simp only [NameFacts.isUnusable, factsOf, facts, target, reduceCtorEq, decide_false,
    Bool.false_or, Bool.and_eq_true, Bool.not_eq_true', Bool.or_eq_true] at unusable
  obtain ⟨named, ignored | duplicate⟩ := unusable
  · exact ⟨named, .inl ⟨g.sheet, sheet, ignored⟩⟩
  · refine ⟨named, .inr ?_⟩
    rw [isDuplicate, owners_arrive] at duplicate
    split at duplicate
    next owner h => exact ⟨owner, h⟩
    next => simp at duplicate

/-- The cells of a candidate are the only ones that it marks as read. -/
theorem mem_visited_arrive {key : String} (h : key ∈ (run.arrive candidate).visited) :
    key ∈ run.visited ∨ ∃ r, candidate.target = .cells r ∧ run.table.key r none = key := by
  unfold arrive visit at h
  split at h
  next r target =>
    rcases List.mem_cons.1 h with rfl | h
    · exact .inr ⟨r, target, rfl⟩
    · exact .inl h
  next => exact .inl h

/-- The ranges that a candidate resolves lie on the sheet and start at their upper left corners. -/
theorem normalized_reads : (run.reads p w candidate).Normalized := by
  unfold reads
  split
  · exact Reads.normalized_nil
  · split
    · exact Content.normalized_reads _
    · exact Reads.normalized_nil

/-! ### What is owed -/

/-- Every bound identifier is declared or going to be, with these candidates left. -/
structure Accounted (p : Plan) (todo : List Candidate) (run : Run) : Prop where
  owned : ∀ identifier owner, Assoc.find? identifier run.owners = some owner →
    run.sections.Declares identifier
  /-- A queued key is read back as cells of the same key. -/
  queued : ∀ key ∈ run.table.pending,
    (∃ b, run.table.binding? key = some b ∧ b.layer = .synthesized) ∧
      ∀ r, Reference.parse key = .ok r → run.table.key r none = key
  /-- Cells that have been read and were found in a formula are declared. -/
  visited : ∀ key ∈ run.visited, ∃ b, run.table.binding? key = some b ∧
    (b.layer = .synthesized → run.sections.Declares b.identifier)
  /-- Cells with a made-up identifier are left only if they were found in a formula. -/
  waiting : ∀ c ∈ todo, ∀ r, c.target = .cells r →
    ∃ b, run.table.binding? (run.table.key r none) = some b ∧
      (b.layer = .synthesized → c.discovered ∧ c.identifier = b.identifier)
  bound : ∀ key b, run.table.binding? key = some b →
    run.sections.Declares b.identifier ∨ p.Hides run.table key ∨ key ∈ run.table.pending ∨
      ∃ c ∈ todo, ∃ r, c.target = .cells r ∧ run.table.key r none = key ∧
        c.identifier = b.identifier

namespace Accounted

/-- What becomes of cells when the candidate with their identifier is classified. -/
theorem settle (accounted : Accounted p (candidate :: todo) run)
    (outcome : Outcome p w run candidate run') (success : run'.errors = []) {r : Reference}
    (target : candidate.target = .cells r) {b : Binding}
    (bound : run.table.binding? (run.table.key r none) = some b)
    (same : candidate.identifier = b.identifier) :
    run'.sections.Declares b.identifier ∨
      b.layer ≠ .synthesized ∧ p.Hides run.table (run.table.key r none) := by
  obtain ⟨content, hread, ⟨unusable, -⟩ | ⟨declared, -⟩⟩ := outcome.settled success
  · obtain ⟨named, ⟨sheet, hsheet, ignored⟩ | ⟨owner, owned⟩⟩ := unusable_cells target hread unusable
    · have layer : b.layer ≠ .synthesized := by
        obtain ⟨b', bound', made⟩ := accounted.waiting candidate List.mem_cons_self r target
        obtain rfl : b' = b := Option.some.inj (bound'.symm.trans bound)
        simpa [named] using made
      exact .inr ⟨layer, ⟨b, bound, layer⟩, r, sheet, hsheet, rfl, ignored⟩
    · exact .inl (outcome.declares (same ▸ accounted.owned _ owner owned))
  · exact .inl (same ▸ declared)

/-- Nothing else is owed once a candidate is classified. -/
theorem processed (accounted : Accounted p (candidate :: todo) run)
    (outcome : Outcome p w run candidate run') (success : run'.errors = []) :
    Accounted p todo run' := by
  have table := outcome.table
  have sheets : run'.table.sheets = run.table.sheets := by rw [table, sheets_resolveAll]
  have keys : ∀ r current, run'.table.key r current = run.table.key r current := key_congr sheets
  have grown : run'.table.Extends run.table := table ▸ extends_resolveAll _ _
  obtain ⟨pending, bindings, queued⟩ := resolveAll_new (run.reads p w candidate) run.table
  rw [← table] at pending bindings queued
  refine ⟨fun identifier owner h => ?_, fun key h => ?_, fun key h => ?_, fun c hc r target => ?_,
    fun key b h => ?_⟩
  · obtain ⟨-, -, ⟨-, owners⟩ | ⟨declared, owners⟩⟩ := outcome.settled success
    · exact outcome.declares (accounted.owned identifier owner (owners ▸ h))
    · rw [owners, Assoc.find?_insert] at h
      split at h
      next same => exact same ▸ declared
      next => exact outcome.declares (accounted.owned identifier owner h)
  · -- A key was queued before, or it was made of a reference that is new.
    rcases queued key h with old | ⟨new, x, hx, rfl⟩
    · obtain ⟨⟨b, hb, layer⟩, reads⟩ := accounted.queued key old
      exact ⟨⟨b, grown key b hb, layer⟩, fun r parsed => by rw [keys, reads r parsed]⟩
    · refine ⟨new, fun r parsed => ?_⟩
      rw [keys]
      exact key_of_parse_key run.table (normalized_reads x hx) x.2 parsed
  · rcases mem_visited_arrive (outcome.visited h) with old | ⟨r, target, rfl⟩
    · obtain ⟨b, hb, declared⟩ := accounted.visited key old
      exact ⟨b, grown key b hb, fun layer => outcome.declares (declared layer)⟩
    · obtain ⟨b, hb, made⟩ := accounted.waiting candidate List.mem_cons_self r target
      refine ⟨b, grown _ b hb, fun layer => ?_⟩
      exact (accounted.settle outcome success target hb (made layer).2).resolve_right
        fun h => h.1 layer
  · obtain ⟨b, hb, made⟩ := accounted.waiting c (List.mem_cons_of_mem _ hc) r target
    exact ⟨b, by rw [keys, grown _ b hb], made⟩
  · -- A new binding is in the queue; an old one is where it was, or its candidate came.
    rcases bindings key b h with old | ⟨-, new⟩
    · rcases accounted.bound key b old with declared | hidden | inQueue | ⟨c, hc, r, target, rfl, same⟩
      · exact .inl (outcome.declares declared)
      · exact .inr (.inl (hidden.mono grown sheets))
      · exact .inr (.inr (.inl (pending inQueue)))
      · rcases List.mem_cons.1 hc with rfl | hc
        · exact (accounted.settle outcome success target old same).imp id
            fun hidden => .inl (hidden.2.mono grown sheets)
        · exact .inr (.inr (.inr ⟨c, hc, r, target, keys r none, same⟩))
    · exact .inr (.inr (.inl new))

/-- Keys that are dropped from the queue were read, so their identifiers are declared; those that are
left are owed. -/
theorem declared_or_left (accounted : Accounted p [] run) {key : String} {b : Binding}
    (bound : run.table.binding? key = some b) :
    run.sections.Declares b.identifier ∨ p.Hides run.table key ∨
      key ∈ run.table.pending.dropWhile (· ∈ run.visited) := by
  rcases accounted.bound key b bound with declared | hidden | inQueue | ⟨_, hc, -⟩
  · exact .inl declared
  · exact .inr (.inl hidden)
  · rw [← List.takeWhile_append_dropWhile (p := (· ∈ run.visited)) (l := run.table.pending),
      List.mem_append] at inQueue
    rcases inQueue with dropped | left
    · have seen := List.mem_takeWhile_imp dropped
      obtain ⟨b', bound', declared⟩ := accounted.visited key (by simpa using seen)
      obtain rfl : b' = b := Option.some.inj (bound'.symm.trans bound)
      obtain ⟨⟨b, hb, layer⟩, -⟩ := accounted.queued key
        ((List.takeWhile_sublist _).subset dropped)
      obtain rfl : b = b' := Option.some.inj (hb.symm.trans bound)
      exact .inl (declared layer)
    · exact .inr (.inr left)
  · simp at hc

/-- A key that is taken out of the queue is owed by the candidate for it. -/
theorem found (accounted : Accounted p [] run) {key : String} {r : Reference}
    (next : run.next = (some key, run')) (parsed : Reference.parse key = .ok r) :
    Accounted p [run'.discovery key r] { run' with discovered := run'.discovered + 1 } := by
  obtain ⟨rest, queue, rfl⟩ := next_eq_some next
  have sub : ∀ k ∈ key :: rest, k ∈ run.table.pending :=
    fun k hk => (List.dropWhile_sublist _).subset (queue ▸ hk)
  obtain ⟨⟨b, hb, layer⟩, reads⟩ := accounted.queued key (sub key List.mem_cons_self)
  have same : ((run.table.lookup key).getD "") = b.identifier := by simp [lookup, hb]
  refine ⟨accounted.owned, fun k hk => ?_, accounted.visited, fun c hc r' target => ?_,
    fun k b' h => ?_⟩
  · exact accounted.queued k (sub k (List.mem_cons_of_mem _ hk))
  · obtain rfl := List.mem_singleton.1 hc
    obtain rfl : r = r' := Target.cells.inj target
    exact ⟨b, by rw [← hb, ← reads r parsed]; rfl, fun _ => ⟨rfl, same⟩⟩
  · rcases accounted.declared_or_left h with declared | hidden | left
    · exact .inl declared
    · exact .inr (.inl hidden)
    · rw [queue] at left
      rcases List.mem_cons.1 left with rfl | left
      · obtain rfl : b = b' := Option.some.inj (hb.symm.trans h)
        exact .inr (.inr (.inr ⟨_, List.mem_singleton_self _, r, rfl, reads r parsed, same⟩))
      · exact .inr (.inr (.inl left))

/-- An empty queue owes nothing, so nothing else is owed when the last key has been passed over. -/
theorem settled (accounted : Accounted p [] run) (next : run.next = (none, run')) :
    Accounted p [] run' := by
  obtain ⟨queue, rfl⟩ := next_eq_none next
  refine ⟨accounted.owned, by simp, accounted.visited, by simp, fun key b h => ?_⟩
  rcases accounted.declared_or_left h with declared | hidden | left
  · exact .inl declared
  · exact .inr (.inl hidden)
  · simp [queue] at left

end Accounted

/-! ### What is owed when the names are bound -/

/-- A run in which the configuration and some of the defined names are bound, with the candidates
that these have become. -/
structure Named (p : Plan) (w : Workbook) (named : List Candidate) (run : Run) : Prop where
  sheets : run.table.sheets = w.sheetTable.sheets
  layers : run.table.AtLeast .definedName
  untouched : run.Untouched
  aliases : run.table.Extends (bindConfig p w).table
  candidates : ∀ c ∈ named, ∀ r, c.target = .cells r →
    ∃ b, run.table.binding? (w.key r) = some b ∧ b.identifier = c.identifier
  bound : ∀ key b, run.table.binding? key = some b →
    (bindConfig p w).table.binding? key = some b ∨
      ∃ c ∈ named, ∃ r, c.target = .cells r ∧ w.key r = key ∧ c.identifier = b.identifier
  inputs : (bindConfig p w).sections.interface.inputs ⊆ run.sections.interface.inputs
  outputs : ∀ name ∈ run.sections.interface.outputs,
    (∃ key, run.table.lookup key = some name) ∨ ∃ o ∈ p.bindings.outputs, o.name = name

namespace Named

variable {named : List Candidate}

variable (p w) in
/-- The configuration alone, before any defined name is bound. -/
theorem bindConfig : Named p w [] (bindConfig p w) := by
  obtain ⟨-, untouched, -, outputs⟩ := bindConfig_spec p w
  exact ⟨sheets_bindConfig p w, layers_bindConfig p w, untouched, extends_refl _, by simp,
    fun _ _ => .inl, List.Subset.refl _, fun name h => .inr ((outputs name).1 h)⟩

theorem key_eq (known : Named p w named run) (r : Reference) : run.table.key r none = w.key r :=
  key_congr known.sheets r none

/-- The step: one more defined name is bound and becomes the next candidate. A key that it binds is
that of its own cells, so each bound key still belongs to an alias or to a candidate. -/
theorem naming (known : Named p w named run) {d : DefinedName} {result : Candidate × Run}
    (naming : Naming p.config w run d result) : Named p w (named ++ [result.1]) result.2 := by
  have grown := naming.extends_table
  obtain ⟨inputs, outputs⟩ := naming.interface
  refine ⟨naming.sheets.trans known.sheets, naming.layers known.layers,
    naming.untouched known.untouched, grown.trans known.aliases, fun c hc r target => ?_,
    fun key b h => ?_, fun name h => inputs (known.inputs h), fun name h => ?_⟩
  · rcases List.mem_append.1 hc with hc | hc
    · obtain ⟨b, hb, same⟩ := known.candidates c hc r target
      exact ⟨b, grown _ b hb, same⟩
    · obtain rfl := List.mem_singleton.1 hc
      exact known.key_eq r ▸ naming.named r target
  · rcases naming.bound_cases h with old | ⟨r, target, hkey, same⟩
    · refine (known.bound key b old).imp id fun ⟨c, hc, rest⟩ => ?_
      exact ⟨c, List.mem_append_left _ hc, rest⟩
    · refine .inr ⟨result.1, by simp, r, target, ?_, same⟩
      rw [← known.key_eq, hkey]
  · rcases outputs name h with old | new
    · exact (known.outputs name old).imp (fun ⟨key, h⟩ => ⟨key, grown.lookup h⟩) id
    · exact .inl new

/-- The run of the step over all the names. -/
theorem bindNames (known : Named p w named run) (ds : List DefinedName) :
    Named p w (named ++ (bindNames p.config w ds run).1) (bindNames p.config w ds run).2 := by
  induction ds generalizing named run with
  | nil => simpa [Run.bindNames] using known
  | cons d ds ih =>
    have := ih (known.naming (bindName_naming (d := d) known.layers))
    simpa [Run.bindNames] using this

/-- What binding one name keeps, binding several keeps. -/
theorem bindNames_induction {P : Run → Prop} (known : Named p w named run) (start : P run)
    (step : ∀ {run : Run} {d : DefinedName} {result : Candidate × Run},
      Naming p.config w run d result → P run → P result.2)
    (ds : List DefinedName) : P (Run.bindNames p.config w ds run).2 := by
  induction ds generalizing named run with
  | nil => exact start
  | cons d ds ih =>
    have naming := bindName_naming (c := p.config) (w := w) (d := d) known.layers
    rw [Run.bindNames]
    exact ih (known.naming naming) (step naming start)

/-- The bindings of the aliases are those of inputs, which are declared, and of outputs. -/
theorem declared_or_output (known : Named p w named run) {key : String} {b : Binding}
    (bound : (Run.bindConfig p w).table.binding? key = some b) :
    run.sections.Declares b.identifier ∨
      ∃ o, p.bindings.outputs.find? (fun o => w.key o.reference = key) = some o ∧
        o.name = b.identifier := by
  rw [binding?_bindConfig] at bound
  obtain ⟨cell, first, rfl⟩ := Option.map_eq_some_iff.1 bound
  rw [Plan.cells, List.find?_append, Option.or_eq_some_iff] at first
  rcases first with input | ⟨-, output⟩
  · refine .inl (.inl (known.inputs ?_))
    exact ((bindConfig_spec p w).2.2.1 _).2 ⟨cell, List.mem_of_find?_eq_some input, rfl⟩
  · exact .inr ⟨cell, output, rfl⟩

end Named

/-- The named keys are those of the candidates that stand for cells. -/
theorem mem_namedKeys {t : AliasTable} {candidates : List Candidate} {key : String} :
    key ∈ namedKeys t candidates ↔
      ∃ c ∈ candidates, ∃ r, c.target = .cells r ∧ t.key r none = key := by
  simp only [namedKeys, List.mem_filterMap]
  refine exists_congr fun c => and_congr_right fun _ => ?_
  cases c.target <;> simp

/-- A candidate for an output that has no name is named like it. -/
theorem mem_unnamedOutputs {t : AliasTable} {seen : List String} {outputs : List BoundCell}
    {c : Candidate} (h : c ∈ unnamedOutputs t seen outputs) :
    ∃ o ∈ outputs, c =
      { name := o.name, identifier := o.name, refersTo := o.cell, target := .cells o.reference } := by
  induction outputs generalizing seen with
  | nil => simp [unnamedOutputs] at h
  | cons o outputs ih =>
    have later : ∀ {seen}, c ∈ unnamedOutputs t seen outputs → ∃ o' ∈ o :: outputs, c =
        { name := o'.name, identifier := o'.name, refersTo := o'.cell,
          target := .cells o'.reference } := fun h => by
      obtain ⟨o', ho', eq⟩ := ih h
      exact ⟨o', List.mem_cons_of_mem _ ho', eq⟩
    unfold unnamedOutputs at h
    dsimp only at h
    split at h
    · exact later h
    · rcases List.mem_cons.1 h with rfl | h
      · exact ⟨o, List.mem_cons_self, rfl⟩
      · exact later h

/-- The first output for cells that are not named is a candidate. -/
theorem exists_unnamedOutput {t : AliasTable} {seen : List String} {outputs : List BoundCell}
    {key : String} {o : BoundCell}
    (first : outputs.find? (fun o => t.key o.reference none = key) = some o) (new : key ∉ seen) :
    ∃ c ∈ unnamedOutputs t seen outputs, c.target = .cells o.reference ∧ c.identifier = o.name := by
  induction outputs generalizing seen with
  | nil => simp at first
  | cons o' outputs ih =>
    unfold unnamedOutputs
    dsimp only
    by_cases same : t.key o'.reference none = key
    · obtain rfl : o' = o := by simpa [same] using first
      rw [same, if_neg new]
      exact ⟨_, List.mem_cons_self, rfl, rfl⟩
    · have first : outputs.find? (fun o => t.key o.reference none = key) = some o := by
        simpa [same] using first
      split
      · exact ih first new
      · have new : key ∉ t.key o'.reference none :: seen := by simp [new, Ne.symm same]
        obtain ⟨c, hc, rest⟩ := ih first new
        exact ⟨c, List.mem_cons_of_mem _ hc, rest⟩

/-- Candidates with those of the outputs that have no name. -/
def withOutputs (p : Plan) (t : AliasTable) (named : List Candidate) : List Candidate :=
  named ++ unnamedOutputs t (namedKeys t named) p.bindings.outputs

namespace Named

variable {named : List Candidate}

/-- The cells of every candidate are bound. -/
theorem exists_binding (known : Named p w named run) {c : Candidate}
    (hc : c ∈ withOutputs p run.table named) {r : Reference} (target : c.target = .cells r) :
    ∃ b, run.table.binding? (run.table.key r none) = some b := by
  rw [known.key_eq]
  rcases List.mem_append.1 hc with hc | hc
  · obtain ⟨b, hb, -⟩ := known.candidates c hc r target
    exact ⟨b, hb⟩
  · obtain ⟨o, ho, rfl⟩ := mem_unnamedOutputs hc
    obtain rfl : r = o.reference := (Target.cells.inj target).symm
    have some : (p.cells.find? fun cell => w.key cell.reference = w.key o.reference).isSome :=
      List.find?_isSome.2 ⟨o, List.mem_append_right _ ho, by simp⟩
    obtain ⟨cell, hcell⟩ := Option.isSome_iff_exists.1 some
    exact ⟨_, known.aliases _ _ (by rw [binding?_bindConfig, hcell]; rfl)⟩

/-- Bound cells have a parameter or a candidate with their identifier. -/
theorem exists_candidate (known : Named p w named run) {key : String} {b : Binding}
    (bound : run.table.binding? key = some b) :
    run.sections.Declares b.identifier ∨ ∃ c ∈ withOutputs p run.table named,
      ∃ r, c.target = .cells r ∧ run.table.key r none = key ∧ c.identifier = b.identifier := by
  simp only [known.key_eq]
  rcases known.bound key b bound with config | ⟨c, hc, rest⟩
  · refine (known.declared_or_output config).imp id fun ⟨o, first, name⟩ => ?_
    by_cases seen : key ∈ namedKeys run.table named
    · obtain ⟨c, hc, r, target, hkey⟩ := mem_namedKeys.1 seen
      rw [known.key_eq] at hkey
      obtain ⟨b', hb', same⟩ := known.candidates c hc r target
      obtain rfl : b' = b := Option.some.inj ((hkey ▸ hb').symm.trans bound)
      exact ⟨c, List.mem_append_left _ hc, r, target, hkey, same.symm⟩
    · have hkey : w.key o.reference = key := by simpa using List.find?_some first
      simp only [← known.key_eq] at first
      obtain ⟨c, hc, target, identifier⟩ := exists_unnamedOutput first seen
      exact ⟨c, List.mem_append_right _ hc, o.reference, target, hkey, identifier.trans name⟩
  · exact .inr ⟨c, List.mem_append_left _ hc, rest⟩

/-- When the names are bound nothing is queued, so what is owed is owed by the candidates. -/
theorem accounted (known : Named p w named run) :
    Accounted p (withOutputs p run.table named) run := by
  obtain ⟨-, owners, visited, -, pending⟩ := known.untouched
  refine ⟨by simp [owners], by simp [pending], by simp [visited], fun c hc r target => ?_,
    fun key b bound => (known.exists_candidate bound).imp id fun h => .inr (.inr h)⟩
  obtain ⟨b, bound⟩ := known.exists_binding hc target
  refine ⟨b, bound, fun low => ?_⟩
  have := known.layers _ b bound
  simp [low, Layer.rank] at this

end Named

variable (p w) in
/-- The run after binding is that of all defined names, with the outputs added behind them. -/
theorem exists_named : ∃ named, Named p w named (bind p w).2 ∧
    (bind p w).1 = withOutputs p (bind p w).2.table named := by
  refine ⟨(bindNames p.config w w.names (bindConfig p w)).1, ?_, rfl⟩
  have known := (Named.bindConfig p w).bindNames w.names
  rwa [List.nil_append] at known

/-- Unless the compilation has failed, every bound identifier is accounted for. -/
theorem Point.accounted {left : Nat} (point : Point p w todo left run) (success : run.errors = []) :
    Accounted p todo run := by
  induction point with
  | bound =>
    obtain ⟨named, known, candidates⟩ := exists_named p w
    exact candidates ▸ known.accounted
  | @processed candidate todo left run point ih =>
    have outcome := process_outcome p w run candidate
    obtain ⟨more, errors⟩ := outcome.errors
    rw [success] at errors
    exact (ih (List.append_eq_nil_iff.1 errors.symm).1).processed outcome success
  | found point next parsed ih =>
    refine (ih ?_).found next parsed
    obtain ⟨rest, -, rfl⟩ := next_eq_some next
    exact success
  | unread point next unparsed ih => simp [fail] at success
  | settled point next ih =>
    refine (ih ?_).settled next
    rwa [(next_eq_none next).2] at success
  | stopped point next ih => simp [stop, fail] at success

/-! ### What is read in the end -/

/-- The spelling of the sheets is settled before the first cell is bound. -/
theorem Point.sheets {left : Nat} (point : Point p w todo left run) :
    run.table.sheets = w.sheetTable.sheets := by
  refine point.table_induction (P := fun t => t.sheets = w.sheetTable.sheets) ?_ ?_ ?_
  · obtain ⟨named, known, -⟩ := exists_named p w
    exact known.sheets
  · intro t r current h
    rw [sheets_resolve, h]
  · exact fun t pending h => h

/-- A candidate that becomes a property resolves what its content mentions. -/
theorem reads_of_property {content : Content} (hread : read w candidate = .ok content)
    (kind : (run.factsOf p candidate content).classify = some .properties) :
    run.reads p w candidate = content.reads := by
  simp [Run.reads, hread, kind]

/-- At a point of the compilation with this run, the candidate becomes a property, which is
written from the content. -/
structure Stored (p : Plan) (w : Workbook) (run : Run) (candidate : Candidate) (content : Content)
    (d : Declaration) : Prop where
  point : ∃ todo left, Point p w (candidate :: todo) left run
  hread : read w candidate = .ok content
  kind : (run.factsOf p candidate content).classify = some .properties
  text : ∃ python, (body p candidate run.table content).1 = .ok python ∧
    d = ⟨candidate.identifier,
      Python.substituteInputs (body p candidate run.table content).2.1 run.inputs python⟩

/-- Every property was written at an earlier point, and its text has not changed since. -/
theorem Point.exists_stored {left : Nat} (point : Point p w todo left run) {d : Declaration}
    (h : d ∈ run.sections.properties) : ∃ run' candidate content, Stored p w run' candidate content d := by
  revert h
  refine point.sections_induction (P := (d ∈ ·.properties → _)) (fun h => ?_) ?_
  · obtain ⟨named, known, -⟩ := exists_named p w
    simp [known.untouched.properties] at h
  · intro candidate todo left run point earlier h
    have outcome := process_outcome p w run candidate
    rcases outcome.properties with same | ⟨content, python, hread, kind, written, new⟩
    · exact earlier (same ▸ h)
    · rw [new, List.mem_append, List.mem_singleton] at h
      refine h.elim earlier fun h => ⟨run, candidate, content, ⟨todo, left, point⟩, hread, kind,
        python, written, ?_⟩
      rw [h, outcome.table, body_table, reads_of_property hread kind]

/-- The identifier that a property reads for a reference is the one that its key has in the end. -/
theorem Stored.lookup {content : Content} {d : Declaration}
    (stored : Stored p w run candidate content d) {x : Reference × Option String}
    (hx : x ∈ content.reads) :
    ∃ identifier,
      (body p candidate run.table content).2.1.lookup (w.sheetTable.key x.1 x.2) = some identifier ∧
      (compile p w).table.lookup (w.sheetTable.key x.1 x.2) = some identifier := by
  obtain ⟨todo, left, point⟩ := stored.point
  obtain ⟨b, bound⟩ := exists_binding?_resolveAll hx run.table
  rw [key_congr point.sheets] at bound
  have found : (resolveAll content.reads run.table).2.lookup (w.sheetTable.key x.1 x.2) =
      some b.identifier := by simp [AliasTable.lookup, bound]
  refine ⟨b.identifier, by rw [body_table, found], point.processed.extends_compile.lookup ?_⟩
  rw [(process_outcome p w run candidate).table, reads_of_property stored.hread stored.kind, found]

end Run

end SheetCompiler
