import SheetCompiler.Proofs.Compile.Discovery
import SheetCompiler.Proofs.Compile.DistinctIdentifiers

/-!
# Every name is accounted for

Classifying a candidate has seven ends (`Run.Outcome`), and each of them leaves one trace: a name
that is passed over, a comment, a parameter, a property, a constant or an error. Only a name that
no section takes leaves three, a warning with a comment and a constant. `Run.Tally` is the balance
after some candidates: one more candidate keeps it (`Run.Tally.processed`), so it holds at the end
for the candidates that a compilation has seen, the names first and then what was found in formulas
(`Run.arrivals`).
-/

namespace SheetCompiler

/-- The outputs of the configuration for cells that have neither a defined name nor an earlier
output, counted. -/
def Plan.newOutputs (p : Plan) (w : Workbook) : Nat :=
  p.bindings.outputs.zipIdx.countP fun x =>
    decide (w.key x.1.reference ∉ w.names.filterMap w.namedKey? ∧
      w.key x.1.reference ∉ (p.bindings.outputs.take x.2).map fun o => w.key o.reference)

/-- The comment that lists a name no section takes. -/
def Unclassified.line (u : Unclassified) : String := s!"# {u.name}: {u.reason}"

namespace Run

/-- A candidate, with the state of the compilation in which it is classified. -/
structure Arrival where
  run : Run
  candidate : Candidate

namespace Arrival

variable (p : Plan) (w : Workbook)

/-- The candidate can be read, and this section takes it, or none does. -/
def goesTo (kind : Option SectionKind) (a : Arrival) : Bool :=
  match read w a.candidate with
  | .ok content => (a.run.factsOf p a.candidate content).classify = kind
  | .error _ => false

variable (run : Run) {w} {candidate : Candidate}

theorem goesTo_of_ok {content : Content} (hread : read w candidate = .ok content)
    (kind : Option SectionKind) :
    goesTo p w kind ⟨run, candidate⟩ = decide ((run.factsOf p candidate content).classify = kind) := by
  simp only [goesTo, hread]

theorem goesTo_of_error {e : CompileError} (unread : read w candidate = .error e)
    (kind : Option SectionKind) : goesTo p w kind ⟨run, candidate⟩ = false := by
  simp only [goesTo, unread]

/-- The constant that stands for a name no section takes. -/
def placeholder (a : Arrival) : Declaration := ⟨a.candidate.identifier, "None"⟩

end Arrival

/-! ### The candidates in order -/

/-- Candidates that are classified one after the other. -/
def arrivalsOf (p : Plan) (w : Workbook) : List Candidate → Run → List Arrival
  | [], _ => []
  | candidate :: todo, run =>
    ⟨run, candidate⟩ :: arrivalsOf p w todo (run.process p w candidate)

/-- The cells of a key as the next candidate. -/
def arrivalOfKey (run : Run) (key : String) : List Arrival :=
  match Reference.parse key with
  | .ok r => [⟨{ run with discovered := run.discovered + 1 }, run.discovery key r⟩]
  | .error _ => []

/-- Candidates that are found in formulas, by a run that may follow so many references. -/
def arrivalsFound (p : Plan) (w : Workbook) : Nat → Run → List Arrival
  | 0, _ => []
  | left + 1, run =>
    match run.next with
    | (none, _) => []
    | (some key, run) => run.arrivalOfKey key ++ arrivalsFound p w left (run.follow p w key)

/-- All that a compilation classifies, in order. -/
def arrivals (p : Plan) (w : Workbook) : List Arrival :=
  arrivalsOf p w (bind p w).1 (bind p w).2 ++
    arrivalsFound p w p.config.maxDiscoveries ((bind p w).1.foldl (process p w) (bind p w).2)

/-- The errors other than that references were left. -/
def failures (run : Run) : List CompileError := run.errors.filter fun e => !e.isUnsettled

variable {p : Plan} {w : Workbook} {run run' : Run} {candidate : Candidate} {todo : List Candidate}
  {left : Nat} {seen : List Arrival}

theorem arrivalsFound_of_none (next : run.next = (none, run')) :
    arrivalsFound p w left run = [] := by
  cases left <;> simp [arrivalsFound, next]

theorem arrivalsFound_succ {key : String} (next : run.next = (some key, run')) :
    arrivalsFound p w (left + 1) run =
      run'.arrivalOfKey key ++ arrivalsFound p w left (run'.follow p w key) := by
  rw [arrivalsFound, next]

/-- Each candidate arrives once. -/
theorem length_arrivalsOf (todo : List Candidate) (run : Run) :
    (arrivalsOf p w todo run).length = todo.length := by
  induction todo generalizing run with
  | nil => rfl
  | cons candidate todo ih => rw [arrivalsOf, List.length_cons, List.length_cons, ih]

/-- A key that is taken out of the queue has a made-up identifier and can be read. -/
theorem Point.next_readable (point : Point p w [] left run) {key : String}
    (next : run.next = (some key, run')) :
    run'.table.layerOf key = some .synthesized ∧ ∃ r, Reference.parse key = .ok r := by
  obtain ⟨taken, dropped, progress⟩ := point.progress
  obtain ⟨rest, queue, rfl⟩ := progress.next_eq_some next
  have queued : key ∈ run.table.pending := by simp [queue]
  obtain ⟨r, parsed, -⟩ := progress.queues.readable key queued
  exact ⟨(progress.queues.madeUp key).1 (List.mem_append_right _ queued), r, parsed⟩

/-- What following one reference keeps, following them all keeps, together with the candidates that
are found. -/
theorem Point.discover_induction {P : List Arrival → Run → Prop} (point : Point p w [] left run)
    (start : P seen run)
    (queue : ∀ {seen run} pending, P seen run → P seen { run with table.pending := pending })
    (found : ∀ {seen run key r left},
      Point p w [run.discovery key r] left { run with discovered := run.discovered + 1 } →
      run.table.layerOf key = some .synthesized → P seen run →
      P (seen ++ [⟨{ run with discovered := run.discovered + 1 }, run.discovery key r⟩])
        ({ run with discovered := run.discovered + 1 }.process p w (run.discovery key r)))
    (stop : ∀ {seen run} limit, P seen run → P seen (run.stop limit)) :
    P (seen ++ arrivalsFound p w left run) (Run.discover p w left run) := by
  induction left generalizing seen run with
  | zero =>
    cases next : run.next with
    | mk key run' =>
      rw [arrivalsFound, List.append_nil]
      cases key with
      | none =>
        rw [discover_of_none next, (next_eq_none next).2]
        exact queue [] start
      | some key =>
        -- A key is left when no more may be followed.
        obtain ⟨rest, -, rfl⟩ := next_eq_some next
        rw [discover_zero next]
        exact stop _ (queue rest start)
  | succ left ih =>
    cases next : run.next with
    | mk key run' =>
      cases key with
      | none =>
        rw [discover_of_none next, arrivalsFound_of_none next, List.append_nil,
          (next_eq_none next).2]
        exact queue [] start
      | some key =>
        have later := point.follow next
        obtain ⟨made, r, parsed⟩ := point.next_readable next
        -- The key can be read, so its cells arrive, in front of those that are found after them.
        have arrival : run'.arrivalOfKey key =
            [⟨{ run' with discovered := run'.discovered + 1 }, run'.discovery key r⟩] := by
          simp only [arrivalOfKey, parsed]
        have processed : run'.follow p w key = { run' with discovered := run'.discovered + 1 }.process
            p w (run'.discovery key r) := by
          simp only [Run.follow, parsed, discovery]
        have popped : P seen run' := by
          obtain ⟨rest, -, rfl⟩ := next_eq_some next
          exact queue rest start
        rw [discover_succ next, arrivalsFound_succ next, ← List.append_assoc, arrival]
        refine ih later ?_
        rw [processed]
        exact found (point.found next parsed) made popped

/-! ### The balance -/

@[simp] theorem names_arrive (run : Run) (candidate : Candidate) :
    (run.arrive candidate).names = run.names + 1 := by
  unfold arrive visit
  split <;> rfl

@[simp] theorem warnings_arrive (run : Run) (candidate : Candidate) :
    (run.arrive candidate).warnings = run.warnings := by
  unfold arrive visit
  split <;> rfl

@[simp] theorem names_count (run : Run) (method : BodyMethod) :
    (run.count method).names = run.names := by
  cases method <;> rfl

@[simp] theorem warnings_count (run : Run) (method : BodyMethod) :
    (run.count method).warnings = run.warnings := by
  cases method <;> rfl

/-- All that the sections and the errors hold for candidates, parameters apart. -/
def entries (run : Run) : Nat :=
  run.sections.diagnostics.ignored + run.sections.diagnostics.lines.length +
    run.sections.properties.length + run.sections.constants.length + run.failures.length

/-- What the sections, the warnings and the errors hold once the candidates seen are classified. -/
structure Tally (p : Plan) (w : Workbook) (seen : List Arrival) (run : Run) : Prop where
  names : run.names = seen.length
  total : run.names + run.warnings.length =
    run.entries + seen.countP (·.goesTo p w (some .interface))
  warnings : run.warnings.map (·.name) =
    (seen.filter (·.goesTo p w none)).map (·.candidate.name)
  lines : (run.warnings.map Unclassified.line).Sublist run.sections.diagnostics.lines
  constants : ((seen.filter (·.goesTo p w none)).map Arrival.placeholder).Sublist
    run.sections.constants

/-- A name that is listed or passed over is counted there. -/
theorem diagnose_total (run : Run) (candidate : Candidate) (facts : NameFacts) :
    (run.diagnose candidate facts).entries = run.entries + 1 ∧
      run.sections.diagnostics.lines.Sublist
        (run.diagnose candidate facts).sections.diagnostics.lines := by
  unfold diagnose entries failures
  dsimp only
  split
  · refine ⟨?_, by simp [Diagnostics.broken, Diagnostics.addLine]⟩
    simp only [Diagnostics.broken, Diagnostics.addLine, List.length_append, List.length_singleton]
    omega
  · split
    · refine ⟨?_, by simp [Diagnostics.duplicate, Diagnostics.addLine]⟩
      simp only [Diagnostics.duplicate, Diagnostics.addLine, List.length_append,
        List.length_singleton]
      omega
    · refine ⟨?_, by simp [Diagnostics.ignore]⟩
      simp only [Diagnostics.ignore]
      omega

/-- What a candidate resolves, visits or owns is no entry. -/
theorem entries_congr (sections : run'.sections = run.sections) (errors : run'.errors = run.errors) :
    run'.entries = run.entries := by
  rw [entries, entries, failures, failures, sections, errors]

@[simp] theorem entries_arrive (run : Run) (candidate : Candidate) :
    (run.arrive candidate).entries = run.entries :=
  entries_congr (by simp) (by simp)

/-- An error is an entry, unless it tells of references that were left. -/
theorem entries_fail (run : Run) {e : CompileError} (settled : e.isUnsettled = false) :
    (run.fail e).entries = run.entries + 1 := by
  simp only [entries, failures, fail, List.filter_append, List.length_append]
  simp only [settled, List.filter_cons, List.filter_nil, Bool.not_false, if_true,
    List.length_singleton]
  omega

theorem entries_addConstant (run : Run) (candidate : Candidate) (literal : String) :
    (run.addConstant candidate literal).entries = run.entries + 1 := by
  simp only [addConstant, setOwner, entries, failures, Sections.addConstant, List.length_append,
    List.length_singleton]
  omega

/-- A name that no section takes makes two entries, a comment and a constant. -/
theorem entries_addUnclassified (run : Run) (candidate : Candidate) :
    (run.addUnclassified candidate).entries = run.entries + 2 := by
  unfold addUnclassified
  rw [entries_addConstant]
  simp only [entries, failures, Diagnostics.unclassified, Diagnostics.addLine, List.length_append,
    List.length_singleton]
  omega

/-- A property is added, or there is an error in its place. -/
theorem entries_addProperty (run : Run) (candidate : Candidate) (content : Content) :
    ((run.arrive candidate).addProperty p candidate content).entries = run.entries + 1 := by
  cases written : (body p candidate run.table content).1 with
  | ok python =>
    rw [addProperty_of_ok written]
    simp only [setOwner, entries, failures, Sections.addProperty, sections_count, sections_arrive,
      errors_count, errors_arrive, List.length_append, List.length_singleton]
    omega
  | error e =>
    rw [addProperty_of_error written, entries_fail _ (body_error written)]
    exact congrArg (· + 1) (entries_congr (by simp) (by simp))

namespace Tally

/-- A candidate that some section takes, or that fails, leaves one trace. -/
theorem step (tally : Tally p w seen run)
    (taken : Arrival.goesTo p w none ⟨run, candidate⟩ = false)
    (names : run'.names = run.names + 1) (warnings : run'.warnings = run.warnings)
    (lines : run.sections.diagnostics.lines.Sublist run'.sections.diagnostics.lines)
    (constants : run.sections.constants.Sublist run'.sections.constants)
    (trace : run'.entries + (Arrival.goesTo p w (some .interface) ⟨run, candidate⟩).toNat =
      run.entries + 1) :
    Tally p w (seen ++ [⟨run, candidate⟩]) run' := by
  have others : (seen ++ [Arrival.mk run candidate]).filter (·.goesTo p w none) =
      seen.filter (·.goesTo p w none) := by
    simp [taken]
  refine ⟨by simp [names, tally.names], ?_, ?_, ?_, ?_⟩
  · have total := tally.total
    have parameters : (seen ++ [Arrival.mk run candidate]).countP
        (·.goesTo p w (some .interface)) = seen.countP (·.goesTo p w (some .interface)) +
          (Arrival.goesTo p w (some .interface) ⟨run, candidate⟩).toNat := by
      cases h : Arrival.goesTo p w (some .interface) ⟨run, candidate⟩ <;> simp [h]
    rw [names, warnings, parameters]
    omega
  · rw [warnings, others, tally.warnings]
  · rw [warnings]
    exact tally.lines.trans lines
  · rw [others]
    exact tally.constants.trans constants

/-- A name that no section takes leaves a warning, a comment and a constant. -/
theorem unclassified (tally : Tally p w seen run)
    (untaken : Arrival.goesTo p w none ⟨run, candidate⟩ = true)
    (elsewhere : Arrival.goesTo p w (some .interface) ⟨run, candidate⟩ = false) :
    Tally p w (seen ++ [⟨run, candidate⟩]) ((run.arrive candidate).addUnclassified candidate) := by
  refine ⟨?_, ?_, ?_, ?_, ?_⟩
  · simp [addUnclassified, addConstant, setOwner, tally.names]
  · have total := tally.total
    have names : ((run.arrive candidate).addUnclassified candidate).names = run.names + 1 := by
      simp [addUnclassified, addConstant, setOwner]
    have warnings : ((run.arrive candidate).addUnclassified candidate).warnings.length =
        run.warnings.length + 1 := by
      simp [addUnclassified, addConstant, setOwner]
    have parameters : (seen ++ [Arrival.mk run candidate]).countP
        (·.goesTo p w (some .interface)) = seen.countP (·.goesTo p w (some .interface)) := by
      simp [elsewhere]
    rw [names, warnings, parameters, entries_addUnclassified, entries_arrive]
    omega
  · simp [addUnclassified, addConstant, setOwner, untaken, tally.warnings]
  · simp only [addUnclassified, addConstant, setOwner, Sections.addConstant,
      Diagnostics.unclassified, Diagnostics.addLine, sections_arrive, warnings_arrive,
      List.map_append, List.map_singleton]
    exact tally.lines.append (.refl _)
  · simp only [addUnclassified, addConstant, setOwner, Sections.addConstant, sections_arrive,
      List.filter_append, List.map_append]
    refine tally.constants.append ?_
    simp [untaken, Arrival.placeholder]

/-- One more candidate keeps the balance, whatever becomes of it. -/
theorem outcome (tally : Tally p w seen run) (outcome : Outcome p w run candidate run') :
    Tally p w (seen ++ [⟨run, candidate⟩]) run' := by
  cases outcome with
  | unreadable e unread =>
    have goes := Arrival.goesTo_of_error p run unread
    refine tally.step (goes none) rfl rfl (.refl _) (.refl _) ?_
    rw [goes, entries_fail _ (read_error unread)]
    rfl
  | diagnosed content hread kind =>
    have goes := Arrival.goesTo_of_ok p run hread
    obtain ⟨trace, lines⟩ := diagnose_total (run.arrive candidate) candidate
      (run.factsOf p candidate content)
    refine tally.step (by simp [goes, kind]) (by simp [diagnose]) (by simp [diagnose])
      (by simpa using lines) (by simp [diagnose]) ?_
    simp [goes, kind, trace]
  | input content hread kind =>
    have goes := Arrival.goesTo_of_ok p run hread
    refine tally.step (by simp [goes, kind]) (by simp [setOwner]) (by simp [setOwner])
      (by simp [setOwner]) (by simp [setOwner]) ?_
    have kept : ((run.arrive candidate).setOwner candidate).entries = run.entries :=
      entries_arrive run candidate
    simp [goes, kind, kept]
  | property content python hread kind written =>
    have goes := Arrival.goesTo_of_ok p run hread
    have added := addProperty_of_ok written
    refine tally.step (by simp [goes, kind]) (by simp [added, setOwner]) (by simp [added, setOwner])
      (by simp [added, setOwner, Sections.addProperty])
      (by simp [added, setOwner, Sections.addProperty]) ?_
    simp [goes, kind, entries_addProperty]
  | unwritten content e hread kind failed =>
    have goes := Arrival.goesTo_of_ok p run hread
    have added := addProperty_of_error failed
    refine tally.step (by simp [goes, kind]) (by simp [added, fail]) (by simp [added, fail])
      (by simp [added, fail]) (by simp [added, fail]) ?_
    simp [goes, kind, entries_addProperty]
  | constant content hread kind =>
    have goes := Arrival.goesTo_of_ok p run hread
    refine tally.step (by simp [goes, kind]) (by simp [addConstant, setOwner])
      (by simp [addConstant, setOwner]) (by simp [addConstant, setOwner, Sections.addConstant])
      (by simp [addConstant, setOwner, Sections.addConstant]) ?_
    simp [goes, kind, entries_addConstant]
  | unclassified content hread kind =>
    have goes := Arrival.goesTo_of_ok p run hread
    exact tally.unclassified (by simp [goes, kind]) (by simp [goes, kind])

/-- The run over several candidates. -/
theorem foldl_process (tally : Tally p w seen run) (todo : List Candidate) :
    Tally p w (seen ++ arrivalsOf p w todo run) (todo.foldl (process p w) run) := by
  induction todo generalizing seen run with
  | nil => simpa [arrivalsOf] using tally
  | cons candidate todo ih =>
    have := ih (tally.outcome (process_outcome p w run candidate))
    simpa [arrivalsOf] using this

/-- Only what is written of the state counts, and neither the queue nor errors that tell of
references that were left. -/
theorem congr (tally : Tally p w seen run) (names : run'.names = run.names)
    (warnings : run'.warnings = run.warnings) (sections : run'.sections = run.sections)
    (failures : run'.failures = run.failures) : Tally p w seen run' := by
  have entries : run'.entries = run.entries := by rw [entries, entries, sections, failures]
  obtain ⟨h₁, h₂, h₃, h₄, h₅⟩ := tally
  exact ⟨by rw [names, h₁], by rw [names, warnings, entries, h₂], by rw [warnings, h₃],
    by rw [warnings, sections]; exact h₄, by rw [sections]; exact h₅⟩

end Tally

variable (p w) in
/-- Nothing is counted before the first candidate. -/
theorem tally_bind : Tally p w [] (bind p w).2 := by
  obtain ⟨table, interface, inputs, h⟩ := justBound_bind p w
  rw [h]
  exact ⟨rfl, rfl, rfl, .refl _, .refl _⟩

variable (p w) in
/-- The balance at the end, when as many candidates were found as references were followed. -/
theorem tally_compile : Tally p w (arrivals p w) (compile p w) ∧
    (arrivals p w).length = (bind p w).1.length + (compile p w).discovered := by
  have named := (tally_bind p w).foldl_process (bind p w).1
  have none : ((bind p w).1.foldl (process p w) (bind p w).2).discovered = 0 := by
    refine List.foldlRecOn (motive := fun run : Run => run.discovered = 0) _ _
      (discovered_bind p w) ?_
    intro run none candidate _
    exact (process_outcome p w run candidate).keeps.1.trans none
  refine Point.bound.foldl_process.discover_induction
    (P := fun seen run => Tally p w seen run ∧ seen.length = (bind p w).1.length + run.discovered)
    ⟨named, ?_⟩ ?_ ?_ ?_
  · rw [none, length_arrivalsOf]
    rfl
  · exact fun pending ⟨tally, count⟩ => ⟨tally.congr rfl rfl rfl rfl, count⟩
  · rintro seen run key r left - - ⟨tally, count⟩
    have outcome := process_outcome p w { run with discovered := run.discovered + 1 }
      (run.discovery key r)
    refine ⟨Tally.outcome ?_ outcome, ?_⟩
    · exact tally.congr rfl rfl rfl rfl
    · rw [List.length_append, outcome.keeps.1, count]
      rfl
  · rintro seen run limit ⟨tally, count⟩
    exact ⟨tally.congr rfl rfl rfl (by simp [failures, stop, fail]), count⟩

/-! ### How many names there are -/

/-- Each name becomes one candidate. -/
theorem length_bindNames (c : Config) (w : Workbook) (ds : List DefinedName) (run : Run) :
    (bindNames c w ds run).1.length = ds.length := by
  induction ds generalizing run with
  | nil => rfl
  | cons d ds ih => rw [bindNames, List.length_cons, List.length_cons, ih]

/-- The outputs that become candidates, counted. -/
theorem length_unnamedOutputs (t : AliasTable) (outputs : List BoundCell) (known : List String) :
    (unnamedOutputs t known outputs).length = outputs.zipIdx.countP fun x =>
      decide (t.key x.1.reference none ∉ known ∧
        t.key x.1.reference none ∉ (outputs.take x.2).map fun o => t.key o.reference none) := by
  induction outputs generalizing known with
  | nil => rfl
  | cons o outputs ih =>
    rw [unnamedOutputs, List.zipIdx_cons, List.countP_cons, List.zipIdx_succ, List.countP_map]
    dsimp only
    split
    next old =>
      simp only [ih, old, not_true_eq_false, false_and, decide_false, Bool.false_eq_true, if_false,
        Nat.add_zero]
      refine List.countP_congr fun x _ => ?_
      simp only [Function.comp_apply, List.take_succ_cons, List.map_cons, List.mem_cons, not_or,
        decide_eq_true_eq]
      -- A key like that of the first output is known anyway.
      exact and_congr_right fun new => (and_iff_right fun same => new (by rwa [same])).symm
    next new =>
      simp only [List.length_cons, ih, new, not_false_eq_true, List.take_zero, List.map_nil,
        List.not_mem_nil, and_self, decide_true, if_true]
      congr 1
      refine List.countP_congr fun x _ => ?_
      simp only [Function.comp_apply, List.take_succ_cons, List.map_cons, List.mem_cons, not_or,
        decide_eq_true_eq]
      tauto

theorem target_bindName (c : Config) (w : Workbook) (run : Run) (d : DefinedName) :
    (run.bindName c w d).1.target = d.target := by
  rw [bindName]

/-- The keys of the candidates that the names become are those of the names. -/
theorem namedKeys_bindNames {t : AliasTable} (keys : ∀ r, t.key r none = w.key r) (c : Config)
    (ds : List DefinedName) (run : Run) :
    namedKeys t (bindNames c w ds run).1 = ds.filterMap w.namedKey? := by
  induction ds generalizing run with
  | nil => rfl
  | cons d ds ih =>
    have first := target_bindName c w run d
    have rest := ih (run.bindName c w d).2
    unfold namedKeys at rest ⊢
    rw [bindNames, List.filterMap_cons, List.filterMap_cons, rest, first, Workbook.namedKey?]
    cases d.target <;> simp [keys]

variable (p w) in
/-- The candidates are the names, and the outputs that have none. -/
theorem length_bind : (bind p w).1.length = w.names.length + p.newOutputs w := by
  obtain ⟨named, known, -⟩ := exists_named p w
  have candidates : (bind p w).1 = withOutputs p (bind p w).2.table
      (bindNames p.config w w.names (bindConfig p w)).1 := rfl
  rw [candidates, withOutputs, List.length_append, length_bindNames, length_unnamedOutputs,
    namedKeys_bindNames known.key_eq]
  simp only [known.key_eq, Plan.newOutputs]

/-- **Every name is accounted for once.** A compilation classifies the defined names, the outputs
without a name and what it finds in formulas, and nothing else. Each of them is passed over, listed
in a comment of its own, a parameter, a property, a constant or an error. Besides, a name that no
section takes has a warning, with a comment and a constant of its own. -/
theorem names_accounted (p : Plan) (w : Workbook) (time : String) :
    let report := (p.compile w time).report
    let sections := (compile p w).sections
    let lines := sections.diagnostics.lines
    let untaken := (arrivals p w).filter (·.goesTo p w none)
    report.names = w.names.length + p.newOutputs w + report.discovered ∧
    report.warnings.length ≤ lines.length ∧
    report.names = sections.diagnostics.ignored + (lines.length - report.warnings.length) +
      (arrivals p w).countP (·.goesTo p w (some .interface)) + report.properties +
      report.constants + (report.errors.filter fun e => !e.isUnsettled).length ∧
    report.warnings.map (·.name) = untaken.map (·.candidate.name) ∧
    (report.warnings.map Unclassified.line).Sublist lines ∧
    (untaken.map Arrival.placeholder).Sublist sections.constants := by
  obtain ⟨tally, count⟩ := tally_compile p w
  have lines : (compile p w).warnings.length ≤ (compile p w).sections.diagnostics.lines.length := by
    simpa using tally.lines.length_le
  refine ⟨?_, lines, ?_, tally.warnings, tally.lines, tally.constants⟩
  · rw [← length_bind]
    exact tally.names.trans count
  · have total := tally.total
    unfold entries failures at total
    have reported : (p.compile w time).report = (compile p w).report := rfl
    simp only [reported, report]
    omega

end Run

end SheetCompiler
