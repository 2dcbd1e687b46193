import SheetCompiler.Compile.Report
import SheetCompiler.Proofs.Compile.Reads

/-!
# The points of a compilation

A compilation binds its names, then classifies one candidate after the other, then follows the
references that have turned up. `Run.Outcome` says once what classifying a candidate can do;
`Run.Point` lists the states a compilation goes through, each with the candidates that are left.
All that happens to the alias table on the way is that references are resolved
(`Run.Outcome.table`) and queued keys are taken out.
-/

namespace SheetCompiler

open AliasTable

/-- The identifier is a parameter of the constructor, a property or a constant. -/
def Sections.Declares (s : Sections) (identifier : String) : Prop :=
  identifier ∈ s.interface.inputs ∨ (∃ d ∈ s.properties, d.identifier = identifier) ∨
    ∃ d ∈ s.constants, d.identifier = identifier

instance (s : Sections) (identifier : String) : Decidable (s.Declares identifier) :=
  inferInstanceAs (Decidable (_ ∨ _ ∨ _))

theorem Sections.declares_addProperty (s : Sections) (identifier text : String) :
    (s.addProperty identifier text).Declares identifier :=
  .inr (.inl ⟨⟨identifier, text⟩, by simp [addProperty], rfl⟩)

theorem Sections.declares_addConstant (s : Sections) (identifier text : String) :
    (s.addConstant identifier text).Declares identifier :=
  .inr (.inr ⟨⟨identifier, text⟩, by simp [addConstant], rfl⟩)

theorem NameFacts.fits_of_classify {f : NameFacts} {kind : SectionKind}
    (h : f.classify = some kind) : f.fits kind :=
  List.find?_some h

namespace Run

/-! ### Classifying a candidate -/

section

variable (p : Plan) (w : Workbook) (run : Run) (candidate : Candidate)

/-- The run when a candidate has been read. -/
def arrive : Run := { run with names := run.names + 1 }.visit candidate.target

@[simp] theorem table_arrive : (run.arrive candidate).table = run.table := by
  unfold arrive visit
  split <;> rfl

@[simp] theorem sections_arrive : (run.arrive candidate).sections = run.sections := by
  unfold arrive visit
  split <;> rfl

@[simp] theorem errors_arrive : (run.arrive candidate).errors = run.errors := by
  unfold arrive visit
  split <;> rfl

@[simp] theorem owners_arrive : (run.arrive candidate).owners = run.owners := by
  unfold arrive visit
  split <;> rfl

@[simp] theorem inputs_arrive : (run.arrive candidate).inputs = run.inputs := by
  unfold arrive visit
  split <;> rfl

@[simp] theorem table_count (method : BodyMethod) : (run.count method).table = run.table := by
  cases method <;> rfl

@[simp] theorem sections_count (method : BodyMethod) :
    (run.count method).sections = run.sections := by
  cases method <;> rfl

@[simp] theorem errors_count (method : BodyMethod) : (run.count method).errors = run.errors := by
  cases method <;> rfl

@[simp] theorem owners_count (method : BodyMethod) : (run.count method).owners = run.owners := by
  cases method <;> rfl

@[simp] theorem visited_count (method : BodyMethod) :
    (run.count method).visited = run.visited := by
  cases method <;> rfl

@[simp] theorem inputs_count (method : BodyMethod) : (run.count method).inputs = run.inputs := by
  cases method <;> rfl

/-- What is known about a candidate when it is classified. -/
def factsOf (content : Content) : NameFacts :=
  facts p.config (run.arrive candidate) candidate content

/-- The ways in which classifying a candidate can end. -/
inductive Outcome : Run → Prop
  | unreadable (e : CompileError) (unread : read w candidate = .error e) :
    Outcome ({ run with names := run.names + 1 }.fail e)
  | diagnosed (content : Content) (hread : read w candidate = .ok content)
    (kind : (run.factsOf p candidate content).classify = some .diagnostics) :
    Outcome ((run.arrive candidate).diagnose candidate (run.factsOf p candidate content))
  | input (content : Content) (hread : read w candidate = .ok content)
    (kind : (run.factsOf p candidate content).classify = some .interface) :
    Outcome ((run.arrive candidate).setOwner candidate)
  | property (content : Content) (python : String) (hread : read w candidate = .ok content)
    (kind : (run.factsOf p candidate content).classify = some .properties)
    (written : (body p candidate run.table content).1 = .ok python) :
    Outcome ((run.arrive candidate).addProperty p candidate content)
  | unwritten (content : Content) (e : CompileError) (hread : read w candidate = .ok content)
    (kind : (run.factsOf p candidate content).classify = some .properties)
    (failed : (body p candidate run.table content).1 = .error e) :
    Outcome ((run.arrive candidate).addProperty p candidate content)
  | constant (content : Content) (hread : read w candidate = .ok content)
    (kind : (run.factsOf p candidate content).classify = some .constants) :
    Outcome ((run.arrive candidate).addConstant candidate (literal p.config content))
  | unclassified (content : Content) (hread : read w candidate = .ok content)
    (kind : (run.factsOf p candidate content).classify = none) :
    Outcome ((run.arrive candidate).addUnclassified candidate)

/-- Classifying a candidate ends in one of these ways. -/
theorem process_outcome : Outcome p w run candidate (run.process p w candidate) := by
  unfold process
  dsimp only
  cases hread : read w candidate with
  | error e => exact .unreadable e hread
  | ok content =>
    have arrived : { run with names := run.names + 1 }.visit candidate.target =
        run.arrive candidate := rfl
    have known : facts p.config (run.arrive candidate) candidate content =
        run.factsOf p candidate content := rfl
    simp only [arrived, known]
    split
    next kind => exact .diagnosed content hread kind
    next kind => exact .input content hread kind
    next kind =>
      cases written : (body p candidate run.table content).1 with
      | ok python => exact .property content python hread kind written
      | error e => exact .unwritten content e hread kind written
    next kind => exact .constant content hread kind
    next kind => exact .unclassified content hread kind

/-- What classifying a candidate resolves: what its body reads, if it becomes a property. -/
def reads : Reads :=
  match read w candidate with
  | .error _ => []
  | .ok content =>
    if (run.factsOf p candidate content).classify = some .properties then content.reads else []

section

variable {p run candidate} {content : Content}

/-- A body that is written is stored, with the inputs in the place of their cells. -/
theorem addProperty_of_ok {python : String}
    (written : (body p candidate run.table content).1 = .ok python) :
    (run.arrive candidate).addProperty p candidate content =
      let table := (body p candidate run.table content).2.1
      let run := { run.arrive candidate with table }.count (body p candidate run.table content).2.2
      { run with
        sections := run.sections.addProperty candidate.identifier
          (Python.substituteInputs table run.inputs python) }.setOwner candidate := by
  unfold addProperty
  simp only [table_arrive, written]

/-- A body that cannot be written is an error, but keeps what it has resolved. -/
theorem addProperty_of_error {e : CompileError}
    (failed : (body p candidate run.table content).1 = .error e) :
    (run.arrive candidate).addProperty p candidate content =
      ({ run.arrive candidate with table := (body p candidate run.table content).2.1 }.count
        (body p candidate run.table content).2.2).fail e := by
  unfold addProperty
  simp only [table_arrive, failed]

end

end

namespace Outcome

variable {p : Plan} {w : Workbook} {run run' : Run} {candidate : Candidate}
  (outcome : Outcome p w run candidate run')

include outcome

/-- Classifying resolves references, and does nothing else to the table. -/
theorem table : run'.table = (resolveAll (run.reads p w candidate) run.table).2 := by
  unfold reads
  cases outcome with
  | unreadable e unread => simp [unread, fail, resolveAll]
  | diagnosed content hread kind => simp [hread, kind, diagnose, resolveAll]
  | input content hread kind => simp [hread, kind, setOwner, resolveAll]
  | constant content hread kind => simp [hread, kind, addConstant, setOwner, resolveAll]
  | unclassified content hread kind =>
    simp [hread, kind, addUnclassified, addConstant, setOwner, resolveAll]
  | property content python hread kind written =>
    simp [addProperty_of_ok written, setOwner, hread, kind, body_table]
  | unwritten content e hread kind failed =>
    simp [addProperty_of_error failed, fail, hread, kind, body_table]

/-- Errors are only added. -/
theorem errors : ∃ more, run'.errors = run.errors ++ more := by
  cases outcome with
  | unreadable e unread => exact ⟨[e], rfl⟩
  | diagnosed | input => exact ⟨[], by simp [diagnose, setOwner]⟩
  | constant | unclassified => exact ⟨[], by simp [addUnclassified, addConstant, setOwner]⟩
  | property content python hread kind written =>
    exact ⟨[], by simp [addProperty_of_ok written, setOwner]⟩
  | unwritten content e hread kind failed =>
    exact ⟨[e], by simp [addProperty_of_error failed, fail]⟩

/-- The interface is settled before the first candidate is classified. -/
theorem interface : run'.sections.interface = run.sections.interface := by
  cases outcome with
  | unreadable => rfl
  | diagnosed | input | constant | unclassified =>
    simp [diagnose, addUnclassified, addConstant, setOwner, Sections.addConstant]
  | property content python hread kind written =>
    simp [addProperty_of_ok written, setOwner, Sections.addProperty]
  | unwritten content e hread kind failed =>
    simp [addProperty_of_error failed, fail]

/-- At most one constant is added, at the end and for the candidate. -/
theorem constants :
    run'.sections.constants = run.sections.constants ∨
      ∃ text, run'.sections.constants = run.sections.constants ++ [⟨candidate.identifier, text⟩] := by
  cases outcome with
  | unreadable => exact .inl rfl
  | diagnosed | input => exact .inl (by simp [diagnose, setOwner])
  | constant | unclassified =>
    exact .inr ⟨_, by simp [addUnclassified, addConstant, setOwner, Sections.addConstant]; rfl⟩
  | property content python hread kind written =>
    exact .inl (by simp [addProperty_of_ok written, setOwner, Sections.addProperty])
  | unwritten content e hread kind failed =>
    exact .inl (by simp [addProperty_of_error failed, fail])

/-- A property is added at the end, with a body that was written from what the candidate is. -/
theorem properties :
    run'.sections.properties = run.sections.properties ∨
      ∃ content python, read w candidate = .ok content ∧
        (run.factsOf p candidate content).classify = some .properties ∧
        (body p candidate run.table content).1 = .ok python ∧
        run'.sections.properties = run.sections.properties ++ [⟨candidate.identifier,
          Python.substituteInputs run'.table run.inputs python⟩] := by
  cases outcome with
  | unreadable => exact .inl rfl
  | diagnosed | input | constant | unclassified =>
    exact .inl (by simp [diagnose, addUnclassified, addConstant, setOwner, Sections.addConstant])
  | property content python hread kind written =>
    refine .inr ⟨content, python, hread, kind, written, ?_⟩
    simp [addProperty_of_ok written, setOwner, Sections.addProperty]
  | unwritten content e hread kind failed =>
    exact .inl (by simp [addProperty_of_error failed, fail])

/-- What is declared stays declared. -/
theorem declares {identifier : String} (h : run.sections.Declares identifier) :
    run'.sections.Declares identifier := by
  rcases h with input | ⟨d, mem, rfl⟩ | ⟨d, mem, rfl⟩
  · exact .inl (by rwa [outcome.interface])
  · refine .inr (.inl ⟨d, ?_, rfl⟩)
    rcases outcome.properties with eq | ⟨_, _, -, -, -, eq⟩ <;> simp [eq, mem]
  · refine .inr (.inr ⟨d, ?_, rfl⟩)
    rcases outcome.constants with eq | ⟨_, eq⟩ <;> simp [eq, mem]

/-- Unless the run has failed, the identifier is declared, or the candidate has turned out to be
unusable. -/
theorem settled (success : run'.errors = []) :
    ∃ content, read w candidate = .ok content ∧
      ((run.factsOf p candidate content).isUnusable ∧ run'.owners = run.owners ∨
        run'.sections.Declares candidate.identifier ∧
          run'.owners = Assoc.insert candidate.identifier candidate.name run.owners) := by
  cases outcome with
  | unreadable => simp [fail] at success
  | diagnosed content hread kind =>
    exact ⟨content, hread, .inl ⟨NameFacts.fits_of_classify kind, by simp [diagnose]⟩⟩
  | input content hread kind =>
    refine ⟨content, hread, .inr ⟨.inl ?_, by simp [setOwner]⟩⟩
    simpa [NameFacts.fits, factsOf, facts, Interface.hasInput, setOwner]
      using NameFacts.fits_of_classify kind
  | constant content hread kind | unclassified content hread kind =>
    refine ⟨content, hread, .inr ⟨Sections.declares_addConstant _ _ _, ?_⟩⟩
    simp [addUnclassified, addConstant, setOwner]
  | property content python hread kind written =>
    rw [addProperty_of_ok written]
    refine ⟨content, hread, .inr ⟨Sections.declares_addProperty _ _ _, ?_⟩⟩
    simp [setOwner]
  | unwritten content e hread kind failed =>
    simp [addProperty_of_error failed, fail] at success

/-- Only the cells of the candidate are new among those that were read. -/
theorem visited : run'.visited ⊆ (run.arrive candidate).visited := by
  cases outcome with
  | unreadable =>
    unfold arrive visit
    split <;> simp [fail]
  | diagnosed | input | constant | unclassified =>
    simp [diagnose, addUnclassified, addConstant, setOwner]
  | property content python hread kind written =>
    simp [addProperty_of_ok written, setOwner]
  | unwritten content e hread kind failed =>
    simp [addProperty_of_error failed, fail]

end Outcome

/-! ### Following references -/

/-- Cells that were read are dropped from the queue, and the next ones are taken out. -/
theorem next_eq_some {run run' : Run} {key : String} (h : run.next = (some key, run')) :
    ∃ rest, run.table.pending.dropWhile (· ∈ run.visited) = key :: rest ∧
      run' = { run with table.pending := rest } := by
  simp only [next, pop] at h
  split at h
  next => simp at h
  next key' rest queue =>
    simp only [Prod.mk.injEq, Option.some.injEq] at h
    obtain ⟨rfl, rfl⟩ := h
    exact ⟨rest, queue, rfl⟩

/-- There is nothing left to follow once all cells in the queue were read. -/
theorem next_eq_none {run run' : Run} (h : run.next = (none, run')) :
    run.table.pending.dropWhile (· ∈ run.visited) = [] ∧
      run' = { run with table.pending := [] } := by
  simp only [next, pop] at h
  split at h
  next queue =>
    simp only [Prod.mk.injEq, true_and] at h
    exact ⟨queue, by rw [← h, queue]⟩
  next => simp at h

/-- The cells of a key as a candidate. -/
def discovery (run : Run) (key : String) (r : Reference) : Candidate :=
  let identifier := (run.table.lookup key).getD ""
  { name := identifier, identifier, refersTo := key, target := .cells r, discovered := true }

/-- A state that a compilation goes through, once its names are bound, with the candidates that
are to be classified before the next reference is followed, and how many of those may be. -/
inductive Point (p : Plan) (w : Workbook) : List Candidate → Nat → Run → Prop
  | bound : Point p w (bind p w).1 p.config.maxDiscoveries (bind p w).2
  | processed {candidate : Candidate} {todo : List Candidate} {left : Nat} {run : Run}
    (point : Point p w (candidate :: todo) left run) :
    Point p w todo left (run.process p w candidate)
  | found {left : Nat} {run run' : Run} {key : String} {r : Reference}
    (point : Point p w [] (left + 1) run) (next : run.next = (some key, run'))
    (parsed : Reference.parse key = .ok r) :
    Point p w [run'.discovery key r] left { run' with discovered := run'.discovered + 1 }
  | unread {left : Nat} {run run' : Run} {key : String} {e : ReferenceError}
    (point : Point p w [] (left + 1) run) (next : run.next = (some key, run'))
    (unparsed : Reference.parse key = .error e) :
    Point p w [] left (run'.fail (.region key (.reference e)))
  | settled {left : Nat} {run run' : Run} (point : Point p w [] left run)
    (next : run.next = (none, run')) : Point p w [] left run'
  | stopped {run run' : Run} {key : String} (point : Point p w [] 0 run)
    (next : run.next = (some key, run')) : Point p w [] 0 (run'.stop p.config.maxDiscoveries)

section

variable {p : Plan} {w : Workbook} {left : Nat} {run : Run}

/-- All candidates that are left can be classified one after the other. -/
theorem Point.foldl_process {todo : List Candidate} (point : Point p w todo left run) :
    Point p w [] left (todo.foldl (process p w) run) := by
  induction todo generalizing run with
  | nil => exact point
  | cons candidate todo ih => exact ih point.processed

/-- Following a key goes through one further point, with the cells of the key as the only candidate.
-/
theorem Point.follow {run' : Run} {key : String} (point : Point p w [] (left + 1) run)
    (next : run.next = (some key, run')) : Point p w [] left (run'.follow p w key) := by
  unfold Run.follow
  split
  next unparsed => exact point.unread next unparsed
  next parsed => exact (point.found next parsed).processed

theorem discover_of_none {run' : Run} (next : run.next = (none, run')) :
    Run.discover p w left run = run' := by
  cases left <;> simp [Run.discover, next]

theorem discover_zero {run' : Run} {key : String} (next : run.next = (some key, run')) :
    Run.discover p w 0 run = run'.stop p.config.maxDiscoveries := by
  simp [Run.discover, next]

theorem discover_succ {run' : Run} {key : String} (next : run.next = (some key, run')) :
    Run.discover p w (left + 1) run = Run.discover p w left (run'.follow p w key) := by
  rw [Run.discover, next]

/-- Following references ends at a point that has failed or has none left to follow. -/
theorem Point.discover (point : Point p w [] left run) :
    ∃ rest, Point p w [] rest (discover p w left run) ∧
      ((Run.discover p w left run).errors = [] → (Run.discover p w left run).table.pending = []) := by
  induction left generalizing run with
  | zero =>
    cases next : run.next with
    | mk key run' =>
      cases key with
      | none =>
        rw [discover_of_none next]
        exact ⟨0, point.settled next, fun _ => by rw [(next_eq_none next).2]⟩
      | some key =>
        rw [discover_zero next]
        exact ⟨0, point.stopped next, by simp [stop, fail]⟩
  | succ left ih =>
    cases next : run.next with
    | mk key run' =>
      cases key with
      | none =>
        rw [discover_of_none next]
        exact ⟨_, point.settled next, fun _ => by rw [(next_eq_none next).2]⟩
      | some key =>
        rw [discover_succ next]
        exact ih (point.follow next)

variable (p w) in
/-- A compilation ends at a point where nothing is left to classify, and where the queue is empty
unless it has failed. -/
theorem exists_point_compile :
    ∃ left, Point p w [] left (compile p w) ∧
      ((compile p w).errors = [] → (compile p w).table.pending = []) :=
  Point.bound.foldl_process.discover

/-- What binding establishes and resolving keeps holds of the table at every point, unless it
depends on the queue. -/
theorem Point.table_induction {P : AliasTable → Prop} {todo : List Candidate}
    (point : Point p w todo left run) (bound : P (bind p w).2.table)
    (resolve : ∀ t r current, P t → P (t.resolve r current).2)
    (queue : ∀ t pending, P t → P { t with pending }) : P run.table := by
  induction point with
  | bound => exact bound
  | processed point ih =>
    rw [(process_outcome p w _ _).table]
    exact resolveAll_induction ih fun t x _ => resolve t x.1 x.2
  | found point next parsed ih =>
    obtain ⟨rest, -, rfl⟩ := next_eq_some next
    exact queue _ rest ih
  | unread point next unparsed ih =>
    obtain ⟨rest, -, rfl⟩ := next_eq_some next
    exact queue _ rest ih
  | settled point next ih =>
    rw [(next_eq_none next).2]
    exact queue _ [] ih
  | stopped point next ih =>
    obtain ⟨rest, -, rfl⟩ := next_eq_some next
    exact queue _ [] (queue _ rest ih)

/-- What binding establishes and classifying a candidate keeps holds of the sections at every
point. -/
theorem Point.sections_induction {P : Sections → Prop} {todo : List Candidate}
    (point : Point p w todo left run) (bound : P (bind p w).2.sections)
    (processed : ∀ {candidate todo left run}, Point p w (candidate :: todo) left run →
      P run.sections → P (run.process p w candidate).sections) : P run.sections := by
  induction point with
  | bound => exact bound
  | processed point ih => exact processed point ih
  | found point next parsed ih | unread point next unparsed ih | stopped point next ih =>
    obtain ⟨rest, -, rfl⟩ := next_eq_some next
    exact ih
  | settled point next ih =>
    rw [(next_eq_none next).2]
    exact ih

/-- The interface is the same at every point. -/
theorem Point.interface {todo : List Candidate} (point : Point p w todo left run) :
    run.sections.interface = (bind p w).2.sections.interface := by
  refine point.sections_induction (P := (·.interface = _)) rfl fun point kept => ?_
  rw [(process_outcome p w _ _).interface, kept]

/-! ### From a point to the end -/

/-- With an empty queue, nothing happens any more. -/
theorem next_of_empty (empty : run.table.pending = []) : run.next = (none, run) := by
  obtain ⟨table, _⟩ := run
  obtain ⟨_⟩ := table
  simp only at empty
  simp [Run.next, AliasTable.pop, empty]

/-- The rest of the compilation leads from every point to the same end. -/
theorem Point.discover_eq {todo : List Candidate} (point : Point p w todo left run) :
    Run.discover p w left (todo.foldl (process p w) run) = compile p w := by
  induction point with
  | bound => rfl
  | processed point ih => exact ih
  | found point next parsed ih =>
    rw [List.foldl_nil, discover_succ next, Run.follow, parsed] at ih
    exact ih
  | unread point next unparsed ih =>
    rw [List.foldl_nil, discover_succ next, Run.follow, unparsed] at ih
    exact ih
  | settled point next ih =>
    rw [List.foldl_nil, discover_of_none next] at ih
    rw [List.foldl_nil, discover_of_none (next_of_empty _), ih]
    rw [(next_eq_none next).2]
  | stopped point next ih =>
    rw [List.foldl_nil, discover_zero next] at ih
    rw [List.foldl_nil, discover_of_none (next_of_empty _), ih]
    rfl

/-- The step of the next three lemmas: classifying keeps all bindings. -/
theorem extends_process (p : Plan) (w : Workbook) (run : Run) (candidate : Candidate) :
    (run.process p w candidate).table.Extends run.table := by
  rw [(process_outcome p w run candidate).table]
  exact extends_resolveAll _ _

/-- So does classifying several candidates. -/
theorem extends_foldl_process (todo : List Candidate) :
    (todo.foldl (process p w) run).table.Extends run.table := by
  induction todo generalizing run with
  | nil => exact run.table.extends_refl
  | cons candidate todo ih => exact ih.trans (extends_process p w run candidate)

theorem extends_follow (key : String) : (run.follow p w key).table.Extends run.table := by
  unfold Run.follow
  split
  · exact run.table.extends_refl
  · exact extends_process p w _ _

theorem extends_next : run.next.2.table.Extends run.table := by
  unfold Run.next AliasTable.pop
  dsimp only
  split <;> exact run.table.extends_refl

/-- Following references keeps all bindings, by induction on how many may be followed. -/
theorem extends_discover : (Run.discover p w left run).table.Extends run.table := by
  have taken : run.next.2.table.Extends run.table := extends_next
  induction left generalizing run with
  | zero =>
    cases next : run.next with
    | mk key run' =>
      rw [next] at taken
      cases key with
      | none => rwa [discover_of_none next]
      | some key => rwa [discover_zero next]
  | succ left ih =>
    cases next : run.next with
    | mk key run' =>
      rw [next] at taken
      cases key with
      | none => rwa [discover_of_none next]
      | some key =>
        rw [discover_succ next]
        exact ((ih extends_next).trans (extends_follow key)).trans taken

/-- A key that is bound at some point has the same identifier in the end. -/
theorem Point.extends_compile {todo : List Candidate} (point : Point p w todo left run) :
    (compile p w).table.Extends run.table := by
  rw [← point.discover_eq]
  exact extends_discover.trans (extends_foldl_process todo)

end

end Run

end SheetCompiler
