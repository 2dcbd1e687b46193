import SheetCompiler.Proofs.Compile.Reach
import SheetCompiler.Proofs.Compile.Tally

/-!
# When an identifier is declared twice

A name whose identifier is taken is listed as a duplicate, but whether it is taken is asked in a
way that lets two kinds of candidates through. The owner of an identifier is known by the spelling
of its name, so a name of the same spelling is taken for the owner itself; and cells that are found
in formulas are not asked at all. `Run.Claims` follows the first kind through the names: the owner
of an identifier is the first candidate that could declare it. `Run.declared_once_iff` says that
there are no other ways.
-/

namespace SheetCompiler

open AliasTable

/-- The identifiers of the properties and of the constants. -/
def Sections.declared (s : Sections) : List String :=
  (s.properties ++ s.constants).map (·.identifier)

/-- A name from the workbook whose identifier is taken is unusable, and else this does not bear on
it. -/
theorem NameFacts.classify_duplicate (f : NameFacts) (named : f.discovered = false)
    (first : f.duplicate = false) (taken : Bool) :
    { f with duplicate := taken }.classify = if taken then some .diagnostics else f.classify := by
  cases taken with
  | true => simp [classify, SectionKind.all, fits, isUnusable, named]
  | false =>
    have same : { f with duplicate := false } = f := by rw [← first]
    rw [same]
    rfl

/-- A parameter goes to the interface, if it can be used. -/
theorem NameFacts.classify_of_isInput {f : NameFacts} (h : f.isInput = true) :
    f.classify = some .diagnostics ∨ f.classify = some .interface := by
  cases unusable : f.isUnusable <;> simp [classify, SectionKind.all, fits, unusable, h]

namespace Run

variable {p : Plan} {w : Workbook} {run run' : Run} {candidate : Candidate} {done : List Candidate}
  {left : Nat}

/-! ### Candidates that can be declared -/

variable (p w) in
/-- A property or a constant is written for the candidate, if nobody else has its identifier. -/
def isDeclarable (c : Candidate) : Bool :=
  match read w c with
  | .ok content =>
    sectionOf p w c content ≠ some .diagnostics ∧ sectionOf p w c content ≠ some .interface
  | .error _ => false

variable (p w) in
/-- The first candidate that can declare the identifier. -/
def claimant? (cs : List Candidate) (identifier : String) : Option Candidate :=
  cs.find? fun c => isDeclarable p w c && c.identifier == identifier

variable (p w) in
/-- No candidate has the name of the one that claims its identifier before. -/
def TwinFree (cs : List Candidate) : Prop :=
  ∀ i c, cs[i]? = some c → isDeclarable p w c →
    ∀ first, claimant? p w (cs.take i) c.identifier = some first → first.name ≠ c.name

instance (p : Plan) (w : Workbook) (cs : List Candidate) : Decidable (TwinFree p w cs) :=
  decidable_of_iff (∀ i : Fin cs.length, isDeclarable p w cs[i] →
      (claimant? p w (cs.take i) cs[i].identifier).all (·.name ≠ cs[i].name))
    ⟨fun free i c h => by
      obtain ⟨hi, rfl⟩ := List.getElem?_eq_some_iff.1 h
      simpa [Option.all_eq_true] using free ⟨i, hi⟩,
    fun free i => by
      simpa [Option.all_eq_true] using free i cs[i] (List.getElem?_eq_getElem i.isLt)⟩

theorem isDeclarable_iff {content : Content} (hread : read w candidate = .ok content) :
    isDeclarable p w candidate ↔ sectionOf p w candidate content ≠ some .diagnostics ∧
      sectionOf p w candidate content ≠ some .interface := by
  simp only [isDeclarable, hread, decide_eq_true_eq]

/-- One more candidate is a twin, or it is not, of the one that claims its identifier. -/
theorem twinFree_concat {c : Candidate} : TwinFree p w (done ++ [c]) ↔ TwinFree p w done ∧
    (isDeclarable p w c → ∀ first, claimant? p w done c.identifier = some first →
      first.name ≠ c.name) :=
  forall_take_concat (P := fun earlier c => isDeclarable p w c →
    ∀ first, claimant? p w earlier c.identifier = some first → first.name ≠ c.name)

/-- An identifier is claimed by the first candidate that can declare it. -/
theorem claimant?_concat {c : Candidate} (identifier : String) :
    claimant? p w (done ++ [c]) identifier = (claimant? p w done identifier).or
      (if isDeclarable p w c && c.identifier == identifier then some c else none) := by
  rw [claimant?, List.find?_append, List.find?_singleton]
  rfl

theorem claimant?_eq_none {identifier : String} : claimant? p w done identifier = none ↔
    ¬∃ c ∈ done, isDeclarable p w c ∧ c.identifier = identifier := by
  simp [claimant?]

/-! ### The names -/

/-- No name is a discovery, by induction on the names. -/
theorem discovered_of_bindNames (c : Config) (ds : List DefinedName) (run : Run)
    (hc : candidate ∈ (bindNames c w ds run).1) : candidate.discovered = false := by
  induction ds generalizing run with
  | nil => cases hc
  | cons d ds ih =>
    rw [bindNames] at hc
    rcases List.mem_cons.1 hc with rfl | hc
    · rw [bindName]
    · exact ih _ hc

/-- Names are not found in formulas. -/
theorem discovered_of_candidate (hc : candidate ∈ (bind p w).1) : candidate.discovered = false := by
  rcases List.mem_append.1 hc with hc | hc
  · exact discovered_of_bindNames p.config w.names _ hc
  · obtain ⟨o, -, rfl⟩ := mem_unnamedOutputs hc
    rfl

/-- What was classified before bears on a name in one way: its identifier may be taken. -/
theorem classify_of_named (named : candidate.discovered = false)
    (interface : run.sections.interface = (bind p w).2.sections.interface) (content : Content) :
    (run.factsOf p candidate content).classify =
      if run.isDuplicate candidate then some .diagnostics else sectionOf p w candidate content := by
  obtain ⟨cs, known, -⟩ := exists_named p w
  have first : ((bind p w).2.factsOf p candidate content).duplicate = false := by
    simp [factsOf, facts, isDuplicate, known.untouched.owners]
  have others : run.factsOf p candidate content =
      { (bind p w).2.factsOf p candidate content with duplicate := run.isDuplicate candidate } := by
    simp [factsOf, facts, isDuplicate, interface]
  rw [others, NameFacts.classify_duplicate _ named first]
  rfl

/-- A parameter is neither a property nor a constant. -/
theorem notMem_inputs_of_declarable (h : isDeclarable p w candidate) :
    candidate.identifier ∉ (bind p w).2.sections.interface.inputs := by
  intro input
  cases hread : read w candidate with
  | error e => simp [isDeclarable, hread] at h
  | ok content =>
    obtain ⟨usable, noInput⟩ := (isDeclarable_iff hread).1 h
    have isInput : ((bind p w).2.factsOf p candidate content).isInput = true := by
      simpa [factsOf, facts, Interface.hasInput] using input
    exact (NameFacts.classify_of_isInput isInput).elim usable noInput

/-- What goes to the interface is a parameter already. -/
theorem mem_inputs_of_interface {content : Content}
    (h : sectionOf p w candidate content = some .interface) :
    candidate.identifier ∈ (bind p w).2.sections.interface.inputs := by
  have fits := NameFacts.fits_of_classify h
  simpa [NameFacts.fits, factsOf, facts, Interface.hasInput] using fits

/-- What classifying a candidate adds to the declarations, and to the owners, if it succeeds. -/
theorem Outcome.declared (outcome : Outcome p w run candidate run')
    (success : run'.errors = run.errors) :
    ∃ content, read w candidate = .ok content ∧
      let kind := (run.factsOf p candidate content).classify
      run'.owners = (if kind = some .diagnostics then run.owners
        else Assoc.insert candidate.identifier candidate.name run.owners) ∧
      run'.sections.declared.Perm (run.sections.declared ++
        if kind = some .diagnostics ∨ kind = some .interface then [] else [candidate.identifier]) := by
  cases outcome with
  | unreadable => simp [fail] at success
  | diagnosed content hread kind =>
    refine ⟨content, hread, ?_⟩
    simp [kind, diagnose, Sections.declared]
  | input content hread kind =>
    refine ⟨content, hread, ?_⟩
    simp [kind, setOwner, Sections.declared]
  | property content python hread kind written =>
    refine ⟨content, hread, ?_⟩
    rw [addProperty_of_ok written]
    simp only [kind, setOwner, Sections.declared, Sections.addProperty, sections_count,
      sections_arrive, owners_count, owners_arrive, List.map_append, List.append_assoc]
    exact ⟨rfl, List.perm_append_comm.append_left _⟩
  | unwritten content e hread kind failed => simp [addProperty_of_error failed, fail] at success
  | constant content hread kind =>
    refine ⟨content, hread, ?_⟩
    simp [kind, addConstant, setOwner, Sections.declared, Sections.addConstant]
  | unclassified content hread kind =>
    refine ⟨content, hread, ?_⟩
    simp [kind, addUnclassified, addConstant, setOwner, Sections.declared, Sections.addConstant]

/-- What is declared, and who owns it, when some of the names are classified. Which inputs there
are is settled before. -/
structure Claims (p : Plan) (w : Workbook) (done : List Candidate) (run : Run) : Prop where
  interface : run.sections.interface = (bind p w).2.sections.interface
  owners : ∀ identifier, identifier ∉ run.sections.interface.inputs →
    Assoc.find? identifier run.owners = (claimant? p w done identifier).map (·.name)
  declared : ∀ identifier, identifier ∈ run.sections.declared ↔
    ∃ c ∈ done, isDeclarable p w c ∧ c.identifier = identifier
  nodup : run.sections.declared.Nodup ↔ TwinFree p w done

namespace Claims

variable (p w) in
/-- When the names are bound, nothing is declared and nothing is owned. -/
theorem bind : Claims p w [] (bind p w).2 := by
  obtain ⟨table, interface, inputs, h⟩ := justBound_bind p w
  refine ⟨rfl, fun identifier _ => ?_, fun identifier => ?_, ?_⟩
  · rw [h]
    rfl
  · rw [h]
    simp [Sections.declared]
  · rw [h]
    simp [Sections.declared, TwinFree]

/-- A candidate that declares nothing leaves all claims as they are. -/
theorem keep (claims : Claims p w done run) (interface : run'.sections.interface = run.sections.interface)
    (declared : run'.sections.declared.Perm run.sections.declared)
    (owners : ∀ identifier, identifier ∉ run.sections.interface.inputs →
      Assoc.find? identifier run'.owners = Assoc.find? identifier run.owners)
    (passed : isDeclarable p w candidate →
      ∃ first, claimant? p w done candidate.identifier = some first ∧
        first.name ≠ candidate.name) :
    Claims p w (done ++ [candidate]) run' := by
  -- An identifier that is passed over has its claimant already.
  have claimed : ∀ identifier, claimant? p w (done ++ [candidate]) identifier =
      claimant? p w done identifier := by
    intro identifier
    rw [claimant?_concat]
    cases declarable : isDeclarable p w candidate with
    | false => simp
    | true =>
      by_cases same : candidate.identifier = identifier
      · obtain ⟨first, claims, -⟩ := passed declarable
        rw [← same, claims]
        rfl
      · simp [same]
  refine ⟨interface.trans claims.interface, fun identifier h => ?_, fun identifier => ?_, ?_⟩
  · rw [interface] at h
    rw [owners identifier h, claimed, claims.owners identifier h]
  · rw [declared.mem_iff, claims.declared]
    constructor
    · rintro ⟨c, hc, h⟩
      exact ⟨c, List.mem_append_left _ hc, h⟩
    · rintro ⟨c, hc, declarable, rfl⟩
      rcases List.mem_append.1 hc with hc | hc
      · exact ⟨c, hc, declarable, rfl⟩
      · obtain rfl := List.mem_singleton.1 hc
        obtain ⟨first, claims, -⟩ := passed declarable
        by_contra none
        rw [claimant?_eq_none.2 none] at claims
        cases claims
  · rw [declared.nodup_iff, claims.nodup, twinFree_concat, and_iff_left]
    intro declarable first claims
    obtain ⟨first', claims', other⟩ := passed declarable
    obtain rfl : first = first' := Option.some.inj (claims.symm.trans claims')
    exact other

/-- A candidate that declares its identifier, as the first one or as a twin of the first one. -/
theorem add (claims : Claims p w done run) (interface : run'.sections.interface = run.sections.interface)
    (declared : run'.sections.declared.Perm (run.sections.declared ++ [candidate.identifier]))
    (owners : run'.owners = Assoc.insert candidate.identifier candidate.name run.owners)
    (declarable : isDeclarable p w candidate)
    (own : ∀ first, claimant? p w done candidate.identifier = some first →
      first.name = candidate.name) :
    Claims p w (done ++ [candidate]) run' := by
  refine ⟨interface.trans claims.interface, fun identifier h => ?_, fun identifier => ?_, ?_⟩
  · rw [interface] at h
    rw [owners, Assoc.find?_insert, claimant?_concat, claims.owners identifier h]
    split
    next same =>
      subst same
      cases claimed : claimant? p w done candidate.identifier with
      | none => simp [declarable]
      | some first => simp [own first claimed]
    next other => simp [Ne.symm other]
  · rw [declared.mem_iff, List.mem_append, claims.declared]
    constructor
    · rintro (⟨c, hc, h⟩ | h)
      · exact ⟨c, List.mem_append_left _ hc, h⟩
      · exact ⟨candidate, by simp, declarable, (List.mem_singleton.1 h).symm⟩
    · rintro ⟨c, hc, h⟩
      rcases List.mem_append.1 hc with hc | hc
      · exact .inl ⟨c, hc, h⟩
      · obtain rfl := List.mem_singleton.1 hc
        exact .inr (by simp [h.2])
  · -- A second declaration of the identifier would be one of its claimant, a twin.
    have taken : candidate.identifier ∉ run.sections.declared ↔
        claimant? p w done candidate.identifier = none := by
      rw [claims.declared, claimant?_eq_none]
    rw [declared.nodup_iff, twinFree_concat, ← claims.nodup, List.nodup_append_comm,
      List.singleton_append, List.nodup_cons, taken, and_comm, and_congr_right_iff]
    intro _
    constructor
    · intro none _ first claimed
      rw [none] at claimed
      cases claimed
    · intro apart
      cases claimed : claimant? p w done candidate.identifier with
      | none => rfl
      | some first => exact absurd (own first claimed) (apart declarable first claimed)

/-- Classifying a name keeps account of the claims. -/
theorem processed (claims : Claims p w done run) (outcome : Outcome p w run candidate run')
    (success : run'.errors = run.errors) (named : candidate.discovered = false) :
    Claims p w (done ++ [candidate]) run' := by
  obtain ⟨content, hread, owners, declared⟩ := outcome.declared success
  have interface := outcome.interface
  have owned : isDeclarable p w candidate → Assoc.find? candidate.identifier run.owners =
      (claimant? p w done candidate.identifier).map (·.name) := fun declarable =>
    claims.owners _ (claims.interface ▸ notMem_inputs_of_declarable declarable)
  rw [classify_of_named named claims.interface] at owners declared
  cases taken : run.isDuplicate candidate with
  | true =>
    simp only [taken, if_true, true_or, List.append_nil] at owners declared
    refine claims.keep interface declared (fun _ _ => by rw [owners]) fun declarable => ?_
    rw [isDuplicate, owned declarable] at taken
    cases claimed : claimant? p w done candidate.identifier with
    | none => simp [claimed] at taken
    | some first => exact ⟨first, rfl, by simpa [claimed] using taken⟩
  | false =>
    simp only [taken, Bool.false_eq_true, if_false] at owners declared
    by_cases declarable : isDeclarable p w candidate
    · obtain ⟨usable, noInput⟩ := (isDeclarable_iff hread).1 declarable
      simp only [usable, noInput, or_self, if_false] at owners declared
      refine claims.add interface declared owners declarable fun first claimed => ?_
      rw [isDuplicate, owned declarable, claimed] at taken
      simpa using taken
    · have elsewhere : sectionOf p w candidate content = some .diagnostics ∨
          sectionOf p w candidate content = some .interface := by
        rw [isDeclarable_iff hread] at declarable
        tauto
      rw [if_pos elsewhere, List.append_nil] at declared
      refine claims.keep interface declared (fun identifier h => ?_) fun h => absurd h declarable
      rcases elsewhere with unusable | input
      · rw [owners, if_pos unusable]
      · -- The owner of a parameter is not asked for.
        rw [owners, input, if_neg (by simp), Assoc.find?_insert_of_ne]
        rintro rfl
        exact h (claims.interface ▸ mem_inputs_of_interface input)

/-- The run over the names: each of them is at its point, and none of them fails. -/
theorem foldl_process (success : (compile p w).errors = []) {todo : List Candidate}
    (claims : Claims p w done run) (point : Point p w todo left run)
    (named : ∀ c ∈ todo, c.discovered = false) :
    Claims p w (done ++ todo) (todo.foldl (process p w) run) := by
  induction todo generalizing done run with
  | nil => simpa using claims
  | cons candidate todo ih =>
    have same : (run.process p w candidate).errors = run.errors := by
      rw [point.errors_eq_nil success, point.processed.errors_eq_nil success]
    have step := claims.processed (process_outcome p w run candidate) same
      (named candidate List.mem_cons_self)
    have := ih step point.processed fun c hc => named c (List.mem_cons_of_mem _ hc)
    simpa using this

end Claims

/-! ### The cells that are found -/

/-- The cells that are found are those of the keys that are followed, in order. -/
theorem map_refersTo_arrivalsFound (point : Point p w [] left run) :
    (arrivalsFound p w left run).map (·.candidate.refersTo) = followed p w left run := by
  induction left generalizing run with
  | zero => rfl
  | succ left ih =>
    cases next : run.next with
    | mk key run' =>
      cases key with
      | none => rw [arrivalsFound_of_none next, followed_of_none next, List.map_nil]
      | some key =>
        obtain ⟨-, r, parsed⟩ := point.next_readable next
        rw [arrivalsFound_succ next, followed_succ next, List.map_append, ih (point.follow next),
          arrivalOfKey, parsed]
        rfl

/-- Cells that are found are declared, unless a parameter has their identifier. -/
theorem Outcome.declared_found (outcome : Outcome p w run candidate run')
    (success : run'.errors = run.errors) (discovered : candidate.discovered) {r : Reference}
    (target : candidate.target = .cells r) :
    run'.sections.declared.Perm (run.sections.declared ++
      [candidate.identifier].filter (· ∉ run.sections.interface.inputs)) := by
  obtain ⟨content, hread, -, declared⟩ := outcome.declared success
  obtain ⟨g, -, rfl⟩ := (read_eq_ok_iff target).1 hread
  by_cases input : candidate.identifier ∈ run.sections.interface.inputs
  · have isInput : (run.factsOf p candidate (.region g)).isInput = true := by
      simpa [factsOf, facts, Interface.hasInput] using input
    simpa [NameFacts.classify_of_isInput isInput, input] using declared
  · have kind := classify_cells (p := p) discovered g input
    cases formula : g.hasFormula <;> simpa [kind, cellSection, formula, input] using declared

/-- What a compilation holds that has classified the names, which declare some identifiers, and has
found cells since. -/
structure Found (p : Plan) (w : Workbook) (named : List String) (seen : List Arrival) (run : Run) :
    Prop where
  interface : run.sections.interface = (bind p w).2.sections.interface
  declared : run.errors = [] → run.sections.declared.Perm
    (named ++ (seen.map (·.candidate.identifier)).filter
      (· ∉ (bind p w).2.sections.interface.inputs))
  identifiers : ∀ a ∈ seen,
    (compile p w).table.lookup a.candidate.refersTo = some a.candidate.identifier

namespace Found

variable {named : List String} {seen : List Arrival}

/-- One more reference is followed. -/
theorem found (found : Found p w named seen run) {key : String} {r : Reference}
    (point : Point p w [run.discovery key r] left { run with discovered := run.discovered + 1 })
    (made : run.table.layerOf key = some .synthesized) :
    Found p w named
      (seen ++ [⟨{ run with discovered := run.discovered + 1 }, run.discovery key r⟩])
      ({ run with discovered := run.discovered + 1 }.process p w (run.discovery key r)) := by
  have outcome := process_outcome p w { run with discovered := run.discovered + 1 }
    (run.discovery key r)
  refine ⟨outcome.interface.trans found.interface, fun success => ?_, fun a ha => ?_⟩
  · have before : run.errors = [] := List.eq_nil_of_subset_nil
      (success ▸ errors_process p w { run with discovered := run.discovered + 1 } _)
    have added := outcome.declared_found (success.trans before.symm) rfl rfl
    rw [List.map_append, List.filter_append, ← List.append_assoc, ← found.interface]
    refine added.trans (List.Perm.append_right _ ?_)
    exact found.interface ▸ found.declared before
  · rcases List.mem_append.1 ha with ha | ha
    · exact found.identifiers a ha
    · obtain rfl := List.mem_singleton.1 ha
      obtain ⟨b, bound, -⟩ := layerOf_eq_some_iff.1 made
      have final : (compile p w).table.lookup key = some b.identifier :=
        point.extends_compile.lookup (lookup_eq_some_iff.2 ⟨_, bound⟩)
      show (compile p w).table.lookup key = some ((run.table.lookup key).getD "")
      rw [final, AliasTable.lookup, bound]
      rfl

variable (p w) in
/-- The run over the references: at the end, the cells that were found are declared behind the
names. -/
theorem compile {run : Run} (start : run = (bind p w).1.foldl (process p w) (bind p w).2) :
    Found p w run.sections.declared (arrivalsFound p w p.config.maxDiscoveries run)
      (compile p w) := by
  have point : Point p w [] p.config.maxDiscoveries run := start ▸ Point.bound.foldl_process
  have rest : Run.compile p w = discover p w p.config.maxDiscoveries run := start ▸ rfl
  rw [rest, ← List.nil_append (arrivalsFound p w p.config.maxDiscoveries run)]
  refine point.discover_induction ⟨point.interface, fun _ => by simp, by simp⟩ ?_ ?_ ?_
  · exact fun pending found => ⟨found.interface, found.declared, found.identifiers⟩
  · exact fun point made found => found.found point made
  · intro seen run limit found
    refine ⟨found.interface, fun success => ?_, found.identifiers⟩
    simp [stop, fail] at success

end Found

/-- Cells that are found have identifiers of their own, which are the made-up ones. -/
theorem identifiers_arrivalsFound {run : Run}
    (start : run = (bind p w).1.foldl (process p w) (bind p w).2)
    (settled : (compile p w).unsettled = []) :
    let identifiers :=
      (arrivalsFound p w p.config.maxDiscoveries run).map (·.candidate.identifier)
    identifiers.Nodup ∧ ∀ identifier, identifier ∈ identifiers ↔
      ∃ key ∈ (compile p w).table.madeUp, (compile p w).table.lookup key = some identifier := by
  have keys : (arrivalsFound p w p.config.maxDiscoveries run).map (·.candidate.refersTo) =
      trail p w := by
    rw [start, map_refersTo_arrivalsFound Point.bound.foldl_process]
    rfl
  have lookup := (Found.compile p w start).identifiers
  obtain ⟨left, point, -⟩ := exists_point_compile p w
  obtain ⟨dropped, _, progress⟩ := progress_compile p w
  have made : ∀ key ∈ trail p w, (compile p w).table.layerOf key = some .synthesized :=
    fun key h => (progress.queues.madeUp key).1 (by simp [h])
  have distinct : (trail p w).Nodup := progress.queues.nodup.of_append_left.of_append_left
  rw [← keys] at distinct made
  refine ⟨List.Nodup.map_on (fun a ha a' ha' same => ?_) distinct.of_map, fun identifier => ?_⟩
  · have own := made _ (List.mem_map_of_mem ha)
    refine List.inj_on_of_nodup_map distinct ha ha' (point.made_up_apart own (lookup a ha) ?_).symm
    rw [lookup a' ha', same]
  · simp only [List.mem_map, mem_madeUp]
    constructor
    · rintro ⟨a, ha, rfl⟩
      exact ⟨_, made _ (List.mem_map_of_mem ha), lookup a ha⟩
    · rintro ⟨key, own, found⟩
      have followed := mem_trail settled own
      rw [← keys] at followed
      obtain ⟨a, ha, rfl⟩ := List.mem_map.1 followed
      exact ⟨a, ha, Option.some.inj ((lookup a ha).symm.trans found)⟩

end Run

/-- No identifier is declared twice. -/
structure Sections.DeclaredOnce (s : Sections) : Prop where
  properties : (s.properties.map (·.identifier)).Nodup
  constants : (s.constants.map (·.identifier)).Nodup
  apart : ∀ d ∈ s.properties, ∀ d' ∈ s.constants, d.identifier ≠ d'.identifier
  inputs : ∀ d ∈ s.properties ++ s.constants, d.identifier ∉ s.interface.inputs

/-- Nothing is declared twice exactly if properties and constants together have distinct
identifiers, none of them that of a parameter. -/
theorem Sections.declaredOnce_iff (s : Sections) : s.DeclaredOnce ↔
    s.declared.Nodup ∧ ∀ d ∈ s.properties ++ s.constants, d.identifier ∉ s.interface.inputs := by
  rw [declared, List.map_append, List.nodup_append]
  constructor
  · rintro ⟨properties, constants, apart, inputs⟩
    refine ⟨⟨properties, constants, fun identifier h identifier' h' => ?_⟩, inputs⟩
    obtain ⟨d, hd, rfl⟩ := List.mem_map.1 h
    obtain ⟨d', hd', rfl⟩ := List.mem_map.1 h'
    exact apart d hd d' hd'
  · rintro ⟨⟨properties, constants, apart⟩, inputs⟩
    exact ⟨properties, constants, fun d hd d' hd' =>
      apart _ (List.mem_map_of_mem hd) _ (List.mem_map_of_mem hd'), inputs⟩

namespace Run

variable {p : Plan} {w : Workbook}

/-- **When no identifier is declared twice.** A parameter is never declared as a property or a
constant. Of properties and constants, none is declared twice exactly if no name has the spelling of
an earlier one that claims the same identifier, and no candidate claims a made-up identifier. -/
theorem declared_once_iff (success : (compile p w).errors = []) :
    let sections := (compile p w).sections
    (∀ d ∈ sections.properties ++ sections.constants, d.identifier ∉ sections.interface.inputs) ∧
    (sections.DeclaredOnce ↔ TwinFree p w (bind p w).1 ∧
      ∀ key ∈ (compile p w).table.madeUp, ∀ c ∈ (bind p w).1, isDeclarable p w c →
        (compile p w).table.lookup key ≠ some c.identifier) := by
  have settled : (compile p w).unsettled = [] := by rw [unsettled, success, List.filter_nil]
  have claims := (Claims.bind p w).foldl_process success Point.bound
    fun c hc => discovered_of_candidate hc
  have found := Found.compile p w rfl
  obtain ⟨distinct, made⟩ := identifiers_arrivalsFound (p := p) (w := w) rfl settled
  have declared := found.declared success
  rw [List.nil_append] at claims
  -- Declared candidates are no inputs, and found cells that are inputs are not declared.
  have outside : ∀ d ∈ (compile p w).sections.properties ++ (compile p w).sections.constants,
      d.identifier ∉ (compile p w).sections.interface.inputs := by
    intro d hd
    have named := declared.mem_iff.1 (List.mem_map_of_mem hd)
    rw [found.interface]
    rcases List.mem_append.1 named with named | cells
    · obtain ⟨c, -, declarable, same⟩ := (claims.declared _).1 named
      exact same ▸ notMem_inputs_of_declarable declarable
    · exact of_decide_eq_true (List.mem_filter.1 cells).2
  refine ⟨outside, ?_⟩
  rw [Sections.declaredOnce_iff, and_iff_left outside, declared.nodup_iff, List.nodup_append,
    claims.nodup, and_congr_right_iff]
  intro _
  rw [and_iff_right (distinct.filter _)]
  constructor
  · intro apart key hkey c hc declarable same
    have outside := notMem_inputs_of_declarable declarable
    refine apart _ ((claims.declared _).2 ⟨c, hc, declarable, rfl⟩) c.identifier ?_ rfl
    exact List.mem_filter.2 ⟨(made _).2 ⟨key, hkey, same⟩, decide_eq_true outside⟩
  · rintro apart _ named _ cells rfl
    obtain ⟨c, hc, declarable, same⟩ := (claims.declared _).1 named
    obtain ⟨key, hkey, lookup⟩ := (made _).1 (List.mem_filter.1 cells).1
    exact apart key hkey c hc declarable (same ▸ lookup)

/-- Two names for one cell, one for another that is also an output, an input, and a cell without a
name. -/
def titles : Except WorkbookError Workbook := do
  let w ← ({} : Workbook).addSheet "Calc"
  let w ← w.addSheet "Data"
  let w ← w.setFormula "Calc" "A1" "=Data!A1&Data!B1&B1"
  let w ← w.setValue "Calc" "B1" (.string "copy")
  let w ← w.setValue "Data" "A1" (.string "Report")
  let w ← w.defineName { name := "Title", refersTo := "=Data!$A$1" }
  let w ← w.defineName { name := "Heading", refersTo := "=data!A1" }
  w.defineName { name := "Line", refersTo := "=Calc!$A$1" }

def titlesConfig : Config where
  spreadsheet := "titles.xlsx"
  inputs := [⟨"Data!B1", "mark"⟩]
  outputs := [⟨"Calc!A1", "line"⟩]

/-- The second name for the cell is listed as a duplicate, and nothing is declared twice. -/
theorem declared_once_iff_titles :
    ∃ p w, Plan.ofConfig titlesConfig = .ok p ∧ titles = .ok w ∧ (compile p w).errors = [] ∧
      (compile p w).sections.diagnostics.lines = ["# Heading duplicates Title"] ∧
      (compile p w).sections.properties =
        [⟨"line", "self.Title + self.mark + self.CalcB1"⟩] ∧
      (compile p w).table.madeUp = ["Calc!$B$1"] ∧ (compile p w).sections.DeclaredOnce := by
  have facts : ((Plan.ofConfig titlesConfig).toOption.bind fun p =>
      titles.toOption.map fun w =>
        decide ((compile p w).errors = [] ∧
          (compile p w).sections.diagnostics.lines = ["# Heading duplicates Title"] ∧
          (compile p w).sections.properties =
            [⟨"line", "self.Title + self.mark + self.CalcB1"⟩] ∧
          (compile p w).table.madeUp = ["Calc!$B$1"] ∧ TwinFree p w (bind p w).1 ∧
          ∀ key ∈ (compile p w).table.madeUp, ∀ c ∈ (bind p w).1, isDeclarable p w c →
            (compile p w).table.lookup key ≠ some c.identifier)) = some true := by decide +kernel
  obtain ⟨p, hp, facts⟩ := Option.bind_eq_some_iff.1 facts
  obtain ⟨w, hw, facts⟩ := Option.map_eq_some_iff.1 facts
  obtain ⟨success, lines, properties, made, twins, apart⟩ := of_decide_eq_true facts
  exact ⟨p, w, Fallible.toOption_eq_some_iff.1 hp, Fallible.toOption_eq_some_iff.1 hw, success,
    lines, properties, made, (declared_once_iff success).2.2 ⟨twins, apart⟩⟩

/-- One name for two cells, the second of which is computed from the first. -/
def twoTitles : Except WorkbookError Workbook := do
  let w ← ({} : Workbook).addSheet "Calc"
  let w ← w.addSheet "Data"
  let w ← w.setFormula "Calc" "A1" "=Data!A1&\" (copy)\""
  let w ← w.setValue "Data" "A1" (.string "Report")
  let w ← w.defineName { name := "Title", refersTo := "=Data!$A$1" }
  w.defineName { name := "Title", refersTo := "=Calc!$A$1", localSheet := some "Calc" }

def twoTitlesConfig : Config := { spreadsheet := "titles.xlsx", timestamp := false }

/-- The second name is taken for the owner of the identifier, so a property and a constant have it.
-/
theorem twoTitles_declared_twice :
    ∃ p w, Plan.ofConfig twoTitlesConfig = .ok p ∧ twoTitles = .ok w ∧ (compile p w).errors = [] ∧
      (compile p w).sections.properties = [⟨"Title", "self.Title + \" (copy)\""⟩] ∧
      (compile p w).sections.constants = [⟨"Title", "\"Report\""⟩] ∧
      ¬(compile p w).sections.DeclaredOnce := by
  have facts : ((Plan.ofConfig twoTitlesConfig).toOption.bind fun p =>
      twoTitles.toOption.map fun w =>
        decide ((compile p w).errors = [] ∧
          (compile p w).sections.properties = [⟨"Title", "self.Title + \" (copy)\""⟩] ∧
          (compile p w).sections.constants = [⟨"Title", "\"Report\""⟩])) = some true := by
    decide +kernel
  obtain ⟨p, hp, facts⟩ := Option.bind_eq_some_iff.1 facts
  obtain ⟨w, hw, facts⟩ := Option.map_eq_some_iff.1 facts
  obtain ⟨success, properties, constants⟩ := of_decide_eq_true facts
  refine ⟨p, w, Fallible.toOption_eq_some_iff.1 hp, Fallible.toOption_eq_some_iff.1 hw, success,
    properties, constants, fun once => ?_⟩
  have apart := once.apart
  rw [properties, constants] at apart
  exact apart _ (List.mem_singleton_self _) _ (List.mem_singleton_self _) rfl

end Run

end SheetCompiler
