import SheetCompiler.Proofs.Compile.OneLine

/-!
# Comments about unusable names

The first section of a class lists names that cannot be used, one comment for each. A comment holds
texts of the workbook as they are, so it may take more than one line (`Run.total_escapes`), and the
lines after its first are not part of it. `Run.diagnostics_comments_iff` says exactly when the whole
section is made of comments. There are three kinds of comments (`Run.Lists`), and all of them take
one line if the names, what deleted names refer to, and the names of the sheets do.
-/

namespace SheetCompiler

open Text

/-! ### Lines of the section -/

/-- An indented comment. -/
def Python.IsComment (line : List Char) : Prop := "    #".toList <+: line

instance (line : List Char) : Decidable (Python.IsComment line) :=
  inferInstanceAs (Decidable (_ <+: _))

/-- The lines that a text takes after its first, when it is written with a line feed. -/
def Text.furtherLines (cs : List Char) : List (List Char) := (pythonLines (cs ++ ['\n'])).tail

theorem Text.furtherLines_of_oneLine {cs : List Char} (nonempty : cs ≠ []) (oneLine : OneLine cs) :
    furtherLines cs = [] := by
  rw [furtherLines, pythonLines_oneLine nonempty oneLine, List.tail_cons]

namespace Diagnostics

/-- Of the lines that a comment takes, the first is an indented comment, whatever its text is. -/
theorem pythonLines_comment (text : List Char) :
    ∃ first, pythonLines ("    #".toList ++ text ++ ['\n']) =
      ("    #".toList ++ first) :: furtherLines ('#' :: text) := by
  have indented := @pythonLines_oneLine_append "    #".toList (by decide) (by decide)
    (text ++ ['\n'])
  have plain := @pythonLines_oneLine_append ['#'] (by decide) (by decide) (text ++ ['\n'])
  have further : furtherLines ('#' :: text) = (pythonLines (text ++ ['\n'])).tail := by
    rw [furtherLines, List.cons_append, ← List.singleton_append, plain, List.tail_cons]
  rw [List.append_assoc, indented, further]
  exact ⟨_, rfl⟩

/-- The section is its comments, each on an indented line. -/
theorem toList_body (lines : List String) (ignored : Nat) :
    (body ⟨lines, ignored⟩).toList =
      lines.flatMap fun line => "    ".toList ++ line.toList ++ ['\n'] := by
  have line : ∀ s : String, s!"    {s}\n".toList = "    ".toList ++ s.toList ++ ['\n'] := by
    intro s
    rw [String.toList_append, String.toList_append]
    rfl
  rw [body, String.toList_join, List.flatMap_map]
  simp only [line]

/-- The section is made of comments exactly if the further lines of each comment are comments. -/
theorem isComment_iff (d : Diagnostics)
    (comments : ∀ comment ∈ d.lines, ∃ text, comment.toList = '#' :: text) :
    (∀ line ∈ pythonLines d.body.toList, Python.IsComment line) ↔
      ∀ comment ∈ d.lines, ∀ line ∈ furtherLines comment.toList, Python.IsComment line := by
  obtain ⟨lines, ignored⟩ := d
  rw [toList_body]
  dsimp only at comments ⊢
  induction lines with
  | nil => simp [pythonLines]
  | cons comment lines ih =>
    obtain ⟨⟨text, hash⟩, others⟩ := List.forall_mem_cons.1 comments
    obtain ⟨first, written⟩ := pythonLines_comment text
    have opens : Python.IsComment ("    #".toList ++ first) := List.prefix_append _ _
    have indented : "    ".toList ++ comment.toList = "    #".toList ++ text := by
      rw [hash]
      rfl
    rw [List.flatMap_cons, indented, List.append_assoc, List.singleton_append, pythonLines_append,
      written, List.forall_mem_append, List.forall_mem_cons, ih others, List.forall_mem_cons, hash,
      and_iff_right opens]

end Diagnostics

/-! ### Keys on one line -/

/-- Quoting a sheet name adds apostrophes only. -/
theorem SheetName.oneLine_quoteChars {sheet : List Char} (h : OneLine sheet) :
    OneLine (quoteChars sheet) := by
  have doubled : OneLine (doubleQuotes sheet) := by
    induction sheet with
    | nil => exact oneLine_nil
    | cons c cs ih =>
      obtain ⟨here, later⟩ := oneLine_cons.1 h
      unfold doubleQuotes
      split
      · exact oneLine_cons.2 ⟨by decide, oneLine_cons.2 ⟨by decide, ih later⟩⟩
      · exact oneLine_cons.2 ⟨here, ih later⟩
  unfold quoteChars
  split
  · exact h
  · exact oneLine_append.2 ⟨oneLine_cons.2 ⟨by decide, doubled⟩, by decide⟩

/-- A key takes one line if the name of its sheet does. -/
theorem Reference.oneLine_keyChars {sheet : String} (h : OneLine sheet.toList) (r : Range) :
    OneLine (keyChars (some sheet) r) := by
  have corner : ∀ a : Address, OneLine a.toChars := fun a =>
    oneLine_of_class (f := fun c => c == '$' || c.isAlphanum) (by decide) (by decide)
      fun c mem => by simpa using Address.mem_toChars mem
  have range : OneLine r.pinned.toChars := by
    unfold Range.toChars
    split
    · exact corner _
    · exact oneLine_append.2 ⟨corner _, oneLine_cons.2 ⟨by decide, corner _⟩⟩
  exact oneLine_append.2 ⟨SheetName.oneLine_quoteChars h, oneLine_cons.2 ⟨by decide, range⟩⟩

namespace AliasTable

/-- Registering a sheet finds it from then on, and brings in no other spelling. -/
theorem addSheet_spec (t : AliasTable) (sheet : String) :
    ((t.addSheet sheet).registered? sheet).isSome ∧
      (∀ other, (t.registered? other).isSome → ((t.addSheet sheet).registered? other).isSome) ∧
      ∀ known ∈ (t.addSheet sheet).sheets, known ∈ t.sheets ∨ known = sheet := by
  unfold addSheet
  split
  next known => exact ⟨known, fun _ => id, fun _ => .inl⟩
  next =>
    refine ⟨?_, fun other known => ?_, fun known mem => ?_⟩
    · simp [registered?, Text.sameLetters]
    · simp only [registered?, List.find?_append, Option.isSome_or, Bool.or_eq_true]
      exact .inl known
    · simpa using mem

/-- All sheets of a workbook are found, each as the workbook spells one. -/
theorem foldl_addSheet (sheets : List String) (t : AliasTable) :
    (∀ sheet, (t.registered? sheet).isSome ∨ sheet ∈ sheets →
      ((sheets.foldl addSheet t).registered? sheet).isSome) ∧
      ∀ known ∈ (sheets.foldl addSheet t).sheets, known ∈ t.sheets ∨ known ∈ sheets := by
  induction sheets generalizing t with
  | nil => simp
  | cons sheet sheets ih =>
    obtain ⟨new, old, origin⟩ := t.addSheet_spec sheet
    obtain ⟨registered, known⟩ := ih (t.addSheet sheet)
    refine ⟨fun other h => registered other ?_, fun other mem => ?_⟩
    · rcases h with earlier | mem
      · exact .inl (old other earlier)
      · rcases List.mem_cons.1 mem with rfl | later
        · exact .inl new
        · exact .inr later
    · rcases known other mem with earlier | later
      · exact (origin other earlier).imp_right fun same => List.mem_cons.2 (.inl same)
      · exact .inr (List.mem_cons_of_mem sheet later)

end AliasTable

/-- The key of cells that can be read spells their sheet as the workbook does. -/
theorem Workbook.exists_key_eq {w : Workbook} {r : Reference} {g : Region}
    (read : w.region r = .ok g) :
    ∃ sheet ∈ w.sheetNames, (w.key r).toList = Reference.keyChars (some sheet) r.range := by
  unfold Workbook.region at read
  split at read
  next => cases read
  next name named =>
    split at read
    next => cases read
    next known =>
      obtain ⟨s, found⟩ : ∃ s, w.sheet? name = some s :=
        Option.ne_none_iff_exists'.1 (by simpa [hasSheet] using known)
      have same : Text.sameLetters s.name name := by simpa using List.find?_some found
      obtain ⟨registered, sheets⟩ := AliasTable.foldl_addSheet w.sheetNames {}
      have own : s.name ∈ w.sheetNames := List.mem_map_of_mem (List.mem_of_find?_eq_some found)
      obtain ⟨sheet, spelled⟩ := Option.isSome_iff_exists.1 (registered s.name (.inr own))
      rw [AliasTable.registered?_congr _ same] at spelled
      refine ⟨sheet, (sheets sheet (List.mem_of_find?_eq_some spelled)).resolve_left nofun, ?_⟩
      rw [key, AliasTable.key, String.toList_ofList, AliasTable.sheetFor, Reference.sheetOr, named,
        sheetTable]
      simp [spelled]

/-! ### What is listed -/

/-- A name that no section takes is usable, but has neither a formula nor a value. -/
theorem NameFacts.of_classify_eq_none {f : NameFacts} (h : f.classify = none) :
    f.isUnusable = false ∧ f.hasFormula = false ∧ f.hasValue = false ∧ f.discovered = false := by
  simp only [classify, SectionKind.all, List.find?_eq_none, List.mem_cons, List.not_mem_nil,
    or_false, forall_eq_or_imp, forall_eq, fits, Bool.not_eq_true, Bool.or_eq_false_iff] at h
  exact ⟨h.1, h.2.2.1, h.2.2.2⟩

namespace Run

/-- The comments that list a candidate: it refers to deleted cells, its identifier is taken, or its
cells are empty. -/
inductive Lists (w : Workbook) (candidate : Candidate) : String → Prop
  | broken (target : candidate.target = .broken) :
    Lists w candidate s!"# {candidate.name} = '{candidate.refersTo}'"
  | duplicate : Lists w candidate s!"# {candidate.name} duplicates {candidate.identifier}"
  | empty {r : Reference} {g : Region} (target : candidate.target = .cells r)
    (cells : w.region r = .ok g) (formula : g.hasFormula = false) (value : g.hasValue = false) :
    Lists w candidate (Unclassified.line ⟨candidate.name, s!"{w.key r} holds no value or formula"⟩)

variable {p : Plan} {w : Workbook} {run run' : Run} {candidate : Candidate}

/-- Whichever way a candidate is listed, the comment begins with a hash. -/
theorem Lists.hash {comment : String} (lists : Lists w candidate comment) :
    ∃ text, comment.toList = '#' :: text := by
  cases lists with
  | broken | duplicate =>
    simp only [String.toList_append]
    exact ⟨_, rfl⟩
  | empty =>
    simp only [Unclassified.line, String.toList_append]
    exact ⟨_, rfl⟩

/-- An unusable name is listed as broken or as a duplicate, or it is passed over. -/
theorem lists_diagnose {facts : NameFacts} (broken : facts.broken → candidate.target = .broken) :
    (run.diagnose candidate facts).sections.diagnostics.lines = run.sections.diagnostics.lines ∨
      ∃ comment, Lists w candidate comment ∧
        (run.diagnose candidate facts).sections.diagnostics.lines =
          run.sections.diagnostics.lines ++ [comment] := by
  unfold diagnose
  dsimp only
  split
  next deleted => exact .inr ⟨_, .broken (broken deleted), rfl⟩
  next =>
    split
    next => exact .inr ⟨_, .duplicate, rfl⟩
    next => exact .inl rfl

/-- A name that no section takes stands for empty cells. -/
theorem exists_cells_of_unclassified {content : Content} (hread : read w candidate = .ok content)
    (kind : (run.factsOf p candidate content).classify = none) :
    ∃ r g, candidate.target = .cells r ∧ w.region r = .ok g ∧ g.hasFormula = false ∧
      g.hasValue = false := by
  obtain ⟨unusable, formula, value, named⟩ := NameFacts.of_classify_eq_none kind
  simp only [NameFacts.isUnusable, named, Bool.not_false, Bool.true_and, Bool.or_eq_false_iff]
    at unusable
  obtain ⟨⟨⟨⟨unresolved, builtin⟩, broken⟩, -⟩, -⟩ := unusable
  cases target : candidate.target with
  | cells r =>
    simp only [read, target] at hread
    obtain ⟨g, cells, rfl⟩ := Fallible.map_eq_ok_iff.1 hread
    exact ⟨r, g, rfl, Fallible.mapError_eq_ok_iff.1 cells, formula, value⟩
  | formula text sheet =>
    simp only [read, target] at hread
    cases hread
    cases formula
  | unresolved => exact absurd target (of_decide_eq_false unresolved)
  | builtin => exact absurd target (of_decide_eq_false builtin)
  | broken => exact absurd target (of_decide_eq_false broken)

/-- Classifying a candidate adds a comment at most, and none for cells that were found. -/
theorem Outcome.comments (outcome : Outcome p w run candidate run')
    (keys : ∀ r, run.table.key r none = w.key r) :
    run'.sections.diagnostics.lines = run.sections.diagnostics.lines ∨
      candidate.discovered = false ∧ ∃ comment, Lists w candidate comment ∧
        run'.sections.diagnostics.lines = run.sections.diagnostics.lines ++ [comment] := by
  cases outcome with
  | unreadable => exact .inl rfl
  | input => exact .inl (by simp [setOwner])
  | constant => exact .inl (by simp [addConstant, setOwner, Sections.addConstant])
  | property content python hread kind written =>
    exact .inl (by simp [addProperty_of_ok written, setOwner, Sections.addProperty])
  | unwritten content e hread kind failed =>
    exact .inl (by simp [addProperty_of_error failed, fail])
  | diagnosed content hread kind =>
    have unusable : (run.factsOf p candidate content).isUnusable := NameFacts.fits_of_classify kind
    have named : (run.factsOf p candidate content).discovered = false := by
      simpa using (Bool.and_eq_true_iff.1 unusable).1
    have lists := @lists_diagnose w (run.arrive candidate) candidate
      (run.factsOf p candidate content) (fun broken => of_decide_eq_true broken)
    rw [sections_arrive] at lists
    exact lists.imp_right fun added => ⟨named, added⟩
  | unclassified content hread kind =>
    obtain ⟨r, g, target, cells, formula, value⟩ := exists_cells_of_unclassified hread kind
    have named : candidate.discovered = false := (NameFacts.of_classify_eq_none kind).2.2.2
    refine .inr ⟨named, _, .empty target cells formula value, ?_⟩
    simp [addUnclassified, addConstant, setOwner, Sections.addConstant, Diagnostics.unclassified,
      Diagnostics.addLine, Unclassified.line, target, keys]

/-- What is to be classified is a name, an output, or cells that were found. -/
theorem Point.mem_bind_or_discovered {todo : List Candidate} {left : Nat}
    (point : Point p w todo left run) (mem : candidate ∈ todo) :
    candidate ∈ (bind p w).1 ∨ candidate.discovered := by
  induction point with
  | bound => exact .inl mem
  | processed point ih => exact ih (List.mem_cons_of_mem _ mem)
  | found point next parsed ih =>
    rw [List.mem_singleton.1 mem]
    exact .inr rfl
  | unread | settled | stopped => cases mem

/-- Every comment lists a candidate, by induction on the points. -/
theorem Point.comments {todo : List Candidate} {left : Nat} (point : Point p w todo left run) :
    ∀ comment ∈ run.sections.diagnostics.lines,
      ∃ candidate ∈ (bind p w).1, Lists w candidate comment := by
  refine point.sections_induction (P := fun sections => ∀ comment ∈ sections.diagnostics.lines,
    ∃ candidate ∈ (bind p w).1, Lists w candidate comment) ?_ ?_
  · obtain ⟨table, interface, inputs, eq⟩ := justBound_bind p w
    rw [eq]
    exact nofun
  · intro candidate todo left run point earlier
    rcases (process_outcome p w run candidate).comments
      (AliasTable.key_congr point.sheets · none) with same | ⟨named, comment, lists, added⟩
    · rwa [same]
    · have own := (point.mem_bind_or_discovered List.mem_cons_self).resolve_right (by simp [named])
      rw [added]
      exact List.forall_mem_append.2
        ⟨earlier, List.forall_mem_singleton.2 ⟨candidate, own, lists⟩⟩

/-! ### Comments on one line -/

/-- A name becomes a candidate with its own spelling, and what it refers to. -/
theorem exists_name_of_mem_bindNames {c : Config} {ds : List DefinedName}
    (mem : candidate ∈ (bindNames c w ds run).1) :
    ∃ d ∈ ds, candidate.name = d.name ∧ candidate.refersTo = d.refersTo ∧
      candidate.target = d.target := by
  induction ds generalizing run with
  | nil => cases mem
  | cons d ds ih =>
    rw [bindNames] at mem
    rcases List.mem_cons.1 mem with rfl | mem
    · exact ⟨d, List.mem_cons_self, by rw [bindName], by rw [bindName], target_bindName c w run d⟩
    · obtain ⟨d', mem, own⟩ := ih mem
      exact ⟨d', List.mem_cons_of_mem d mem, own⟩

/-- A name whose target is broken points at deleted cells. -/
theorem isBroken_of_target {d : DefinedName} (h : d.target = .broken) : d.isBroken := by
  unfold DefinedName.target at h
  split at h
  · cases h
  · split at h
    · cases h
    · split at h
      next broken => exact broken
      next => split at h <;> cases h

section

variable {c : Config} (accepted : Plan.ofConfig c = .ok p)
  (names : ∀ d ∈ w.names, OneLine d.name.toList ∧ (d.isBroken → OneLine d.refersTo.toList))

include accepted names

/-- What a comment says of a candidate takes one line if its name does. -/
theorem oneLine_candidate (mem : candidate ∈ (bind p w).1) :
    OneLine candidate.name.toList ∧ OneLine candidate.identifier.toList ∧
      (candidate.target = .broken → OneLine candidate.refersTo.toList) := by
  have spells : ∀ {identifier}, p.Spells w identifier → OneLine identifier.toList :=
    oneLine_of_spells fun d mem => (names d mem).1
  rcases List.mem_append.1 mem with named | output
  · obtain ⟨d, own, name, refersTo, target⟩ := exists_name_of_mem_bindNames named
    rw [name, refersTo, target]
    exact ⟨(names d own).1, spells ((spelled_bind accepted).candidates candidate named),
      fun broken => (names d own).2 (isBroken_of_target broken)⟩
  · obtain ⟨o, own, rfl⟩ := mem_unnamedOutputs output
    obtain ⟨a, checked⟩ := (Plan.checks_of_ofConfig accepted).1 o (List.mem_append_right _ own)
    have legal := spells (.inl (CellAlias.isLegal_of_check checked))
    exact ⟨legal, legal, nofun⟩

/-- All three kinds of comments take one line then. -/
theorem oneLine_of_lists (sheets : ∀ sheet ∈ w.sheetNames, OneLine sheet.toList)
    (mem : candidate ∈ (bind p w).1) {comment : String} (lists : Lists w candidate comment) :
    OneLine comment.toList := by
  obtain ⟨name, identifier, refersTo⟩ := oneLine_candidate accepted names mem
  cases lists with
  | broken target =>
    simp only [oneLine_toList_append]
    exact ⟨⟨⟨⟨by decide, name⟩, by decide⟩, refersTo target⟩, by decide⟩
  | duplicate =>
    simp only [oneLine_toList_append]
    exact ⟨⟨⟨by decide, name⟩, by decide⟩, identifier⟩
  | @empty r g target cells =>
    obtain ⟨sheet, own, spelled⟩ := w.exists_key_eq cells
    have key : OneLine (w.key r).toList :=
      spelled ▸ Reference.oneLine_keyChars (sheets sheet own) r.range
    simp only [Unclassified.line, oneLine_toList_append]
    exact ⟨⟨⟨by decide, name⟩, by decide⟩, oneLine_toList_append.2 ⟨key, by decide⟩⟩

end

/-- **When the section of unusable names is made of comments.** Each comment lists a name or an
output, in one of three ways. The lines below the heading are comments exactly if those are that a
comment takes after its first one. There are none of them if names and sheet names take one line,
and so does what a name with deleted cells refers to. -/
theorem diagnostics_comments_iff {c : Config} {p : Plan} (accepted : Plan.ofConfig c = .ok p)
    (w : Workbook) :
    let sections := (compile p w).sections
    let d := sections.diagnostics
    sections.render .diagnostics =
      "\n    # EXCEL VARIABLES WITH NO USABLE FORMULA\n\n" ++ d.body ∧
    (∀ comment ∈ d.lines, ∃ candidate ∈ (bind p w).1, Lists w candidate comment) ∧
    ((∀ line ∈ pythonLines d.body.toList, Python.IsComment line) ↔
      ∀ comment ∈ d.lines, ∀ line ∈ furtherLines comment.toList, Python.IsComment line) ∧
    ((∀ d ∈ w.names, OneLine d.name.toList ∧ (d.isBroken → OneLine d.refersTo.toList)) →
      (∀ sheet ∈ w.sheetNames, OneLine sheet.toList) →
      ∀ line ∈ pythonLines d.body.toList, Python.IsComment line) := by
  obtain ⟨left, point, -⟩ := exists_point_compile p w
  have comments := point.comments
  have hash : ∀ comment ∈ (compile p w).sections.diagnostics.lines,
      ∃ text, comment.toList = '#' :: text := by
    intro comment mem
    obtain ⟨candidate, own, lists⟩ := comments comment mem
    exact lists.hash
  have exactly := (compile p w).sections.diagnostics.isComment_iff hash
  refine ⟨rfl, comments, exactly, fun names sheets => exactly.2 fun comment mem => ?_⟩
  obtain ⟨candidate, own, lists⟩ := comments comment mem
  obtain ⟨text, written⟩ := hash comment mem
  have single := oneLine_of_lists accepted names sheets own lists
  rw [furtherLines_of_oneLine (by simp [written]) single]
  exact nofun

/-- Names for deleted cells, for empty ones, and twice for the same identifier. -/
def leftovers : Except WorkbookError Workbook := do
  let w ← ({} : Workbook).addSheet "Calc"
  let w ← w.setValue "Calc" "A1" (.string "low\nhigh")
  let w ← w.defineName { name := "Gone", refersTo := "=Calc!#REF!" }
  let w ← w.defineName { name := "Level", refersTo := "=Calc!$A$1" }
  let w ← w.defineName { name := "Depth", refersTo := "=Calc!$A$1" }
  w.defineName { name := "Nothing", refersTo := "=Calc!$B$1" }

def leftoversConfig : Config where
  spreadsheet := "leftovers.xlsx"

/-- All three kinds of comments, one line each. -/
theorem diagnostics_comments_iff_leftovers :
    ∃ p w, Plan.ofConfig leftoversConfig = .ok p ∧ leftovers = .ok w ∧
      (compile p w).sections.diagnostics.lines =
        ["# Gone = '=Calc!#REF!'", "# Depth duplicates Level",
          "# Nothing: Calc!$B$1 holds no value or formula"] ∧
      ∀ line ∈ pythonLines (compile p w).sections.diagnostics.body.toList,
        Python.IsComment line := by
  have facts : ((Plan.ofConfig leftoversConfig).toOption.bind fun p =>
      leftovers.toOption.map fun w =>
        decide ((compile p w).sections.diagnostics.lines =
            ["# Gone = '=Calc!#REF!'", "# Depth duplicates Level",
              "# Nothing: Calc!$B$1 holds no value or formula"] ∧
          (∀ d ∈ w.names, OneLine d.name.toList ∧ (d.isBroken → OneLine d.refersTo.toList)) ∧
          ∀ sheet ∈ w.sheetNames, OneLine sheet.toList)) = some true := by decide +kernel
  obtain ⟨p, hp, facts⟩ := Option.bind_eq_some_iff.1 facts
  obtain ⟨w, hw, facts⟩ := Option.map_eq_some_iff.1 facts
  obtain ⟨lines, names, sheets⟩ := of_decide_eq_true facts
  have accepted := Fallible.toOption_eq_some_iff.1 hp
  exact ⟨p, w, accepted, Fallible.toOption_eq_some_iff.1 hw, lines,
    (diagnostics_comments_iff accepted w).2.2.2 names sheets⟩

/-- A line break in what a name with deleted cells refers to. -/
def total : Except WorkbookError Workbook := do
  let w ← ({} : Workbook).addSheet "Calc"
  let w ← w.setValue "Calc" "B1" (.string "low")
  w.defineName { name := "Total", refersTo := "=SUM(#REF!,\nCalc!$B$1)" }

def totalConfig : Config where
  spreadsheet := "total.xlsx"
  timestamp := false

/-- The rest of the formula stands outside the comment. -/
theorem total_escapes :
    ∃ p w, Plan.ofConfig totalConfig = .ok p ∧ total = .ok w ∧ (compile p w).errors = [] ∧
      pythonLines (compile p w).sections.diagnostics.body.toList =
        ["    # Total = '=SUM(#REF!,".toList, "Calc!$B$1)'".toList] ∧
      ¬∀ line ∈ pythonLines (compile p w).sections.diagnostics.body.toList,
        Python.IsComment line := by
  have facts : ((Plan.ofConfig totalConfig).toOption.bind fun p =>
      total.toOption.map fun w =>
        decide ((compile p w).errors = [] ∧
          pythonLines (compile p w).sections.diagnostics.body.toList =
            ["    # Total = '=SUM(#REF!,".toList, "Calc!$B$1)'".toList])) = some true := by
    decide +kernel
  obtain ⟨p, hp, facts⟩ := Option.bind_eq_some_iff.1 facts
  obtain ⟨w, hw, facts⟩ := Option.map_eq_some_iff.1 facts
  obtain ⟨success, lines⟩ := of_decide_eq_true facts
  refine ⟨p, w, Fallible.toOption_eq_some_iff.1 hp, Fallible.toOption_eq_some_iff.1 hw, success,
    lines, fun comments => ?_⟩
  rw [lines] at comments
  exact absurd (comments "Calc!$B$1)'".toList (by simp)) (by decide)

end Run

end SheetCompiler
