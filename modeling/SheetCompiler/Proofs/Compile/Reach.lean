import SheetCompiler.Proofs.Compile.Discovery
import SheetCompiler.Proofs.Compile.Reordering

/-!
# What a compilation reaches

The names are classified in order, then cells without a name, in the order formulas refer to them.
If no two candidates share an identifier, none of this order matters for what is read and which
section takes it: `Run.Reaches` says it without a queue, as the least set that holds the candidates
and the unnamed cells that its properties refer to. What a compilation classifies is reached
(`Run.Point.reaches`), and if the limit suffices, all that is reached is classified
(`Run.Reaches.classified`); it succeeds exactly if all of this can be read and written
(`Run.success_iff`).
-/

namespace SheetCompiler

open AliasTable

namespace Run

variable {p : Plan} {w : Workbook} {run run' : Run} {candidate : Candidate} {todo : List Candidate}
  {left : Nat} {content : Content}

/-! ### Names first, then cells -/

/-- Only the identifier of the candidate can get a new owner. -/
theorem Outcome.owners (outcome : Outcome p w run candidate run') {identifier owner : String}
    (owned : Assoc.find? identifier run'.owners = some owner) :
    identifier = candidate.identifier ∨ Assoc.find? identifier run.owners = some owner := by
  have set : Assoc.find? identifier (Assoc.insert candidate.identifier candidate.name run.owners) =
      some owner → identifier = candidate.identifier ∨
        Assoc.find? identifier run.owners = some owner := by
    rw [Assoc.find?_insert]
    split
    next same => exact fun _ => .inl same
    next => exact .inr
  cases outcome with
  | unreadable => exact .inr owned
  | diagnosed => exact .inr (by simpa [diagnose] using owned)
  | input | constant | unclassified =>
    exact set (by simpa [addUnclassified, addConstant, setOwner] using owned)
  | property content python hread kind written =>
    exact set (by simpa [addProperty_of_ok written, setOwner] using owned)
  | unwritten content e hread kind failed =>
    exact .inr (by simpa [addProperty_of_error failed, fail] using owned)

/-- A compilation classifies its candidates in order, then one key after the other that has a
made-up identifier. -/
inductive Stage (p : Plan) (w : Workbook) : List Candidate → Run → Prop
  | names (done : List Candidate) {todo : List Candidate} {run : Run}
    (split : (bind p w).1 = done ++ todo)
    (owners : ∀ identifier owner, Assoc.find? identifier run.owners = some owner →
      identifier ∈ done.map (·.identifier)) : Stage p w todo run
  | cells {key : String} {r : Reference} {candidate : Candidate} {run : Run}
    (discovered : candidate.discovered) (target : candidate.target = .cells r)
    (parsed : Reference.parse key = .ok r) (hkey : w.key r = key)
    (made : run.table.binding? key = some ⟨candidate.identifier, .synthesized⟩) :
    Stage p w [candidate] run
  | idle {run : Run} : Stage p w [] run

/-- By induction on the points: a candidate that is left was there from the beginning, or stands for
the key that was taken out of the queue last. -/
theorem Point.stage (point : Point p w todo left run) : Stage p w todo run := by
  induction point with
  | bound =>
    obtain ⟨named, known, -⟩ := exists_named p w
    exact .names [] rfl (by simp [known.untouched.owners])
  | @processed candidate todo left run point ih =>
    cases ih with
    | names done split owners =>
      refine .names (done ++ [candidate]) (by simpa using split) fun identifier owner h => ?_
      rw [List.map_append, List.mem_append]
      rcases (process_outcome p w run candidate).owners h with rfl | old
      · exact .inr (by simp)
      · exact .inl (owners identifier owner old)
    | cells => exact .idle
  | @found left run run' key r point next parsed ih =>
    obtain ⟨taken, dropped, progress⟩ := point.progress
    obtain ⟨rest, queue, rfl⟩ := progress.next_eq_some next
    have queued : key ∈ run.table.pending := by simp [queue]
    obtain ⟨⟨identifier, layer⟩, bound, rfl⟩ := layerOf_eq_some_iff.1
      ((progress.queues.madeUp key).1 (List.mem_append_right _ queued))
    obtain ⟨q, parsed', hkey⟩ := progress.queues.readable key queued
    obtain rfl : q = r := Except.ok.inj (parsed'.symm.trans parsed)
    refine .cells rfl rfl parsed ((key_congr point.sheets q none).symm.trans hkey) ?_
    show run.table.binding? key = some ⟨(run.table.lookup key).getD "", .synthesized⟩
    rw [AliasTable.lookup, bound]
    rfl
  | unread | settled | stopped => exact .idle

/-! ### Which sections take them -/

/-- What the names have bound stays bound. -/
theorem Point.extends_bind (point : Point p w todo left run) :
    run.table.Extends (bind p w).2.table :=
  point.table_induction (P := fun t => t.Extends (bind p w).2.table) (extends_refl _)
    (fun t r current grown => (t.extends_resolve r current).trans grown) fun _ _ grown => grown

/-- The keys with made-up identifiers are the bound ones that were not bound by names. -/
theorem Point.made_up_iff (point : Point p w todo left run) (key : String) :
    run.table.layerOf key = some .synthesized ↔
      (bind p w).2.table.binding? key = none ∧ ∃ b, run.table.binding? key = some b := by
  obtain ⟨named, known, -⟩ := exists_named p w
  have new : ∀ b, run.table.binding? key = some b →
      b.layer = .synthesized ∨ (bind p w).2.table.binding? key = some b := by
    refine point.table_induction (P := fun t => ∀ b, t.binding? key = some b →
      b.layer = .synthesized ∨ (bind p w).2.table.binding? key = some b) (fun _ => .inr) ?_
      fun _ _ new => new
    intro t r current new b bound
    obtain ⟨b', -, eq⟩ | ⟨-, eq⟩ := t.resolve_cases r current
    · exact new b (by rwa [eq] at bound)
    · rw [eq, binding?_synthesize] at bound
      split at bound
      · cases bound
        exact .inl rfl
      · exact new b bound
  rw [layerOf_eq_some_iff]
  constructor
  · rintro ⟨b, bound, layer⟩
    refine ⟨?_, b, bound⟩
    rw [Option.eq_none_iff_forall_ne_some]
    intro b' bound'
    obtain rfl : b = b' := Option.some.inj (bound.symm.trans (point.extends_bind key b' bound'))
    have := known.layers key b bound'
    simp [layer, Layer.rank] at this
  · rintro ⟨unbound, b, bound⟩
    refine ⟨b, bound, (new b bound).resolve_right ?_⟩
    simp [unbound]

/-- Made-up identifiers are those of one key each. -/
theorem Point.made_up_apart (point : Point p w todo left run)
    {key other identifier : String} (made : run.table.layerOf key = some .synthesized)
    (own : run.table.lookup key = some identifier)
    (found : run.table.lookup other = some identifier) : other = key := by
  suffices run.table.BoundUsed ∧ ∀ key other identifier,
      run.table.layerOf key = some .synthesized → run.table.lookup key = some identifier →
      run.table.lookup other = some identifier → other = key from
    this.2 key other identifier made own found
  clear made own found
  refine point.table_induction (P := fun t => t.BoundUsed ∧ ∀ key other identifier,
      t.layerOf key = some .synthesized → t.lookup key = some identifier →
      t.lookup other = some identifier → other = key) ?_ ?_ ?_
  · refine ⟨boundUsed_bind p w, fun key other identifier made => ?_⟩
    obtain ⟨unbound, b, bound⟩ := (Point.bound.made_up_iff key).1 made
    simp [unbound] at bound
  · rintro t r current ⟨used, apart⟩
    refine ⟨(used.resolve r current).1, fun key other identifier made own found => ?_⟩
    obtain ⟨b, -, eq⟩ | ⟨unbound, eq⟩ := t.resolve_cases r current
    · rw [eq] at made own found
      exact apart key other identifier made own found
    · have lookup : ∀ k, (t.resolve r current).2.lookup k =
          if k = t.key r current then some (t.fresh (identifierOfKey (t.key r current)))
          else t.lookup k := by
        rw [eq]
        exact lookup_bind
      rw [lookup] at own found
      -- What is made up now is not in use, so no key that was bound before has it.
      have new : ∀ k, t.lookup k ≠ some (t.fresh (identifierOfKey (t.key r current))) :=
        fun k h => fresh_notMem _ (used k _ h)
      by_cases first : key = t.key r current <;> by_cases second : other = t.key r current
      · exact second.trans first.symm
      · rw [if_pos first] at own
        rw [if_neg second, ← own] at found
        exact absurd found (new other)
      · rw [if_pos second] at found
        rw [if_neg first, ← found] at own
        exact absurd own (new key)
      · rw [if_neg first] at own
        rw [if_neg second] at found
        refine apart key other identifier ?_ own found
        rwa [eq, layerOf, binding?_synthesize, if_neg first] at made
  · exact fun t pending h => h

/-- The section that takes a candidate, if nothing that was classified before bears on it. -/
def sectionOf (p : Plan) (w : Workbook) (candidate : Candidate) (content : Content) :
    Option SectionKind :=
  ((bind p w).2.factsOf p candidate content).classify

/-- The section of cells that a formula refers to. -/
def cellSection (g : Region) : SectionKind := if g.hasFormula then .properties else .constants

/-- No two candidates have one identifier, so what was classified before does not bear on a name. -/
theorem factsOf_of_distinct (orderly : p.Orderly w)
    (interface : run.sections.interface = (bind p w).2.sections.interface) {done : List Candidate}
    (split : (bind p w).1 = done ++ candidate :: todo)
    (owners : ∀ identifier owner, Assoc.find? identifier run.owners = some owner →
      identifier ∈ done.map (·.identifier)) :
    run.factsOf p candidate content = (bind p w).2.factsOf p candidate content := by
  obtain ⟨named, known, -⟩ := exists_named p w
  have free : Assoc.find? candidate.identifier run.owners = none := by
    rw [Option.eq_none_iff_forall_ne_some]
    intro owner owned
    have distinct := orderly.identifiers
    rw [split, List.map_append] at distinct
    exact List.disjoint_of_nodup_append distinct (owners _ _ owned) (by simp)
  simp [factsOf, facts, isDuplicate, free, known.untouched.owners, interface]

/-- Cells that a formula refers to are never dropped: a formula makes them a property, and all else
a constant. -/
theorem classify_cells (discovered : candidate.discovered) (g : Region)
    (input : candidate.identifier ∉ run.sections.interface.inputs) :
    (run.factsOf p candidate (.region g)).classify = some (cellSection g) := by
  cases formula : g.hasFormula
  all_goals
    simp [cellSection, factsOf, facts, NameFacts.classify, SectionKind.all, NameFacts.fits,
      NameFacts.isUnusable, discovered, formula, Interface.hasInput, input]

/-- Found cells are no input, since inputs are the identifiers of cells that were bound before. -/
theorem Point.not_input (orderly : p.Orderly w) (point : Point p w todo left run)
    {key identifier : String}
    (made : run.table.binding? key = some ⟨identifier, .synthesized⟩) :
    identifier ∉ run.sections.interface.inputs := by
  intro input
  rw [point.interface] at input
  obtain ⟨other, found⟩ := exists_key_of_input orderly input
  have layer := layerOf_eq_some_iff.2 ⟨_, made, rfl⟩
  have own := lookup_eq_some_iff.2 ⟨_, made⟩
  obtain ⟨unbound, -⟩ := (point.made_up_iff key).1 layer
  obtain rfl := point.made_up_apart layer own (point.extends_bind.lookup found)
  rw [lookup_eq_none_iff.2 unbound] at found
  cases found

/-- The cells of a candidate are bound before anything is classified. -/
theorem bound_of_candidate (hc : candidate ∈ (bind p w).1) {key : String}
    (hkey : w.keyOf? candidate = some key) : (bind p w).2.table.binding? key ≠ none := by
  obtain ⟨named, known, candidates⟩ := exists_named p w
  obtain ⟨r, target, rfl⟩ := Workbook.keyOf?_eq_some_iff.1 hkey
  obtain ⟨b, bound⟩ := known.exists_binding (candidates ▸ hc) target
  rw [← known.key_eq, bound]
  exact Option.some_ne_none b

/-- What is classified is a candidate, of which all is known when the names are bound, or cells
with a made-up identifier. -/
theorem Point.classify_cases (orderly : p.Orderly w)
    (point : Point p w (candidate :: todo) left run) :
    (candidate ∈ (bind p w).1 ∧ ∀ content,
      (run.factsOf p candidate content).classify = sectionOf p w candidate content) ∨
    ∃ key r, candidate.target = .cells r ∧ Reference.parse key = .ok r ∧ w.key r = key ∧
      run.table.layerOf key = some .synthesized ∧
      ∀ g, (run.factsOf p candidate (.region g)).classify = some (cellSection g) := by
  cases point.stage with
  | names done split owners =>
    refine .inl ⟨split ▸ by simp, fun content => ?_⟩
    rw [factsOf_of_distinct orderly point.interface split owners, sectionOf]
  | @cells key r _ _ discovered target parsed hkey made =>
    refine .inr ⟨key, r, target, parsed, hkey, layerOf_eq_some_iff.2 ⟨_, made, rfl⟩, fun g => ?_⟩
    exact classify_cells discovered g (point.not_input orderly made)

/-! ### What is reached -/

/-- What a compilation reads, in whatever order, with the key of the cells if it is cells, and the
section that takes it: the candidates, and the cells without a name that properties refer to. -/
inductive Reaches (p : Plan) (w : Workbook) : Option String → Content → Option SectionKind → Prop
  | named {candidate : Candidate} {content : Content} (hc : candidate ∈ (bind p w).1)
    (hread : read w candidate = .ok content) :
    Reaches p w (w.keyOf? candidate) content (sectionOf p w candidate content)
  | found {source : Option String} {content : Content} {x : Reference × Option String}
    {key : String} {r : Reference} {g : Region}
    (reached : Reaches p w source content (some .properties)) (hx : x ∈ content.reads)
    (hkey : w.sheetTable.key x.1 x.2 = key) (unbound : (bind p w).2.table.binding? key = none)
    (parsed : Reference.parse key = .ok r) (hread : w.region r = .ok g) :
    Reaches p w (some key) (.region g) (some (cellSection g))

/-- A property refers to cells that have no name. -/
def Needs (p : Plan) (w : Workbook) (key : String) : Prop :=
  ∃ source content x, Reaches p w source content (some .properties) ∧ x ∈ content.reads ∧
    w.sheetTable.key x.1 x.2 = key ∧ (bind p w).2.table.binding? key = none

theorem read_eq_ok_iff {r : Reference} (target : candidate.target = .cells r) :
    read w candidate = .ok content ↔ ∃ g, w.region r = .ok g ∧ .region g = content := by
  simp only [read, target, Fallible.map_eq_ok_iff, Fallible.mapError_eq_ok_iff]

/-- What is classified at a point is reached, if what has turned up until then is needed. -/
theorem Point.reaches_of_needs (orderly : p.Orderly w)
    (point : Point p w (candidate :: todo) left run)
    (needs : ∀ key, run.table.layerOf key = some .synthesized → Needs p w key)
    (hread : read w candidate = .ok content) :
    Reaches p w (w.keyOf? candidate) content (run.factsOf p candidate content).classify := by
  rcases point.classify_cases orderly with ⟨hc, kind⟩ | ⟨key, r, target, parsed, hkey, made, kind⟩
  · rw [kind]
    exact .named hc hread
  · obtain ⟨g, hg, rfl⟩ := (read_eq_ok_iff target).1 hread
    rw [kind, Workbook.keyOf?_eq_some_iff.2 ⟨r, target, hkey⟩]
    obtain ⟨source, content, x, reached, hx, rfl, unbound⟩ := needs key made
    exact .found reached hx rfl unbound parsed hg

/-- A key is bound by a resolution only if it is the key of a reference that is resolved. -/
theorem key_of_resolveAll {reads : Reads} {t : AliasTable} {key : String}
    {b : Binding} (bound : (resolveAll reads t).2.binding? key = some b) :
    t.binding? key = some b ∨ ∃ x ∈ reads, t.key x.1 x.2 = key := by
  refine resolveAll_induction (P := fun t' => t'.sheets = t.sheets ∧ (t'.binding? key = some b →
    t.binding? key = some b ∨ ∃ x ∈ reads, t.key x.1 x.2 = key)) ⟨rfl, .inl⟩ ?_ |>.2 bound
  rintro t' x hx ⟨sheets, step⟩
  refine ⟨(sheets_resolve x.1 x.2).trans sheets, fun bound => ?_⟩
  obtain ⟨b, -, eq⟩ | ⟨-, eq⟩ := t'.resolve_cases x.1 x.2
  · exact step (by rwa [eq] at bound)
  · rw [eq, binding?_synthesize] at bound
    split at bound
    next same => exact .inr ⟨x, hx, by rw [same, key_congr sheets]⟩
    next => exact step bound

/-- Identifiers are made up for needed cells only. -/
theorem Point.needs (orderly : p.Orderly w) (point : Point p w todo left run) {key : String}
    (made : run.table.layerOf key = some .synthesized) : Needs p w key := by
  induction point generalizing key with
  | bound =>
    obtain ⟨unbound, b, bound⟩ := (Point.bound.made_up_iff key).1 made
    simp [unbound] at bound
  | @processed candidate todo left run point ih =>
    obtain ⟨unbound, b, bound⟩ := (point.processed.made_up_iff key).1 made
    rw [(process_outcome p w run candidate).table] at bound
    rcases key_of_resolveAll bound with old | ⟨x, hx, hkey⟩
    · exact ih ((point.made_up_iff key).2 ⟨unbound, b, old⟩)
    · rw [key_congr point.sheets] at hkey
      unfold Run.reads at hx
      split at hx
      next => simp at hx
      next content hread =>
        have reached := point.reaches_of_needs orderly (fun key => ih) hread
        split at hx
        next kind => exact ⟨_, content, x, kind ▸ reached, hx, hkey, unbound⟩
        next => simp at hx
  | found point next parsed ih | unread point next unparsed ih | stopped point next ih =>
    obtain ⟨rest, -, rfl⟩ := next_eq_some next
    exact ih made
  | settled point next ih =>
    rw [(next_eq_none next).2] at made
    exact ih made

/-- What is classified at a point is reached. -/
theorem Point.reaches (orderly : p.Orderly w) (point : Point p w (candidate :: todo) left run)
    (hread : read w candidate = .ok content) :
    Reaches p w (w.keyOf? candidate) content (run.factsOf p candidate content).classify :=
  point.reaches_of_needs orderly (fun _ => point.needs orderly) hread

/-! ### All that is reached is read -/

/-- At some point of the compilation the candidate is read, and the section takes it. -/
def Classified (p : Plan) (w : Workbook) (candidate : Candidate) (content : Content)
    (kind : Option SectionKind) : Prop :=
  ∃ todo left run, Point p w (candidate :: todo) left run ∧ read w candidate = .ok content ∧
    (run.factsOf p candidate content).classify = kind

/-- Candidates can be classified until the one of interest is first. -/
theorem Point.skip {done : List Candidate} (point : Point p w (done ++ todo) left run) :
    ∃ run', Point p w todo left run' := by
  induction done generalizing run with
  | nil => exact ⟨run, point⟩
  | cons first done ih => exact ih point.processed

/-- Every candidate has its point. -/
theorem exists_point_of_candidate (hc : candidate ∈ (bind p w).1) :
    ∃ todo left run, Point p w (candidate :: todo) left run := by
  obtain ⟨done, todo, split⟩ := List.append_of_mem hc
  obtain ⟨run, point⟩ := (split ▸ Point.bound : Point p w (done ++ candidate :: todo) _ _).skip
  exact ⟨todo, _, run, point⟩

/-- A key that is followed is read as cells with this key. -/
theorem Point.exists_point_of_followed {key : String} (point : Point p w [] left run)
    (h : key ∈ followed p w left run) :
    ∃ candidate r left' run', Point p w [candidate] left' run' ∧ candidate.target = .cells r ∧
      Reference.parse key = .ok r ∧ w.key r = key := by
  induction left generalizing run with
  | zero => simp [followed] at h
  | succ left ih =>
    cases next : run.next with
    | mk first run' =>
      cases first with
      | none => simp [followed_of_none next] at h
      | some first =>
        rw [followed_succ next] at h
        rcases List.mem_cons.1 h with rfl | later
        · obtain ⟨taken, dropped, progress⟩ := point.progress
          obtain ⟨rest, queue, -⟩ := progress.next_eq_some next
          obtain ⟨r, parsed, hkey⟩ := progress.queues.readable key (by simp [queue])
          exact ⟨_, r, left, _, point.found next parsed, rfl, parsed,
            (key_congr point.sheets r none).symm.trans hkey⟩
        · exact ih (point.follow next) later

variable (p w) in
/-- The compilation at its end, with all keys that were followed or dropped. -/
theorem progress_compile :
    ∃ dropped left, Progress p w (trail p w) dropped [] left (compile p w) := by
  have empty : (compile p w).table.pending = [] := pending_discover ..
  obtain ⟨left, point, -⟩ := exists_point_compile p w
  obtain ⟨taken, dropped, progress⟩ := point.progress
  have rest := progress.rest
  rw [List.foldl_nil, followed_of_empty empty, List.append_nil] at rest
  exact ⟨dropped, left, rest ▸ progress⟩

/-- The limit suffices exactly if there are not more made-up identifiers. -/
theorem settled_iff : (compile p w).unsettled = [] ↔
    (compile p w).table.madeUp.length ≤ p.config.maxDiscoveries := by
  obtain ⟨dropped, left, progress⟩ := progress_compile p w
  have empty : (compile p w).table.pending = [] := pending_discover ..
  have total := progress.queues.perm.length_eq
  rw [empty, List.append_nil, List.length_append] at total
  have count := progress.count
  have budget := progress.budget
  rw [progress.errors]
  by_cases all : dropped = []
  · rw [if_pos all]
    rw [all, List.length_nil] at total
    exact iff_of_true rfl (by omega)
  · obtain ⟨-, rfl, -⟩ := progress.stopped all
    rw [if_neg all]
    have := List.length_pos_iff.2 all
    exact iff_of_false (by simp) (by omega)

/-- If the limit suffices, every key with a made-up identifier is followed. -/
theorem mem_trail (settled : (compile p w).unsettled = []) {key : String}
    (made : (compile p w).table.layerOf key = some .synthesized) : key ∈ trail p w := by
  obtain ⟨dropped, left, progress⟩ := progress_compile p w
  have empty : (compile p w).table.pending = [] := pending_discover ..
  have errors := progress.errors
  rw [settled] at errors
  obtain rfl : dropped = [] := by
    by_contra some
    simp [some] at errors
  simpa [empty] using (progress.queues.madeUp key).2 made

/-- What a property refers to gets a made-up identifier, unless it has one. -/
theorem Classified.made_up (classified : Classified p w candidate content (some .properties))
    {x : Reference × Option String} (hx : x ∈ content.reads)
    (unbound : (bind p w).2.table.binding? (w.sheetTable.key x.1 x.2) = none) :
    (compile p w).table.layerOf (w.sheetTable.key x.1 x.2) = some .synthesized := by
  obtain ⟨todo, left, run, point, hread, kind⟩ := classified
  obtain ⟨b, bound⟩ := exists_binding?_resolveAll hx run.table
  rw [key_congr point.sheets, ← reads_of_property hread kind,
    ← (process_outcome p w run candidate).table] at bound
  obtain ⟨rest, finish, -⟩ := exists_point_compile p w
  exact (finish.made_up_iff _).2 ⟨unbound, b, point.processed.extends_compile _ b bound⟩

/-- If the limit suffices, all that is reached is classified so. -/
theorem Reaches.classified (orderly : p.Orderly w) (settled : (compile p w).unsettled = [])
    {source : Option String} {kind : Option SectionKind}
    (reached : Reaches p w source content kind) :
    ∃ candidate, w.keyOf? candidate = source ∧ Classified p w candidate content kind := by
  induction reached with
  | @named candidate content hc hread =>
    obtain ⟨todo, left, run, point⟩ := exists_point_of_candidate hc
    refine ⟨candidate, rfl, todo, left, run, point, hread, ?_⟩
    rcases point.classify_cases orderly with ⟨-, kind⟩ | ⟨key, r, target, -, hkey, made, -⟩
    · exact kind content
    · obtain ⟨unbound, -⟩ := (point.made_up_iff key).1 made
      have bound := bound_of_candidate hc (Workbook.keyOf?_eq_some_iff.2 ⟨r, target, hkey⟩)
      exact absurd unbound bound
  | @found source content x key r g reached hx hkey unbound parsed hread ih =>
    obtain ⟨candidate, -, classified⟩ := ih
    subst hkey
    have made := classified.made_up hx unbound
    obtain ⟨c, r', left, run, point, target, parsed', hkey⟩ :=
      Point.bound.foldl_process.exists_point_of_followed (mem_trail settled made)
    obtain rfl : r' = r := Except.ok.inj (parsed'.symm.trans parsed)
    have source : w.keyOf? c = some (w.sheetTable.key x.1 x.2) :=
      Workbook.keyOf?_eq_some_iff.2 ⟨r', target, hkey⟩
    refine ⟨c, source, [], left, run, point, (read_eq_ok_iff target).2 ⟨g, hread, rfl⟩, ?_⟩
    rcases point.classify_cases orderly with ⟨hc, -⟩ | ⟨-, -, -, -, -, -, kind⟩
    · exact absurd unbound (bound_of_candidate hc source)
    · exact kind g

/-- If the limit suffices, what is classified is what is reached. -/
theorem classified_iff (orderly : p.Orderly w) (settled : (compile p w).unsettled = [])
    {source : Option String} {kind : Option SectionKind} :
    (∃ candidate, w.keyOf? candidate = source ∧ Classified p w candidate content kind) ↔
      Reaches p w source content kind := by
  constructor
  · rintro ⟨candidate, rfl, todo, left, run, point, hread, rfl⟩
    exact point.reaches orderly hread
  · exact fun reached => reached.classified orderly settled

/-- If the limit suffices, identifiers are made up for exactly the cells that are needed. -/
theorem made_up_iff_needs (orderly : p.Orderly w) (settled : (compile p w).unsettled = [])
    (key : String) : (compile p w).table.layerOf key = some .synthesized ↔ Needs p w key := by
  constructor
  · intro made
    obtain ⟨left, point, -⟩ := exists_point_compile p w
    exact point.needs orderly made
  · rintro ⟨source, content, x, reached, hx, rfl, unbound⟩
    obtain ⟨candidate, -, classified⟩ := reached.classified orderly settled
    exact classified.made_up hx unbound

/-! ### Errors -/

/-- Classifying never takes an error back; the next lemmas carry this to the end. -/
theorem errors_process (p : Plan) (w : Workbook) (run : Run) (candidate : Candidate) :
    run.errors ⊆ (run.process p w candidate).errors := by
  obtain ⟨more, eq⟩ := (process_outcome p w run candidate).errors
  exact eq ▸ List.subset_append_left _ _

theorem errors_foldl_process (todo : List Candidate) :
    run.errors ⊆ (todo.foldl (process p w) run).errors := by
  induction todo generalizing run with
  | nil => exact List.Subset.refl _
  | cons candidate todo ih => exact List.Subset.trans (errors_process p w run candidate) ih

theorem errors_follow (run : Run) (key : String) : run.errors ⊆ (run.follow p w key).errors := by
  unfold Run.follow
  split
  · exact List.subset_append_left _ _
  · exact errors_process p w { run with discovered := run.discovered + 1 } _

/-- Following references never takes an error back. -/
theorem errors_discover : run.errors ⊆ (discover p w left run).errors := by
  induction left generalizing run with
  | zero =>
    cases next : run.next with
    | mk key run' =>
      cases key with
      | none =>
        rw [discover_of_none next, (next_eq_none next).2]
        exact List.Subset.refl _
      | some key =>
        obtain ⟨rest, -, rfl⟩ := next_eq_some next
        rw [discover_zero next]
        exact List.subset_append_left _ _
  | succ left ih =>
    cases next : run.next with
    | mk key run' =>
      cases key with
      | none =>
        rw [discover_of_none next, (next_eq_none next).2]
        exact List.Subset.refl _
      | some key =>
        obtain ⟨rest, -, rfl⟩ := next_eq_some next
        rw [discover_succ next]
        exact List.Subset.trans (errors_follow { run with table.pending := rest } key) ih

/-- A compilation that succeeds in the end has not failed before. -/
theorem Point.errors_eq_nil (point : Point p w todo left run)
    (success : (compile p w).errors = []) : run.errors = [] := by
  rw [← point.discover_eq] at success
  have kept : run.errors ⊆ (Run.discover p w left (todo.foldl (process p w) run)).errors :=
    List.Subset.trans (errors_foldl_process todo) errors_discover
  rw [success] at kept
  exact List.eq_nil_of_subset_nil kept

/-- Classifying reports an error unless what the candidate stands for can be read, and can be
written if it becomes a property. -/
theorem Outcome.errors_eq_iff (outcome : Outcome p w run candidate run') :
    run'.errors = run.errors ↔ ∃ content, read w candidate = .ok content ∧
      ((run.factsOf p candidate content).classify = some .properties → content.isWritable) := by
  cases outcome with
  | unreadable e unread => simp [fail, unread]
  | diagnosed content hread kind | input content hread kind | constant content hread kind
  | unclassified content hread kind =>
    refine iff_of_true ?_ ⟨content, hread, by simp [kind]⟩
    simp [diagnose, addUnclassified, addConstant, setOwner]
  | property content python hread kind written =>
    refine iff_of_true (by simp [addProperty_of_ok written, setOwner]) ⟨content, hread, fun _ => ?_⟩
    rw [← body_fst p candidate run.table content, written]
    rfl
  | unwritten content e hread kind failed =>
    refine iff_of_false (by simp [addProperty_of_error failed, fail]) ?_
    rintro ⟨content', hread', writable⟩
    obtain rfl : content' = content := Except.ok.inj (hread'.symm.trans hread)
    have := writable kind
    rw [← body_fst p candidate run.table content', failed] at this
    cases this

/-- All that is reached can be read and written. -/
structure Passes (p : Plan) (w : Workbook) : Prop where
  names : ∀ candidate ∈ (bind p w).1, ∃ content, read w candidate = .ok content
  cells : ∀ key, Needs p w key → ∃ r g, Reference.parse key = .ok r ∧ w.region r = .ok g
  bodies : ∀ source content, Reaches p w source content (some .properties) → content.isWritable

/-- If all can be read and written, the only error is that the limit was reached. -/
theorem Point.errors_eq_unsettled (orderly : p.Orderly w) (passes : Passes p w)
    (point : Point p w todo left run) : run.errors = run.unsettled := by
  induction point with
  | bound =>
    obtain ⟨named, known, -⟩ := exists_named p w
    simp [unsettled, known.untouched.errors]
  | @processed candidate todo left run point ih =>
    have outcome := process_outcome p w run candidate
    have readable : ∃ content, read w candidate = .ok content := by
      rcases point.classify_cases orderly with ⟨hc, -⟩ | ⟨key, r, target, parsed, -, made, -⟩
      · exact passes.names candidate hc
      · obtain ⟨r', g, parsed', hg⟩ := passes.cells key (point.needs orderly made)
        obtain rfl : r' = r := Except.ok.inj (parsed'.symm.trans parsed)
        exact ⟨.region g, (read_eq_ok_iff target).2 ⟨g, hg, rfl⟩⟩
    obtain ⟨content, hread⟩ := readable
    have same : (run.process p w candidate).errors = run.errors := by
      refine outcome.errors_eq_iff.2 ⟨content, hread, fun kind => ?_⟩
      exact passes.bodies _ content (kind ▸ point.reaches orderly hread)
    rw [same, outcome.keeps.2, ih]
  | found point next parsed ih =>
    obtain ⟨rest, -, rfl⟩ := next_eq_some next
    exact ih
  | unread point next unparsed ih =>
    -- What is queued can be read.
    obtain ⟨taken, dropped, progress⟩ := point.progress
    obtain ⟨rest, queue, -⟩ := progress.next_eq_some next
    obtain ⟨r, parsed, -⟩ := progress.queues.readable _ (queue ▸ List.mem_cons_self)
    cases unparsed.symm.trans parsed
  | settled point next ih =>
    rw [(next_eq_none next).2]
    exact ih
  | stopped point next ih =>
    obtain ⟨rest, -, rfl⟩ := next_eq_some next
    unfold unsettled at ih ⊢
    rw [stop, fail, List.filter_append, ← ih]
    rfl

/-- What is classified in a compilation that succeeds can be read and written. -/
theorem Point.passes (success : (compile p w).errors = [])
    (point : Point p w (candidate :: todo) left run) :
    ∃ content, read w candidate = .ok content ∧
      ((run.factsOf p candidate content).classify = some .properties → content.isWritable) := by
  refine (process_outcome p w run candidate).errors_eq_iff.1 ?_
  rw [point.errors_eq_nil success, point.processed.errors_eq_nil success]

/-- The way back: in a compilation that succeeds each candidate, each cell that is needed and each
body has come to its point, and none has failed there. -/
theorem passes_of_success (orderly : p.Orderly w) (success : (compile p w).errors = []) :
    Passes p w := by
  have settled : (compile p w).unsettled = [] := by rw [unsettled, success, List.filter_nil]
  refine ⟨fun candidate hc => ?_, fun key needs => ?_, fun source content reached => ?_⟩
  · obtain ⟨todo, left, run, point⟩ := exists_point_of_candidate hc
    obtain ⟨content, hread, -⟩ := point.passes success
    exact ⟨content, hread⟩
  · have made := (made_up_iff_needs orderly settled key).2 needs
    obtain ⟨c, r, left, run, point, target, parsed, -⟩ :=
      Point.bound.foldl_process.exists_point_of_followed (mem_trail settled made)
    obtain ⟨content, hread, -⟩ := point.passes success
    obtain ⟨g, hg, -⟩ := (read_eq_ok_iff target).1 hread
    exact ⟨r, g, parsed, hg⟩
  · obtain ⟨candidate, -, todo, left, run, point, hread, kind⟩ := reached.classified orderly settled
    obtain ⟨content', hread', writable⟩ := point.passes success
    obtain rfl : content' = content := Except.ok.inj (hread'.symm.trans hread)
    exact writable kind

/-- A compilation succeeds exactly if the limit suffices and all that is reached can be read and
written. -/
theorem success_iff (orderly : p.Orderly w) :
    (compile p w).errors = [] ↔ (compile p w).unsettled = [] ∧ Passes p w := by
  constructor
  · intro success
    exact ⟨by rw [unsettled, success, List.filter_nil], passes_of_success orderly success⟩
  · rintro ⟨settled, passes⟩
    obtain ⟨left, point, -⟩ := exists_point_compile p w
    rw [point.errors_eq_unsettled orderly passes, settled]

end Run

end SheetCompiler
