import Mathlib.Data.List.Dedup
import SheetCompiler.Proofs.Compile.Closure

/-!
# Following references

A made-up identifier queues its key, and the queue is drained while it grows. `AliasTable.Queues`
ties the queue to the bindings: the keys with made-up identifiers are those that were taken out and
those that are left, each once, and cells that were read or wait to be read are not among the
latter. Resolving a reference keeps this and so does taking a key out, so nothing in the queue has
been read, and a compilation accounts for every key that it made an identifier up for.
-/

namespace SheetCompiler

namespace AliasTable

variable {t : AliasTable} {taken closed : List String} {key : String}

/-- The keys with made-up identifiers. -/
def madeUp (t : AliasTable) : List String :=
  (t.bindings.map (·.1)).dedup.filter fun key => t.layerOf key = some .synthesized

theorem nodup_madeUp (t : AliasTable) : t.madeUp.Nodup := (List.nodup_dedup _).filter _

theorem layerOf_eq_some_iff {layer : Layer} :
    t.layerOf key = some layer ↔ ∃ b, t.binding? key = some b ∧ b.layer = layer := by
  simp [layerOf]

/-- The keys that are listed are those whose identifiers are made up. -/
theorem mem_madeUp : key ∈ t.madeUp ↔ t.layerOf key = some .synthesized := by
  have known : ∀ (m : List (String × Binding)) b, Assoc.find? key m = some b → key ∈ m.map (·.1) := by
    intro m b found
    induction m with
    | nil => simp at found
    | cons entry m ih =>
      obtain ⟨k, v⟩ := entry
      rw [Assoc.find?] at found
      split at found
      next same => simp [same]
      next => exact List.mem_cons_of_mem _ (ih found)
  simp only [madeUp, List.mem_filter, List.mem_dedup, decide_eq_true_eq, and_iff_right_iff_imp]
  intro layer
  obtain ⟨b, bound, -⟩ := layerOf_eq_some_iff.1 layer
  exact known _ b bound

/-- The keys with made-up identifiers are those that were taken out of the queue and those in it.
Closed are the keys of cells that were read, or are about to be. -/
structure Queues (t : AliasTable) (taken closed : List String) : Prop where
  nodup : (taken ++ t.pending).Nodup
  madeUp : ∀ key, key ∈ taken ++ t.pending ↔ t.layerOf key = some .synthesized
  closed : ∀ key ∈ closed, (∃ b, t.binding? key = some b) ∧ key ∉ t.pending
  readable : ∀ key ∈ t.pending, ∃ r, Reference.parse key = .ok r ∧ t.key r none = key

namespace Queues

/-- Fewer keys may be said to be closed. -/
theorem subset {closed' : List String} (queues : t.Queues taken closed) (sub : closed' ⊆ closed) :
    t.Queues taken closed' :=
  ⟨queues.nodup, queues.madeUp, fun key h => queues.closed key (sub h), queues.readable⟩

/-- The keys that were taken out and those that are left are the keys with made-up identifiers, each
once. -/
theorem perm (queues : t.Queues taken closed) : (taken ++ t.pending).Perm t.madeUp := by
  refine (List.perm_ext_iff_of_nodup queues.nodup t.nodup_madeUp).2 fun key => ?_
  rw [queues.madeUp, mem_madeUp]

/-- Making an identifier up queues a key that is neither queued nor closed. -/
theorem resolve (queues : t.Queues taken closed) {r : Reference} (normalized : r.range.Normalized)
    (current : Option String) : (t.resolve r current).2.Queues taken closed := by
  obtain ⟨b, -, eq⟩ | ⟨unbound, eq⟩ := t.resolve_cases r current
  · rwa [eq]
  have keys : ∀ q, (t.resolve r current).2.key q none = t.key q none :=
    fun q => key_congr (sheets_resolve r current) q none
  have parsed := parse_key t normalized current
  have same := key_of_parse_key t normalized current parsed
  rw [eq] at keys ⊢
  generalize t.key r current = new at *
  have fresh : new ∉ taken ++ t.pending := by
    rw [queues.madeUp, layerOf_eq_some_iff]
    rintro ⟨b, bound, -⟩
    simp [unbound] at bound
  have pending : taken ++ (t.synthesize new).2.pending = (taken ++ t.pending) ++ [new] := by simp
  refine ⟨?_, fun key => ?_, fun key h => ?_, fun key h => ?_⟩
  · rw [pending]
    exact List.nodup_append_comm.1 (List.nodup_cons.2 ⟨fresh, queues.nodup⟩)
  · rw [pending, List.mem_append, queues.madeUp, List.mem_singleton, layerOf, layerOf,
      binding?_synthesize]
    by_cases h : key = new <;> simp [h]
  · obtain ⟨⟨b, bound⟩, left⟩ := queues.closed key h
    have other : key ≠ new := by
      rintro rfl
      simp [unbound] at bound
    exact ⟨⟨b, by simp [other, bound]⟩, by simp [other, left]⟩
  · rw [pending_synthesize, List.mem_append, List.mem_singleton] at h
    rcases h with old | rfl
    · obtain ⟨q, parsed, same⟩ := queues.readable key old
      exact ⟨q, parsed, by rw [keys, same]⟩
    · exact ⟨_, parsed, by rw [keys, same]⟩

/-- Resolving references one by one keeps the queue in order. -/
theorem resolveAll (queues : t.Queues taken closed) {reads : Reads} (normalized : reads.Normalized) :
    (AliasTable.resolveAll reads t).2.Queues taken closed :=
  resolveAll_induction (P := fun t => t.Queues taken closed) queues
    fun _ x hx queues => queues.resolve (normalized x hx) x.2

/-- A key that is taken out of the queue can be closed: it does not come back. -/
theorem take {rest : List String} (queues : t.Queues taken closed) (queue : t.pending = key :: rest) :
    { t with pending := rest }.Queues (taken ++ [key]) (key :: closed) := by
  have split : taken ++ [key] ++ rest = taken ++ t.pending := by simp [queue]
  have nodup : (key :: rest).Nodup := queue ▸ queues.nodup.of_append_right
  refine ⟨?_, fun k => ?_, fun k h => ?_, fun k h => ?_⟩
  · exact split ▸ queues.nodup
  · exact split ▸ queues.madeUp k
  · rcases List.mem_cons.1 h with rfl | h
    · have : k ∈ taken ++ t.pending := by simp [queue]
      obtain ⟨b, bound, -⟩ := layerOf_eq_some_iff.1 ((queues.madeUp k).1 this)
      exact ⟨⟨b, bound⟩, (List.nodup_cons.1 nodup).1⟩
    · obtain ⟨bound, left⟩ := queues.closed k h
      exact ⟨bound, fun hk => left (queue ▸ List.mem_cons_of_mem _ hk)⟩
  · exact queues.readable k (queue ▸ List.mem_cons_of_mem _ h)

/-- What is left in the queue can be given up as a whole. -/
theorem giveUp (queues : t.Queues taken closed) :
    { t with pending := [] }.Queues (taken ++ t.pending) closed := by
  refine ⟨by simpa using queues.nodup, fun key => ?_, fun key h => ?_, by simp⟩
  · rw [List.append_nil]
    exact queues.madeUp key
  · exact ⟨(queues.closed key h).1, by simp⟩

end Queues

end AliasTable

/-- The error tells that references were left when the limit was reached. -/
def CompileError.isUnsettled : CompileError → Bool
  | unsettled .. => true
  | _ => false

@[simp] theorem CompileError.isUnsettled_unsettled (limit pending : Nat) :
    (unsettled limit pending).isUnsettled = true := rfl

open AliasTable

/-! ### Errors of bodies -/

namespace Body

variable {c : Config} {symbols : Python.Symbols} {name : String} {e : CompileError}

/-- What goes wrong in a body is never the limit; the next lemmas follow the way a body is written.
-/
theorem formula_error {scope : Python.Scope} {location text : String} {t : AliasTable}
    (h : (formula scope name location text t).1 = .error e) : e.isUnsettled = false := by
  unfold formula at h
  split at h
  · cases h
    rfl
  · cases h

theorem cell_error {literal : RegionCell → String} {sheet : String} {x : RegionCell}
    {t : AliasTable} (h : (cell symbols name literal sheet x t).1 = .error e) :
    e.isUnsettled = false := by
  unfold cell at h
  split at h
  · exact formula_error h
  · cases h

theorem items_error {sheet : String} {cells : List RegionCell} {t : AliasTable}
    (h : (items c symbols name sheet cells t).1 = .error e) : e.isUnsettled = false := by
  induction cells generalizing t with
  | nil => cases h
  | cons first rest ih =>
    rw [items] at h
    split at h
    next failed =>
      cases h
      exact cell_error (congrArg (·.1) failed)
    next => exact ih (Fallible.map_eq_error_iff.1 h)

theorem rows_error {sheet : String} {cells : List (List RegionCell)} {t : AliasTable}
    (h : (rows c symbols name sheet cells t).1 = .error e) : e.isUnsettled = false := by
  induction cells generalizing t with
  | nil => cases h
  | cons first rest ih =>
    rw [rows] at h
    split at h
    next failed =>
      cases h
      exact items_error (congrArg (·.1) failed)
    next => exact ih (Fallible.map_eq_error_iff.1 h)

/-- Neither a single cell nor a tuple of rows reports the limit. -/
theorem region_error {g : Region} {t : AliasTable}
    (h : (region c symbols name g t).1 = .error e) : e.isUnsettled = false := by
  unfold region at h
  split at h
  · exact cell_error h
  · split at h
    · cases h
    · exact rows_error (Fallible.map_eq_error_iff.1 h)

end Body

namespace Run

/-- No body reports the limit. -/
theorem body_error {p : Plan} {candidate : Candidate} {t : AliasTable} {content : Content}
    {e : CompileError} (h : (body p candidate t content).1 = .error e) : e.isUnsettled = false := by
  cases content with
  | region g => exact Body.region_error h
  | formula text sheet =>
    rw [body_formula] at h
    exact Body.formula_error h
  | nothing => cases h

/-- Cells that cannot be read do not report the limit. -/
theorem read_error {w : Workbook} {candidate : Candidate} {e : CompileError}
    (h : read w candidate = .error e) : e.isUnsettled = false := by
  unfold read at h
  split at h
  next r target =>
    obtain ⟨cause, -, rfl⟩ := Fallible.mapError_eq_error_iff.1 (Fallible.map_eq_error_iff.1 h)
    rfl
  next => cases h
  next => cases h

/-- The errors that tell of references that were left. -/
def unsettled (run : Run) : List CompileError := run.errors.filter (·.isUnsettled)

variable {p : Plan} {w : Workbook} {run run' : Run} {candidate : Candidate} {todo : List Candidate}
  {left : Nat}

@[simp] theorem discovered_arrive (run : Run) (candidate : Candidate) :
    (run.arrive candidate).discovered = run.discovered := by
  unfold arrive visit
  split <;> rfl

@[simp] theorem discovered_count (run : Run) (method : BodyMethod) :
    (run.count method).discovered = run.discovered := by
  cases method <;> rfl

/-- Classifying a candidate neither follows a reference nor reports that some were left. -/
theorem Outcome.keeps (outcome : Outcome p w run candidate run') :
    run'.discovered = run.discovered ∧ run'.unsettled = run.unsettled := by
  unfold unsettled
  cases outcome with
  | unreadable e unread => simp [fail, read_error unread]
  | diagnosed | input | constant | unclassified =>
    simp [diagnose, addUnclassified, addConstant, setOwner]
  | property content python hread kind written =>
    simp [addProperty_of_ok written, setOwner]
  | unwritten content e hread kind failed =>
    simp [addProperty_of_error failed, fail, body_error failed]

/-! ### Nothing is classified while names are bound -/

/-- Only the table, the interface and the inputs tell the run from one that has not begun. -/
def JustBound (run : Run) : Prop :=
  ∃ table interface inputs, run = { table, sections := { interface }, inputs }

/-- The step for one name: it reaches the table, the interface and the inputs only. -/
theorem JustBound.bindName (c : Config) (w : Workbook) (d : DefinedName)
    (h : run.JustBound) : (run.bindName c w d).2.JustBound := by
  obtain ⟨table, interface, inputs, rfl⟩ := h
  unfold Run.bindName bindCells
  cases d.target with
  | cells r =>
    dsimp only
    split
    next bound =>
      rcases declare_cases c w r _ _ _ with h | h | h <;> rw [h] <;> exact ⟨_, _, _, rfl⟩
    next => exact ⟨_, _, _, rfl⟩
  | formula | unresolved | builtin | broken => exact ⟨_, _, _, rfl⟩

/-- The run of the step over all names. -/
theorem justBound_bindNames (c : Config) (w : Workbook) (ds : List DefinedName)
    (h : run.JustBound) : (bindNames c w ds run).2.JustBound := by
  induction ds generalizing run with
  | nil => exact h
  | cons d ds ih =>
    rw [bindNames]
    exact ih (h.bindName c w d)

theorem justBound_bind (p : Plan) (w : Workbook) : (bind p w).2.JustBound := by
  refine justBound_bindNames p.config w w.names ?_
  refine List.foldlRecOn _ _ (List.foldlRecOn _ _ (List.foldlRecOn _ _ ⟨_, _, _, rfl⟩ ?_) ?_) ?_
  all_goals
    rintro run ⟨table, interface, inputs, rfl⟩ x -
    exact ⟨_, _, _, rfl⟩

theorem discovered_bind (p : Plan) (w : Workbook) : (bind p w).2.discovered = 0 := by
  obtain ⟨table, interface, inputs, h⟩ := justBound_bind p w
  rw [h]

/-! ### The keys that are followed -/

/-- The keys that are taken out of the queue, in order, by a run that may follow so many. -/
def followed (p : Plan) (w : Workbook) : Nat → Run → List String
  | 0, _ => []
  | left + 1, run =>
    match run.next with
    | (none, _) => []
    | (some key, run) => key :: followed p w left (run.follow p w key)

/-- The keys that a compilation follows. -/
def trail (p : Plan) (w : Workbook) : List String :=
  followed p w p.config.maxDiscoveries ((bind p w).1.foldl (process p w) (bind p w).2)

theorem followed_of_none (next : run.next = (none, run')) : followed p w left run = [] := by
  cases left <;> simp [followed, next]

theorem followed_of_empty (empty : run.table.pending = []) : followed p w left run = [] :=
  followed_of_none (next_of_empty empty)

theorem followed_succ {key : String} (next : run.next = (some key, run')) :
    followed p w (left + 1) run = key :: followed p w left (run'.follow p w key) := by
  rw [followed, next]

/-- What is known of a compilation that has followed the keys taken and gives up the ones dropped. -/
structure Progress (p : Plan) (w : Workbook) (taken dropped : List String) (todo : List Candidate)
    (left : Nat) (run : Run) : Prop where
  queues : run.table.Queues (taken ++ dropped) (run.visited ++ namedKeys run.table todo)
  count : run.discovered = taken.length
  budget : run.discovered + left = p.config.maxDiscoveries
  errors : run.unsettled =
    if dropped = [] then [] else [.unsettled p.config.maxDiscoveries dropped.length]
  stopped : dropped ≠ [] → todo = [] ∧ left = 0 ∧ run.table.pending = []
  rest : taken ++ followed p w left (todo.foldl (process p w) run) = trail p w

namespace Progress

variable {taken dropped : List String}

variable (p w) in
/-- When the names are bound, no identifier has been made up and no key followed. -/
theorem bound : Progress p w [] [] (bind p w).1 p.config.maxDiscoveries (bind p w).2 := by
  obtain ⟨named, known, candidates⟩ := exists_named p w
  obtain ⟨errors, -, visited, -, pending⟩ := known.untouched
  refine ⟨⟨by simp [pending], fun key => ?_, fun key h => ?_, by simp [pending]⟩, ?_, ?_, ?_, ?_, rfl⟩
  · simp only [pending, List.append_nil, List.not_mem_nil, false_iff, layerOf_eq_some_iff]
    rintro ⟨b, bound, layer⟩
    have := known.layers key b bound
    simp [layer, Layer.rank] at this
  · rw [visited, List.nil_append] at h
    obtain ⟨c, hc, r, target, rfl⟩ := mem_namedKeys.1 h
    exact ⟨known.exists_binding (candidates ▸ hc) target, by simp [pending]⟩
  · exact discovered_bind p w
  · simp [discovered_bind]
  · simp [unsettled, errors]
  · simp

/-- Keys queued while a candidate is classified are neither those of cells that were read nor those
of candidates that are left. -/
theorem processed (progress : Progress p w taken dropped (candidate :: todo) left run) :
    Progress p w taken dropped todo left (run.process p w candidate) := by
  have outcome := process_outcome p w run candidate
  have table := outcome.table
  obtain ⟨discovered, errors⟩ := outcome.keeps
  have sheets : (run.process p w candidate).table.sheets = run.table.sheets := by
    rw [table, sheets_resolveAll]
  refine ⟨?_, discovered.trans progress.count, discovered ▸ progress.budget,
    errors.trans progress.errors, fun h => ?_, progress.rest⟩
  · refine AliasTable.Queues.subset (table ▸ progress.queues.resolveAll normalized_reads) ?_
    intro key h
    rw [List.mem_append, mem_namedKeys] at h ⊢
    rcases h with read | ⟨c, hc, r, target, rfl⟩
    · rcases mem_visited_arrive (outcome.visited read) with old | ⟨r, target, rfl⟩
      · exact .inl old
      · exact .inr ⟨candidate, List.mem_cons_self, r, target, rfl⟩
    · exact .inr ⟨c, List.mem_cons_of_mem _ hc, r, target, (key_congr sheets r none).symm⟩
  · cases (progress.stopped h).1

/-- Nothing in the queue was read. -/
theorem unread (progress : Progress p w taken dropped todo left run) {key : String}
    (queued : key ∈ run.table.pending) : key ∉ run.visited :=
  fun read => (progress.queues.closed key (List.mem_append_left _ read)).2 queued

/-- So no key is passed over when the next one is taken out. -/
theorem dropWhile_pending (progress : Progress p w taken dropped todo left run) :
    run.table.pending.dropWhile (· ∈ run.visited) = run.table.pending := by
  cases queue : run.table.pending with
  | nil => rfl
  | cons key rest =>
    have unread : key ∉ run.visited := progress.unread (by simp [queue])
    simp [unread]

/-- The key that is taken out is the first one in the queue. -/
theorem next_eq_some (progress : Progress p w taken dropped [] left run) {key : String}
    (next : run.next = (some key, run')) :
    ∃ rest, run.table.pending = key :: rest ∧ run' = { run with table.pending := rest } := by
  rw [← progress.dropWhile_pending]
  exact Run.next_eq_some next

/-- Where no key is taken to be followed, the queue is empty. -/
theorem next_eq_none (progress : Progress p w taken dropped [] left run)
    (next : run.next = (none, run')) :
    run.table.pending = [] ∧ run' = { run with table.pending := [] } := by
  rw [← progress.dropWhile_pending]
  exact Run.next_eq_none next

/-- A key that is taken out is that of the cells to read next. -/
theorem found (progress : Progress p w taken dropped [] (left + 1) run) {key : String}
    {r : Reference} (next : run.next = (some key, run')) (parsed : Reference.parse key = .ok r) :
    Progress p w (taken ++ [key]) dropped [run'.discovery key r] left
      { run' with discovered := run'.discovered + 1 } := by
  have going : dropped = [] := by
    by_contra stopped
    cases (progress.stopped stopped).2.1
  subst going
  have rest := progress.rest
  have budget := progress.budget
  rw [List.foldl_nil, followed_succ next, follow, parsed] at rest
  obtain ⟨others, queue, rfl⟩ := progress.next_eq_some next
  obtain ⟨q, parsed', same⟩ := progress.queues.readable key (by simp [queue])
  obtain rfl : q = r := Except.ok.inj (parsed'.symm.trans parsed)
  have queues := progress.queues.take queue
  rw [List.append_nil] at queues
  refine ⟨?_, by simp [progress.count], ?_, progress.errors, by simp, ?_⟩
  · rw [List.append_nil]
    refine queues.subset fun k h => ?_
    rcases List.mem_append.1 h with read | waiting
    · exact List.mem_cons_of_mem _ (List.mem_append_left _ read)
    · obtain ⟨c, hc, r', target, rfl⟩ := mem_namedKeys.1 waiting
      obtain rfl := List.mem_singleton.1 hc
      obtain rfl : q = r' := Target.cells.inj target
      exact List.mem_cons.2 (.inl same)
  · dsimp only
    omega
  · rw [← rest, List.append_assoc]
    rfl

/-- Nothing changes once the queue is empty. -/
theorem settled (progress : Progress p w taken dropped [] left run)
    (next : run.next = (none, run')) : Progress p w taken dropped [] left run' := by
  obtain ⟨empty, rfl⟩ := progress.next_eq_none next
  rw [← empty]
  exact progress

/-- Once the limit is reached, all that is left in the queue is given up. -/
theorem halted (progress : Progress p w taken dropped [] 0 run) {key : String}
    (next : run.next = (some key, run')) :
    Progress p w taken run.table.pending [] 0 (run'.stop p.config.maxDiscoveries) := by
  obtain ⟨others, queue, rfl⟩ := progress.next_eq_some next
  have going : dropped = [] := by
    by_contra stopped
    have empty := (progress.stopped stopped).2.2
    simp [queue] at empty
  subst going
  have queues := progress.queues.giveUp
  have errors := progress.errors
  rw [List.append_nil] at queues
  refine ⟨queues, progress.count, progress.budget, ?_, fun _ => ⟨rfl, rfl, rfl⟩, ?_⟩
  · simp only [unsettled, if_true] at errors
    simp [unsettled, stop, fail, errors, queue]
  · simpa [followed] using progress.rest

end Progress

/-- At every point of a compilation the keys that were followed, given up or queued are those with
made-up identifiers. -/
theorem Point.progress (point : Point p w todo left run) :
    ∃ taken dropped, Progress p w taken dropped todo left run := by
  induction point with
  | bound => exact ⟨[], [], .bound p w⟩
  | processed point ih =>
    obtain ⟨taken, dropped, progress⟩ := ih
    exact ⟨taken, dropped, progress.processed⟩
  | @found left run run' key r point next parsed ih =>
    obtain ⟨taken, dropped, progress⟩ := ih
    exact ⟨taken ++ [key], dropped, progress.found next parsed⟩
  | unread point next unparsed ih =>
    obtain ⟨taken, dropped, progress⟩ := ih
    obtain ⟨rest, queue, -⟩ := progress.next_eq_some next
    obtain ⟨r, parsed, -⟩ := progress.queues.readable _ (queue ▸ List.mem_cons_self)
    cases unparsed.symm.trans parsed
  | settled point next ih =>
    obtain ⟨taken, dropped, progress⟩ := ih
    exact ⟨taken, dropped, progress.settled next⟩
  | @stopped run run' key point next ih =>
    obtain ⟨taken, dropped, progress⟩ := ih
    exact ⟨taken, run.table.pending, progress.halted next⟩

/-- The queue is empty in the end, also if the limit was reached. -/
theorem pending_discover (p : Plan) (w : Workbook) (left : Nat) (run : Run) :
    (discover p w left run).table.pending = [] := by
  induction left generalizing run with
  | zero =>
    cases next : run.next with
    | mk key run' =>
      cases key with
      | none => rw [discover_of_none next, (next_eq_none next).2]
      | some key =>
        rw [discover_zero next]
        rfl
  | succ left ih =>
    cases next : run.next with
    | mk key run' =>
      cases key with
      | none => rw [discover_of_none next, (next_eq_none next).2]
      | some key =>
        rw [discover_succ next]
        exact ih _

/-- **Every made-up identifier is followed once.** While references are followed, no key in the queue
is that of cells that were read, and each is read back as cells with this key. In the end the queue is
empty, and the keys that were followed, no key twice, are all those with made-up identifiers; or the
limit was reached, which is reported once, and those that were not followed are counted there. -/
theorem followed_once (p : Plan) (w : Workbook) :
    (∀ left run, Point p w [] left run → ∀ key ∈ run.table.pending,
      key ∉ run.visited ∧ ∃ r, Reference.parse key = .ok r ∧ w.key r = key) ∧
    (compile p w).table.pending = [] ∧ (trail p w).Nodup ∧
    (compile p w).report.discovered = (trail p w).length ∧
    ((compile p w).unsettled = [] ∧ (trail p w).Perm (compile p w).table.madeUp ∧
        (compile p w).report.discovered = (compile p w).table.madeUp.length ∨
      ∃ dropped, dropped ≠ [] ∧
        (compile p w).unsettled = [.unsettled p.config.maxDiscoveries dropped.length] ∧
        (trail p w ++ dropped).Perm (compile p w).table.madeUp ∧
        (compile p w).report.discovered = p.config.maxDiscoveries ∧
        p.config.maxDiscoveries + dropped.length = (compile p w).table.madeUp.length) := by
  have empty : (compile p w).table.pending = [] := pending_discover ..
  obtain ⟨left, point, -⟩ := exists_point_compile p w
  obtain ⟨taken, dropped, progress⟩ := point.progress
  obtain rfl : taken = trail p w := by
    have rest := progress.rest
    rwa [List.foldl_nil, followed_of_empty empty, List.append_nil] at rest
  have perm := progress.queues.perm
  have count : (compile p w).report.discovered = (trail p w).length := progress.count
  have budget : (compile p w).report.discovered + left = p.config.maxDiscoveries := progress.budget
  have errors := progress.errors
  rw [empty, List.append_nil] at perm
  refine ⟨fun left run point key queued => ?_, empty, ?_, count, ?_⟩
  · obtain ⟨taken, dropped, progress⟩ := point.progress
    obtain ⟨r, parsed, same⟩ := progress.queues.readable key queued
    exact ⟨progress.unread queued, r, parsed, (key_congr point.sheets r none).symm.trans same⟩
  · exact progress.queues.nodup.of_append_left.of_append_left
  · have total := perm.length_eq
    rw [List.length_append] at total
    -- If a key was dropped, all steps were taken.
    by_cases all : dropped = []
    · rw [if_pos all] at errors
      rw [all, List.append_nil] at perm
      exact .inl ⟨errors, perm, count.trans perm.length_eq⟩
    · obtain ⟨-, rfl, -⟩ := progress.stopped all
      rw [if_neg all] at errors
      exact .inr ⟨dropped, all, errors, perm, budget, by omega⟩

/-- Formulas that refer to each other, and one that refers to itself. -/
def ring : Except WorkbookError Workbook := do
  let w ← ({} : Workbook).addSheet "Calc"
  let w ← w.addSheet "Q1 sales"
  let w ← w.setFormula "Calc" "A1" "='Q1 sales'!B1+C1"
  let w ← w.setFormula "Calc" "C1" "=C1+'Q1 sales'!B1"
  let w ← w.setFormula "Q1 sales" "B1" "=Calc!D1*A1"
  let w ← w.setFormula "Calc" "D1" "=Calc!A1-'Q1 Sales'!$B$1"
  w.defineName { name := "Start", refersTo := "=Calc!$A$1" }

/-- Two of the four cells without a name may be followed. -/
def ringConfig : Config := { spreadsheet := "ring.xlsx", maxDiscoveries := 2 }

/-- Two keys are followed, the other two are dropped and counted in the error. -/
theorem followed_once_ring :
    ∃ p w run, Plan.ofConfig ringConfig = .ok p ∧ ring = .ok w ∧ Point p w [] 2 run ∧
      run.table.pending = ["'Q1 sales'!$B$1", "Calc!$C$1"] ∧
      (∀ key ∈ run.table.pending, key ∉ run.visited ∧
        ∃ r, Reference.parse key = .ok r ∧ w.key r = key) ∧
      trail p w = ["'Q1 sales'!$B$1", "Calc!$C$1"] ∧
      ∃ dropped, (compile p w).unsettled = [.unsettled 2 dropped.length] ∧
        (trail p w ++ dropped).Perm (compile p w).table.madeUp ∧
        (compile p w).table.madeUp.length = 4 := by
  have facts : ((Plan.ofConfig ringConfig).toOption.bind fun p =>
      ring.toOption.map fun w => decide (p.config.maxDiscoveries = 2 ∧
        ((bind p w).1.foldl (process p w) (bind p w).2).table.pending =
          ["'Q1 sales'!$B$1", "Calc!$C$1"] ∧
        trail p w = ["'Q1 sales'!$B$1", "Calc!$C$1"] ∧ (compile p w).unsettled ≠ [] ∧
        (compile p w).table.madeUp.length = 4)) = some true := by decide +kernel
  obtain ⟨p, hp, facts⟩ := Option.bind_eq_some_iff.1 facts
  obtain ⟨w, hw, facts⟩ := Option.map_eq_some_iff.1 facts
  obtain ⟨limit, queue, trail, unsettled, made⟩ := of_decide_eq_true facts
  have point := (Point.bound (p := p) (w := w)).foldl_process
  obtain ⟨unread, -, -, -, rest⟩ := followed_once p w
  rw [limit] at point rest
  refine ⟨p, w, _, Fallible.toOption_eq_some_iff.1 hp, Fallible.toOption_eq_some_iff.1 hw, point,
    queue, unread _ _ point, trail, ?_⟩
  obtain ⟨settled, -⟩ | ⟨dropped, -, errors, perm, -⟩ := rest
  · exact absurd settled unsettled
  · exact ⟨dropped, errors, perm, made⟩

end Run

end SheetCompiler
