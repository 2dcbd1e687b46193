import SheetCompiler.Proofs.Alias.Freshness

/-!
# The history of an alias table

Where no sheets are registered on the way, all that a table holds can be read off the operations it
went through: which identifiers they asked for on which layer (`asked`), and which references they
resolved (`meetings`). A key keeps the first identifier of its highest layer, and the queue lists
the keys that had no identifier when they were first resolved (`table_of_history`).
-/

namespace SheetCompiler.AliasTable

/-- The table after a history that starts with these sheets registered and nothing else. -/
def after (sheets : List String) (ops : List Operation) : AliasTable :=
  ops.foldl Operation.apply { sheets }

/-- A reference is resolved: its key, the identifier that the key had, and the one it got. -/
structure Meeting where
  key : String
  had : Option String
  got : String
deriving DecidableEq, Repr

namespace Operation

/-- The identifier that the operation asks for, for one key and on one layer. -/
def asks? (sheets : List String) (key : String) (layer : Layer) : Operation → Option String
  | insertConfig r identifier =>
    if layer = .config ∧ ({ sheets } : AliasTable).key r none = key then some identifier else none
  | insertName r identifier =>
    if layer = .definedName ∧ ({ sheets } : AliasTable).key r none = key then some identifier
    else none
  | _ => none

def meeting? (t : AliasTable) : Operation → Option Meeting
  | resolve r current =>
    some ⟨t.key r current, t.lookup (t.key r current), (t.resolve r current).1⟩
  | _ => none

/-- The key that the operation takes from the queue. -/
def popped? (t : AliasTable) : Operation → Option String
  | pop => t.pop.1
  | _ => none

end Operation

/-- The identifiers that a history asks for, for one key and on one layer, in order. -/
def asked (sheets : List String) (key : String) (layer : Layer) (ops : List Operation) :
    List String :=
  ops.filterMap (Operation.asks? sheets key layer)

/-- The references that a history resolves, in order. -/
def meetings (t : AliasTable) : List Operation → List Meeting
  | [] => []
  | op :: ops => (op.meeting? t).toList ++ meetings (op.apply t) ops

/-- The keys that a history takes from the queue, in order. -/
def popped (t : AliasTable) : List Operation → List String
  | [] => []
  | op :: ops => (op.popped? t).toList ++ popped (op.apply t) ops

namespace Meeting

/-- The first time that a key is met. -/
def first (ms : List Meeting) (key : String) : Option Meeting := ms.find? (·.key = key)

/-- The keys that had no identifier when they were first met, in the order they were met. -/
def newKeys (ms : List Meeting) : List String :=
  (ms.map (·.key)).eraseDups.filter fun key => (first ms key).any (·.had.isNone)

end Meeting

/-! ### One more operation -/

section

variable {sheets : List String} {ops : List Operation} {op : Operation}

@[simp] theorem after_concat : after sheets (ops ++ [op]) = op.apply (after sheets ops) := by
  simp [after]

/-- What the last operation asks for comes last. -/
theorem asked_concat (key : String) (layer : Layer) :
    asked sheets key layer (ops ++ [op]) =
      asked sheets key layer ops ++ (op.asks? sheets key layer).toList := by
  cases ask : op.asks? sheets key layer <;> simp [asked, ask]

/-- The last reference is resolved in the table that all others have left. -/
theorem meetings_concat (t : AliasTable) (ops : List Operation) (op : Operation) :
    meetings t (ops ++ [op]) =
      meetings t ops ++ (op.meeting? (ops.foldl Operation.apply t)).toList := by
  induction ops generalizing t with
  | nil => simp [meetings]
  | cons first ops ih => simp [meetings, ih]

/-- The last key is taken from the queue that all other operations have left. -/
theorem popped_concat (t : AliasTable) (ops : List Operation) (op : Operation) :
    popped t (ops ++ [op]) =
      popped t ops ++ (op.popped? (ops.foldl Operation.apply t)).toList := by
  induction ops generalizing t with
  | nil => simp [popped]
  | cons first ops ih => simp [popped, ih]

namespace Meeting

variable {ms : List Meeting} {m : Meeting}

/-- A later meeting counts only for a key that was not met before. -/
theorem first_concat (key : String) :
    first (ms ++ [m]) key = (first ms key).or (if m.key = key then some m else none) := by
  simp [first, List.find?_append, List.find?_singleton]

theorem isSome_first {key : String} : (first ms key).isSome ↔ key ∈ ms.map (·.key) := by
  simp [first, List.find?_isSome]

theorem mem_map_of_mem_newKeys {key : String} (h : key ∈ newKeys ms) : key ∈ ms.map (·.key) :=
  List.mem_eraseDups.1 (List.mem_of_mem_filter h)

/-- A key is new if it is met for the first time and has no identifier. -/
theorem newKeys_concat (ms : List Meeting) (m : Meeting) :
    newKeys (ms ++ [m]) =
      newKeys ms ++ if m.key ∈ ms.map (·.key) ∨ m.had.isSome then [] else [m.key] := by
  have old : ∀ key ∈ (ms.map (·.key)).eraseDups, first (ms ++ [m]) key = first ms key := by
    intro key mem
    obtain ⟨m', met⟩ := Option.isSome_iff_exists.1 (isSome_first.2 (List.mem_eraseDups.1 mem))
    rw [first_concat, met, Option.some_or]
  have kept : (ms.map (·.key)).eraseDups.filter
      (fun key => (first (ms ++ [m]) key).any (·.had.isNone)) = newKeys ms :=
    List.filter_congr fun key mem => by rw [old key mem]
  rw [newKeys, List.map_append, List.eraseDups_append, List.filter_append, kept]
  by_cases met : m.key ∈ ms.map (·.key)
  · have removed : [m.key].removeAll (ms.map (·.key)) = [] := by
      simpa [List.removeAll] using met
    simp [met, removed]
  · have removed : [m.key].removeAll (ms.map (·.key)) = [m.key] := by
      simpa [List.removeAll] using met
    have unmet : first ms m.key = none := by
      rw [← Option.not_isSome_iff_eq_none, isSome_first]
      exact met
    have now : first (ms ++ [m]) m.key = some m := by
      rw [first_concat, unmet, if_pos rfl, Option.none_or]
    have single : [m.key].eraseDups = [m.key] := rfl
    rw [List.map_cons, List.map_nil, removed, single]
    cases had : m.had <;> simp [met, now, had]

end Meeting

end

/-! ### Bindings -/

/-- The binding that a history leaves a key with. -/
def standing (sheets : List String) (ops : List Operation) (key : String) : Option Binding :=
  ((asked sheets key .config ops).head?.map (⟨·, .config⟩)).or
    (((asked sheets key .definedName ops).head?.map (⟨·, .definedName⟩)).or
      ((Meeting.first (meetings { sheets } ops) key).map fun m => ⟨m.got, .synthesized⟩))

/-- An insertion binds its key if it is accepted, and changes no other. -/
theorem binding?_insert_eq (t : AliasTable) (key identifier : String) (layer : Layer)
    (other : String) :
    (t.insert key identifier layer).2.binding? other =
      if other = key ∧ t.accepts key layer then some ⟨identifier, layer⟩ else t.binding? other := by
  by_cases accepted : t.accepts key layer <;> simp [insert, accepted]

theorem sheets_insert (t : AliasTable) (key identifier : String) (layer : Layer) :
    (t.insert key identifier layer).2.sheets = t.sheets := by
  by_cases accepted : t.accepts key layer <;> simp [insert, accepted]

theorem pending_insert (t : AliasTable) (key identifier : String) (layer : Layer) :
    (t.insert key identifier layer).2.pending = t.pending := by
  by_cases accepted : t.accepts key layer <;> simp [insert, accepted]

section

variable {sheets : List String} {ops : List Operation}

theorem sheets_pop (t : AliasTable) : t.pop.2.sheets = t.sheets := by
  unfold pop
  split <;> rfl

/-- Only registering sheets changes which are registered. -/
theorem Operation.sheets_apply {t : AliasTable} {op : Operation}
    (fixed : ∀ sheet, op ≠ .addSheet sheet) : (op.apply t).sheets = t.sheets := by
  cases op with
  | addSheet sheet => exact absurd rfl (fixed sheet)
  | insertConfig r identifier => exact sheets_insert ..
  | insertName r identifier => exact sheets_insert ..
  | insertRename name identifier => simp [apply, AliasTable.insertRename]
  | reserve identifier => simp [apply]
  | pop => exact sheets_pop t
  | resolve r current =>
    obtain ⟨b, -, eq⟩ | ⟨-, eq⟩ := t.resolve_cases r current
    · simp [apply, eq]
    · simp [apply, eq]

/-- The registered sheets stay as they were. -/
theorem sheets_after (fixed : ∀ sheet, .addSheet sheet ∉ ops) :
    (after sheets ops).sheets = sheets := by
  induction ops using List.reverseRecOn with
  | nil => rfl
  | append_singleton ops op ih =>
    simp only [List.mem_append, List.mem_singleton, not_or] at fixed
    rw [after_concat, Operation.sheets_apply fun sheet eq => (fixed sheet).2 eq.symm,
      ih fun sheet => (fixed sheet).1]

/-- So keys can be told without the history. -/
theorem key_after (sheets : List String) (fixed : ∀ sheet, .addSheet sheet ∉ ops) (r : Reference)
    (current : Option String) :
    (after sheets ops).key r current = ({ sheets } : AliasTable).key r current := by
  apply key_congr
  exact sheets_after fixed

/-- What the layers of a key let through. -/
theorem accepts_of_standing {t : AliasTable} {key : String}
    (h : t.binding? key = standing sheets ops key) :
    (t.accepts key .config ↔ asked sheets key .config ops = []) ∧
    (t.accepts key .definedName ↔
      asked sheets key .config ops = [] ∧ asked sheets key .definedName ops = []) := by
  unfold standing at h
  cases config : asked sheets key .config ops with
  | cons identifier _ => simp [accepts, h, config, Layer.rank]
  | nil =>
    cases named : asked sheets key .definedName ops with
    | cons identifier _ => simp [accepts, h, config, named, Layer.rank]
    | nil =>
      cases met : Meeting.first (meetings { sheets } ops) key with
      | some m => simp [accepts, h, config, named, met, Layer.rank]
      | none => simp [accepts, h, config, named, met]

/-- An operation that neither asks for an identifier nor resolves a reference changes nothing. -/
theorem standing_quiet {op : Operation} {key : String}
    (silent : ∀ layer, op.asks? sheets key layer = none)
    (quiet : op.meeting? (after sheets ops) = none) :
    standing sheets (ops ++ [op]) key = standing sheets ops key := by
  have quiet : op.meeting? (ops.foldl Operation.apply { sheets }) = none := quiet
  simp [standing, asked_concat, meetings_concat, silent, quiet]

/-- The configuration replaces all but an earlier entry of its own. -/
theorem standing_insertConfig (r : Reference) (identifier key : String) :
    standing sheets (ops ++ [.insertConfig r identifier]) key =
      if key = ({ sheets } : AliasTable).key r none ∧ asked sheets key .config ops = [] then
        some ⟨identifier, .config⟩
      else standing sheets ops key := by
  unfold standing
  rw [asked_concat, asked_concat, meetings_concat]
  by_cases same : ({ sheets } : AliasTable).key r none = key
  · cases config : asked sheets key .config ops <;>
      simp [Operation.asks?, Operation.meeting?, same]
  · simp [Operation.asks?, Operation.meeting?, same, Ne.symm same]

/-- A name replaces a made-up identifier, but neither the configuration nor an earlier name. -/
theorem standing_insertName (r : Reference) (identifier key : String) :
    standing sheets (ops ++ [.insertName r identifier]) key =
      if key = ({ sheets } : AliasTable).key r none ∧ asked sheets key .config ops = [] ∧
        asked sheets key .definedName ops = [] then some ⟨identifier, .definedName⟩
      else standing sheets ops key := by
  unfold standing
  rw [asked_concat, asked_concat, meetings_concat]
  by_cases same : ({ sheets } : AliasTable).key r none = key
  · cases config : asked sheets key .config ops <;>
      cases named : asked sheets key .definedName ops <;>
      simp [Operation.asks?, Operation.meeting?, same]
  · simp [Operation.asks?, Operation.meeting?, same, Ne.symm same]

/-- A reference changes what stands only if nothing does. -/
theorem standing_resolve (r : Reference) (current : Option String) (key : String) :
    standing sheets (ops ++ [.resolve r current]) key =
      if key = (after sheets ops).key r current ∧ standing sheets ops key = none then
        some ⟨((after sheets ops).resolve r current).1, .synthesized⟩
      else standing sheets ops key := by
  have start : ops.foldl Operation.apply { sheets } = after sheets ops := rfl
  unfold standing
  rw [asked_concat, asked_concat, meetings_concat, start]
  by_cases same : (after sheets ops).key r current = key
  · cases config : (asked sheets key .config ops).head? <;>
      cases named : (asked sheets key .definedName ops).head? <;>
      cases met : Meeting.first (meetings { sheets } ops) key <;>
      simp [Operation.asks?, Operation.meeting?, Meeting.first_concat, same, config, named, met]
  · simp [Operation.asks?, Operation.meeting?, Meeting.first_concat, same, Ne.symm same]

/-- The table holds what its history tells. -/
theorem binding?_after (fixed : ∀ sheet, .addSheet sheet ∉ ops) (key : String) :
    (after sheets ops).binding? key = standing sheets ops key := by
  induction ops using List.reverseRecOn generalizing key with
  | nil => rfl
  | append_singleton ops op ih =>
    simp only [List.mem_append, List.mem_singleton, not_or] at fixed
    have before : ∀ sheet, .addSheet sheet ∉ ops := fun sheet => (fixed sheet).1
    have ih := ih before
    have accepts := fun key => accepts_of_standing (ih key)
    have keys := key_after sheets before
    rw [after_concat]
    cases op with
    | addSheet sheet => exact absurd rfl (fixed sheet).2
    | insertConfig r identifier =>
      rw [Operation.apply, insertConfig, binding?_insert_eq, keys, standing_insertConfig, ih]
      refine if_congr (and_congr_right fun same => ?_) rfl rfl
      rw [same, (accepts _).1]
    | insertName r identifier =>
      rw [Operation.apply, insertName, binding?_insert_eq, keys, standing_insertName, ih]
      refine if_congr (and_congr_right fun same => ?_) rfl rfl
      rw [same, (accepts _).2]
    | insertRename name identifier =>
      rw [standing_quiet (fun layer => rfl) rfl, ← ih]
      simp [Operation.apply, insertRename, binding?]
    | reserve identifier =>
      rw [standing_quiet (fun layer => rfl) rfl, ← ih]
      simp [Operation.apply, binding?]
    | pop =>
      rw [standing_quiet (fun layer => rfl) rfl, ← ih]
      simp [Operation.apply, binding?, bindings_pop]
    | resolve r current =>
      rw [standing_resolve, Operation.apply, ← ih]
      -- Resolving binds a key only if it has no identifier, as the history says.
      obtain ⟨b, bound, eq⟩ | ⟨unbound, eq⟩ := (after sheets ops).resolve_cases r current
      · rw [if_neg, eq]
        rintro ⟨rfl, none⟩
        rw [bound] at none
        cases none
      · rw [eq, binding?_synthesize, synthesize_fst]
        refine if_congr ⟨fun same => ⟨same, same ▸ unbound⟩, And.left⟩ ?_ rfl
        rfl

/-! ### The queue -/

/-- A key that has been met is bound from then on. -/
theorem isSome_binding?_of_met (fixed : ∀ sheet, .addSheet sheet ∉ ops) {key : String}
    (met : key ∈ (meetings { sheets } ops).map (·.key)) :
    ((after sheets ops).binding? key).isSome := by
  obtain ⟨m, first⟩ := Option.isSome_iff_exists.1 (Meeting.isSome_first.2 met)
  simp [binding?_after fixed, standing, first]

theorem pending_addSheet (t : AliasTable) (sheet : String) :
    (t.addSheet sheet).pending = t.pending := by
  unfold addSheet
  split <;> rfl

theorem popped_append_pending (t : AliasTable) : t.pop.1.toList ++ t.pop.2.pending = t.pending := by
  cases pending : t.pending <;> simp [pop, pending]

/-- An operation that resolves nothing leaves together what was taken and what is queued. -/
theorem Operation.popped?_append_pending {t : AliasTable} {op : Operation}
    (quiet : op.meeting? t = none) : (op.popped? t).toList ++ (op.apply t).pending = t.pending := by
  cases op with
  | addSheet sheet => exact pending_addSheet t sheet
  | insertConfig r identifier => exact pending_insert ..
  | insertName r identifier => exact pending_insert ..
  | insertRename name identifier => simp [popped?, apply, AliasTable.insertRename]
  | reserve identifier => simp [popped?, apply]
  | pop => exact popped_append_pending t
  | resolve r current => cases quiet

/-- What was taken from the queue and what is left of it are the new keys, each once. -/
theorem popped_append_pending_after (sheets : List String)
    (fixed : ∀ sheet, .addSheet sheet ∉ ops) :
    popped { sheets } ops ++ (after sheets ops).pending =
      Meeting.newKeys (meetings { sheets } ops) ∧
    (Meeting.newKeys (meetings { sheets } ops)).Nodup := by
  induction ops using List.reverseRecOn with
  | nil => exact ⟨rfl, List.nodup_nil⟩
  | append_singleton ops op ih =>
    simp only [List.mem_append, List.mem_singleton, not_or] at fixed
    have before : ∀ sheet, .addSheet sheet ∉ ops := fun sheet => (fixed sheet).1
    obtain ⟨queue, nodup⟩ := ih before
    have start : ops.foldl Operation.apply { sheets } = after sheets ops := rfl
    rw [popped_concat, after_concat, meetings_concat, start]
    cases met : op.meeting? (after sheets ops) with
    | none =>
      rw [List.append_assoc, Operation.popped?_append_pending met, Option.toList_none,
        List.append_nil]
      exact ⟨queue, nodup⟩
    | some m =>
      cases op with
      | resolve r current =>
        cases met
        rw [Option.toList_some, Meeting.newKeys_concat]
        obtain ⟨b, bound, eq⟩ | ⟨unbound, eq⟩ := (after sheets ops).resolve_cases r current
        · have had : (after sheets ops).lookup ((after sheets ops).key r current) =
              some b.identifier := by
            rw [lookup, bound, Option.map_some]
          simp only [had, Option.isSome_some, or_true, if_true, List.append_nil]
          simpa [Operation.popped?, Operation.apply, eq] using ⟨queue, nodup⟩
        · have had : (after sheets ops).lookup ((after sheets ops).key r current) = none :=
            lookup_eq_none_iff.2 unbound
          -- A key that was met before would have an identifier.
          have unmet : (after sheets ops).key r current ∉
              (meetings { sheets } ops).map (·.key) := by
            intro met
            have := isSome_binding?_of_met before met
            rw [unbound] at this
            cases this
          simp only [had, unmet, Option.isSome_none, Bool.false_eq_true, or_self, if_false]
          refine ⟨?_, ?_⟩
          · simp [Operation.popped?, Operation.apply, eq, ← queue]
          · refine List.nodup_append'.2 ⟨nodup, List.nodup_singleton _, ?_⟩
            intro key old new
            rw [List.mem_singleton.1 new] at old
            exact unmet (Meeting.mem_map_of_mem_newKeys old)
      | _ => cases met

/-- **A table is determined by its history.** A key has the first identifier that was asked for by
configuration, or else by a defined name, or else the one that it got when it was first resolved. A
defined name is taken exactly if nothing was asked for before it, and it is then the binding. The
keys taken from the queue and those still in it are, in order and each once, the keys that had no
identifier when they were first resolved. -/
theorem table_of_history (sheets : List String) (ops : List Operation)
    (fixed : ∀ sheet, .addSheet sheet ∉ ops) :
    (∀ key,
      (after sheets ops).lookup key = ((asked sheets key .config ops).head?.or
        ((asked sheets key .definedName ops).head?.or
          ((Meeting.first (meetings { sheets } ops) key).map (·.got)))) ∧
      (after sheets ops).layerOf key =
        if asked sheets key .config ops ≠ [] then some .config
        else if asked sheets key .definedName ops ≠ [] then some .definedName
        else (Meeting.first (meetings { sheets } ops) key).map fun _ => .synthesized) ∧
    (∀ r identifier, let t := after sheets ops
      ((t.insertName r identifier).1 = true ↔ asked sheets (t.key r none) .config ops = [] ∧
        asked sheets (t.key r none) .definedName ops = []) ∧
      if (t.insertName r identifier).1 then
        (t.insertName r identifier).2.binding? (t.key r none) = some ⟨identifier, .definedName⟩
      else (t.insertName r identifier).2 = t) ∧
    popped { sheets } ops ++ (after sheets ops).pending =
      Meeting.newKeys (meetings { sheets } ops) ∧
    (popped { sheets } ops ++ (after sheets ops).pending).Nodup := by
  obtain ⟨queue, nodup⟩ := popped_append_pending_after sheets fixed
  refine ⟨fun key => ⟨?_, ?_⟩, fun r identifier => ⟨?_, ?_⟩, queue, queue ▸ nodup⟩
  · rw [lookup, binding?_after fixed, standing]
    simp only [Option.map_or, Option.map_map]
    simp [Function.comp_def]
  · rw [layerOf, binding?_after fixed, standing]
    cases asked sheets key .config ops <;> cases asked sheets key .definedName ops <;>
      simp [Function.comp_def]
  · rw [← (accepts_of_standing (binding?_after fixed _)).2]
    unfold insertName insert
    split
    next accepted => simp [accepted]
    next refused => simp [refused]
  · unfold insertName insert
    split <;> simp

/-- A key is resolved before a name and the configuration come for it, another one after a name; the
queue is taken from in between. -/
def lateHistory : List Operation :=
  let a : Reference := .cell "data" { row := 0, col := 0 }
  let b : Reference := .cell "Data" { row := 1, col := 0 }
  [.reserve "DataA1", .resolve a none, .insertName b "rate", .resolve b none, .pop,
    .insertName a "first", .insertName a "second", .insertConfig b "level",
    .insertConfig b "other", .resolve (.cell "DATA" { row := 0, col := 0 }) none,
    .resolve (.cell "Data" { row := 2, col := 0 }) none]

/-- The names and the configuration come after the references and still replace their identifiers,
as far as their layers allow. -/
theorem table_of_history_lateHistory :
    (∀ sheet, .addSheet sheet ∉ lateHistory) ∧
    (after ["Data"] lateHistory).lookup "Data!$A$1" = some "first" ∧
    (after ["Data"] lateHistory).lookup "Data!$A$2" = some "level" ∧
    (after ["Data"] lateHistory).layerOf "Data!$A$3" = some .synthesized ∧
    ((after ["Data"] lateHistory).insertName (.cell "Data" { row := 2, col := 0 }) "third").1 ∧
    popped { sheets := ["Data"] } lateHistory ++ (after ["Data"] lateHistory).pending =
      ["Data!$A$1", "Data!$A$3"] := by
  have fixed : ∀ sheet, .addSheet sheet ∉ lateHistory := by simp [lateHistory]
  obtain ⟨bindings, names, queue, -⟩ := table_of_history ["Data"] lateHistory fixed
  refine ⟨fixed, ?_, ?_, ?_, ?_, ?_⟩
  · rw [(bindings _).1]
    decide +kernel
  · rw [(bindings _).1]
    decide +kernel
  · rw [(bindings _).2]
    decide +kernel
  · rw [(names _ _).1]
    decide +kernel
  · rw [queue]
    decide +kernel

end

end SheetCompiler.AliasTable
