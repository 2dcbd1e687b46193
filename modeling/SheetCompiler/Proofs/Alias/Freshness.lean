import Mathlib.Data.List.Induction
import SheetCompiler.Proofs.Alias.Table

/-!
# Made-up identifiers are new

A history of an alias table is any sequence of its operations, from the empty table on. The
identifiers in use are those that the history has claimed (`mem_used_run`): bound, written for
another name, reserved or made up. So a reference without an identifier gets one that nobody has
claimed, and no two keys share a made-up identifier (`made_up_identifiers_fresh`).
-/

namespace SheetCompiler.AliasTable

/-- One operation on an alias table, with its arguments. -/
inductive Operation where
  | addSheet (sheet : String)
  | insertConfig (r : Reference) (identifier : String)
  | insertName (r : Reference) (identifier : String)
  | insertRename (name identifier : String)
  | reserve (identifier : String)
  | resolve (r : Reference) (current : Option String)
  | pop
deriving DecidableEq, Repr

namespace Operation

def apply (t : AliasTable) : Operation → AliasTable
  | addSheet sheet => t.addSheet sheet
  | insertConfig r identifier => t.insertConfig r identifier
  | insertName r identifier => (t.insertName r identifier).2
  | insertRename name identifier => t.insertRename name identifier
  | reserve identifier => t.reserve identifier
  | resolve r current => (t.resolve r current).2
  | pop => t.pop.2

/-- The identifiers that an operation takes. An insertion that is turned down takes none, and
resolving takes one only if it has to make it up. -/
def claims (t : AliasTable) : Operation → List String
  | insertConfig r identifier => if t.accepts (t.key r none) .config then [identifier] else []
  | insertName r identifier => if t.accepts (t.key r none) .definedName then [identifier] else []
  | insertRename _ identifier => [identifier]
  | reserve identifier => [identifier]
  | resolve r current => if t.lookup (t.key r current) = none then [(t.resolve r current).1] else []
  | addSheet _ | pop => []

/-- The operation looks for the identifier of a reference. -/
def resolves : Operation → Bool
  | resolve .. => true
  | _ => false

/-- The operation comes with an identifier: it is an insertion, a renaming or a reservation. -/
def gives : Operation → Bool
  | insertConfig .. | insertName .. | insertRename .. | reserve _ => true
  | addSheet _ | resolve .. | pop => false

end Operation

/-- The table after a history. -/
def run (ops : List Operation) : AliasTable := ops.foldl Operation.apply {}

/-- The identifiers that a history claims from a table on. -/
def claimed (t : AliasTable) : List Operation → List String
  | [] => []
  | op :: ops => op.claims t ++ claimed (op.apply t) ops

@[simp] theorem run_concat (ops : List Operation) (op : Operation) :
    run (ops ++ [op]) = op.apply (run ops) := by
  simp [run]

/-- What the last operation claims comes last. -/
theorem claimed_concat (t : AliasTable) (ops : List Operation) (op : Operation) :
    claimed t (ops ++ [op]) = claimed t ops ++ op.claims (ops.foldl Operation.apply t) := by
  induction ops generalizing t with
  | nil => simp [claimed]
  | cons first ops ih => simp [claimed, ih]

/-! ### What one operation does -/

section

variable {t : AliasTable} {op : Operation}

theorem bindings_addSheet (t : AliasTable) (sheet : String) :
    (t.addSheet sheet).bindings = t.bindings := by
  unfold addSheet
  split <;> rfl

theorem used_addSheet (t : AliasTable) (sheet : String) : (t.addSheet sheet).used = t.used := by
  unfold addSheet
  split <;> rfl

theorem bindings_pop (t : AliasTable) : t.pop.2.bindings = t.bindings := by
  unfold pop
  split <;> rfl

theorem used_pop (t : AliasTable) : t.pop.2.used = t.used := by
  unfold pop
  split <;> rfl

/-- An insertion takes its identifier into use if it is accepted. -/
theorem mem_used_insert {key identifier x : String} {layer : Layer} :
    x ∈ (t.insert key identifier layer).2.used ↔
      x ∈ t.used ∨ x ∈ if t.accepts key layer then [identifier] else [] := by
  by_cases h : t.accepts key layer <;> simp [insert, h]

/-- An insertion changes the binding of its own key at most. -/
theorem binding?_insert {key identifier other : String} {layer : Layer} {b : Binding}
    (h : (t.insert key identifier layer).2.binding? other = some b) :
    t.binding? other = some b ∨
      b = ⟨identifier, layer⟩ ∧ b.identifier ∈ if t.accepts key layer then [identifier] else [] := by
  by_cases accepted : t.accepts key layer
  · simp only [insert, accepted, if_true, binding?_bind] at h
    split at h
    · cases h
      exact .inr ⟨rfl, by simp [accepted]⟩
    · exact .inl h
  · simp only [insert, accepted] at h
    exact .inl h

/-- An operation puts into use what it claims. -/
theorem Operation.mem_used_apply (op : Operation) {x : String} :
    x ∈ (op.apply t).used ↔ x ∈ t.used ∨ x ∈ op.claims t := by
  cases op with
  | addSheet sheet => simp [apply, claims, used_addSheet]
  | insertConfig r identifier => exact mem_used_insert
  | insertName r identifier => exact mem_used_insert
  | insertRename name identifier => simp [apply, claims, AliasTable.insertRename]
  | reserve identifier => simp [apply, claims]
  | pop => simp [apply, claims, used_pop]
  | resolve r current =>
    obtain ⟨b, bound, eq⟩ | ⟨unbound, eq⟩ := t.resolve_cases r current
    · simp [apply, claims, eq, lookup, bound]
    · simp [apply, claims, eq, lookup, unbound]

/-- A binding was there before, or the operation claims its identifier; and if it is made up, the
operation resolves a reference with this key, which was not bound. -/
theorem Operation.binding?_apply {key : String} {b : Binding}
    (h : (op.apply t).binding? key = some b) :
    t.binding? key = some b ∨
      b.identifier ∈ op.claims t ∧
        (op.gives ∧ b.layer ≠ .synthesized ∨
          ∃ r current, op = .resolve r current ∧ key = t.key r current ∧
            t.binding? key = none ∧ b.identifier = t.fresh (identifierOfKey key)) := by
  cases op with
  | addSheet sheet => exact .inl (by simpa [apply, binding?, bindings_addSheet] using h)
  | insertConfig r identifier =>
    rcases binding?_insert h with old | ⟨eq, claim⟩
    · exact .inl old
    · exact .inr ⟨claim, .inl ⟨rfl, by simp [eq]⟩⟩
  | insertName r identifier =>
    rcases binding?_insert h with old | ⟨eq, claim⟩
    · exact .inl old
    · exact .inr ⟨claim, .inl ⟨rfl, by simp [eq]⟩⟩
  | insertRename name identifier =>
    exact .inl (by simpa [apply, AliasTable.insertRename, binding?] using h)
  | reserve identifier => exact .inl (by simpa [apply, binding?] using h)
  | pop => exact .inl (by simpa [apply, binding?, bindings_pop] using h)
  | resolve r current =>
    obtain ⟨old, bound, eq⟩ | ⟨unbound, eq⟩ := t.resolve_cases r current
    · exact .inl (by simpa [apply, eq] using h)
    · simp only [apply, eq, binding?_synthesize] at h
      split at h
      next same =>
        subst same
        cases h
        exact .inr ⟨by simp [claims, eq, lookup, unbound], .inr ⟨r, current, rfl, rfl, unbound, rfl⟩⟩
      next => exact .inl h

end

/-! ### What a history does -/

section

variable {ops : List Operation}

/-- The identifiers in use are those that the history has claimed, no more and no fewer. -/
theorem mem_used_run {x : String} : x ∈ (run ops).used ↔ x ∈ claimed {} ops := by
  induction ops using List.reverseRecOn with
  | nil => simp [run, claimed]
  | append_singleton ops op ih =>
    rw [run_concat, op.mem_used_apply, ih, claimed_concat, List.mem_append]
    rfl

/-- Bound identifiers are in use, by induction on the history. -/
theorem mem_used_of_bound {key : String} {b : Binding} (h : (run ops).binding? key = some b) :
    b.identifier ∈ (run ops).used := by
  induction ops using List.reverseRecOn with
  | nil => simp [run, binding?] at h
  | append_singleton ops op ih =>
    rw [run_concat] at h ⊢
    rw [op.mem_used_apply]
    rcases Operation.binding?_apply h with old | ⟨new, -⟩
    · exact .inl (ih old)
    · exact .inr new

/-- A binding that stands beside the key of a newly made-up identifier has another identifier. -/
theorem identifier_ne_fresh {key base : String} {b : Binding}
    (h : (run ops).binding? key = some b) : b.identifier ≠ (run ops).fresh base :=
  fun eq => fresh_notMem base (eq ▸ mem_used_of_bound h)

/-- Two keys never share a made-up identifier: the one that was bound later got an identifier that
was new then. -/
theorem key_eq_of_made_up {key other : String} {b c : Binding}
    (hb : (run ops).binding? key = some b) (hc : (run ops).binding? other = some c)
    (madeUp : b.layer = .synthesized) (madeUp' : c.layer = .synthesized)
    (same : b.identifier = c.identifier) : key = other := by
  induction ops using List.reverseRecOn with
  | nil => simp [run, binding?] at hb
  | append_singleton ops op ih =>
    rw [run_concat] at hb hc
    rcases Operation.binding?_apply hb with oldb | ⟨-, ⟨-, given⟩ | ⟨r, current, rfl, rfl, -, freshb⟩⟩
    · rcases Operation.binding?_apply hc with oldc | ⟨-, ⟨-, given⟩ | ⟨-, -, -, -, -, freshc⟩⟩
      · exact ih oldb oldc
      · exact absurd madeUp' given
      · exact absurd (same.trans freshc) (identifier_ne_fresh oldb)
    · exact absurd madeUp given
    · rcases Operation.binding?_apply hc with oldc | ⟨-, ⟨-, given⟩ | ⟨_, _, eq, rfl, -, -⟩⟩
      · exact absurd (same.symm.trans freshb) (identifier_ne_fresh oldc)
      · exact absurd madeUp' given
      · cases eq
        rfl

/-- Only resolving a reference makes an identifier up. -/
theorem exists_resolves_of_made_up {key : String} {b : Binding}
    (h : (run ops).binding? key = some b) (madeUp : b.layer = .synthesized) :
    ∃ op ∈ ops, op.resolves := by
  induction ops using List.reverseRecOn with
  | nil => simp [run, binding?] at h
  | append_singleton ops op ih =>
    rw [run_concat] at h
    rcases Operation.binding?_apply h with old | ⟨-, ⟨-, given⟩ | ⟨r, current, rfl, -⟩⟩
    · obtain ⟨op, mem, resolves⟩ := ih old
      exact ⟨op, List.mem_append_left _ mem, resolves⟩
    · exact absurd madeUp given
    · exact ⟨_, List.mem_append_right _ (List.mem_singleton_self _), rfl⟩

/-- An operation that claims an identifier in every table has claimed it in every history. -/
theorem mem_claimed_of_mem {op : Operation} {x : String} (always : ∀ t, x ∈ op.claims t)
    (mem : op ∈ ops) (t : AliasTable) : x ∈ claimed t ops := by
  induction ops generalizing t with
  | nil => simp at mem
  | cons first ops ih =>
    rcases List.mem_cons.1 mem with rfl | mem
    · exact List.mem_append_left _ (always t)
    · exact List.mem_append_right _ (ih mem _)

/-- The identifiers are given before the first reference is resolved. -/
def GivesFirst (ops : List Operation) : Prop :=
  ops.Pairwise fun earlier later => earlier.resolves → ¬later.gives

instance (ops : List Operation) : Decidable (GivesFirst ops) :=
  inferInstanceAs (Decidable (List.Pairwise _ _))

/-- Nothing but the key has anything to do with the identifier. -/
def Owns (ops : List Operation) (key identifier : String) : Prop :=
  (∀ other, (run ops).lookup other = some identifier ↔ other = key) ∧
    (∀ name, .insertRename name identifier ∉ ops) ∧ .reserve identifier ∉ ops

/-- A newly made-up identifier belongs to its key alone. -/
theorem owns_of_unbound {r : Reference} {current : Option String}
    (unbound : (run ops).binding? ((run ops).key r current) = none) :
    Owns (ops ++ [.resolve r current]) ((run ops).key r current)
      ((run ops).fresh (identifierOfKey ((run ops).key r current))) := by
  have unclaimed : (run ops).fresh (identifierOfKey ((run ops).key r current)) ∉ claimed {} ops :=
    fun h => fresh_notMem _ (mem_used_run.2 h)
  refine ⟨fun other => ?_, fun name mem => ?_, fun mem => ?_⟩
  · rw [run_concat, Operation.apply, resolve_of_unbound unbound, lookup, binding?_synthesize]
    by_cases same : other = (run ops).key r current
    · simp [same]
    · simp only [same, if_false, iff_false, Option.map_eq_some_iff]
      rintro ⟨b, bound, eq⟩
      exact identifier_ne_fresh bound eq
  · have mem := (List.mem_append.1 mem).resolve_right (by simp)
    exact unclaimed (mem_claimed_of_mem (fun t => List.mem_singleton_self _) mem {})
  · have mem := (List.mem_append.1 mem).resolve_right (by simp)
    exact unclaimed (mem_claimed_of_mem (fun t => List.mem_singleton_self _) mem {})

/-- If all identifiers are given before the first reference is resolved, nothing that comes later
can take a made-up identifier away from its key. -/
theorem owns_of_made_up (first : GivesFirst ops) {key : String} {b : Binding}
    (h : (run ops).binding? key = some b) (madeUp : b.layer = .synthesized) :
    Owns ops key b.identifier := by
  induction ops using List.reverseRecOn with
  | nil => simp [run, binding?] at h
  | append_singleton ops op ih =>
    obtain ⟨before, -, last⟩ := List.pairwise_append.1 first
    rw [run_concat] at h
    rcases Operation.binding?_apply h with old | ⟨-, ⟨-, given⟩ | ⟨r, current, rfl, rfl, unbound, eq⟩⟩
    · obtain ⟨alone, unnamed, unreserved⟩ := ih before old
      -- A reference has been resolved, so the operation gives no identifier.
      obtain ⟨earlier, mem, resolves⟩ := exists_resolves_of_made_up old madeUp
      have noGift := last earlier mem op (List.mem_singleton_self op) resolves
      refine ⟨fun other => ⟨fun bound => ?_, ?_⟩, fun name mem => ?_, fun mem => ?_⟩
      · obtain ⟨layer, bound⟩ := lookup_eq_some_iff.1 (run_concat ops op ▸ bound)
        rcases Operation.binding?_apply bound with old' | ⟨-, ⟨gives, -⟩ | ⟨-, -, -, -, -, eq⟩⟩
        · exact (alone other).1 (lookup_eq_some_iff.2 ⟨layer, old'⟩)
        · exact absurd gives noGift
        · exact absurd eq (identifier_ne_fresh (b := b) old)
      · rintro rfl
        rw [run_concat, lookup, h]
        rfl
      · rcases List.mem_append.1 mem with mem | mem
        · exact unnamed name mem
        · cases List.mem_singleton.1 mem
          exact noGift rfl
      · rcases List.mem_append.1 mem with mem | mem
        · exact unreserved mem
        · cases List.mem_singleton.1 mem
          exact noGift rfl
    · exact absurd madeUp given
    · exact eq ▸ owns_of_unbound unbound

end

/-- After any history: bound identifiers are in use; a reference without an identifier gets one
that the history has not claimed, the base itself or the base with the least number from 2 on;
two keys with made-up identifiers have different ones; and if the identifiers are given before
the first reference is resolved, a made-up identifier belongs to its key alone. -/
theorem made_up_identifiers_fresh (ops : List Operation) :
    (∀ key identifier, (run ops).lookup key = some identifier → identifier ∈ (run ops).used) ∧
    (∀ r current, (run ops).lookup ((run ops).key r current) = none →
      let base := identifierOfKey ((run ops).key r current)
      let identifier := ((run ops).resolve r current).1
      identifier ∉ claimed {} ops ∧
      (base ∉ claimed {} ops → identifier = base) ∧
      (base ∈ claimed {} ops → ∃ n, 2 ≤ n ∧ identifier = suffixed base n ∧
        ∀ k, 2 ≤ k → k < n → suffixed base k ∈ claimed {} ops)) ∧
    (∀ key other b c, (run ops).binding? key = some b → (run ops).binding? other = some c →
      b.layer = .synthesized → c.layer = .synthesized → key ≠ other →
      b.identifier ≠ c.identifier) ∧
    (GivesFirst ops → ∀ key b, (run ops).binding? key = some b → b.layer = .synthesized →
      Owns ops key b.identifier) := by
  refine ⟨fun key identifier h => ?_, fun r current h => ?_, ?_, ?_⟩
  · obtain ⟨layer, bound⟩ := lookup_eq_some_iff.1 h
    exact mem_used_of_bound bound
  · have eq : ((run ops).resolve r current).1 =
        (run ops).fresh (identifierOfKey ((run ops).key r current)) := by
      rw [resolve_of_unbound (lookup_eq_none_iff.1 h), synthesize_fst]
    simp only [eq, ← mem_used_run]
    refine ⟨fresh_notMem _, fresh_of_notMem, fun taken => ?_⟩
    obtain ⟨n, two, eq, -, least⟩ := fresh_of_mem taken
    exact ⟨n, two, eq, least⟩
  · intro key other b c hb hc madeUp madeUp' different same
    exact different (key_eq_of_made_up hb hc madeUp madeUp' same)
  · intro first key b h madeUp
    exact owns_of_made_up first h madeUp

/-- A defined name and a reservation stand in the way of `Data!$A$1`; later the reference is met
in another spelling. -/
def crowdedHistory : List Operation :=
  [.addSheet "Data", .insertName (.cell "data" { row := 0, col := 1 }) "DataA1",
    .insertRename "rate" "DataA1_3", .reserve "DataA1_2",
    .resolve (.cell "Data" { row := 0, col := 0 }) none, .pop,
    .resolve (.cell "DATA" { row := 0, col := 0 }) none]

/-- The name, the reservation and the rename push the number up to 4. -/
theorem made_up_identifiers_fresh_crowdedHistory :
    GivesFirst crowdedHistory ∧
    (run crowdedHistory).binding? "Data!$A$1" = some ⟨"DataA1_4", .synthesized⟩ ∧
    Owns crowdedHistory "Data!$A$1" "DataA1_4" ∧
    (run crowdedHistory).lookup "Data!$A$2" = none ∧
    ((run crowdedHistory).resolve (.cell "Data" { row := 1, col := 0 }) none).1 = "DataA2" := by
  obtain ⟨-, missed, -, alone⟩ := made_up_identifiers_fresh crowdedHistory
  have first : GivesFirst crowdedHistory := by decide +kernel
  have bound : (run crowdedHistory).binding? "Data!$A$1" = some ⟨"DataA1_4", .synthesized⟩ := by
    decide +kernel
  have unbound : (run crowdedHistory).lookup "Data!$A$2" = none := by decide +kernel
  have key : (run crowdedHistory).key (.cell "Data" { row := 1, col := 0 }) none = "Data!$A$2" := by
    decide +kernel
  obtain ⟨-, base, -⟩ := missed (.cell "Data" { row := 1, col := 0 }) none (key ▸ unbound)
  refine ⟨first, bound, alone first _ _ bound rfl, unbound, ?_⟩
  rw [base (by decide +kernel), key]
  decide +kernel

end SheetCompiler.AliasTable
