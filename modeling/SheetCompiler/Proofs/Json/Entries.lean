import Mathlib.Data.List.Nodup
import SheetCompiler.Assoc
import SheetCompiler.Json.Record

/-!
# Entries by key

Maps as lists of entries. Maps in JSON are kept in the order of their keys: binding keys one by one
sorts the entries (`Json.sorted_foldl_insertKey`) and loses none whose key is its own
(`Json.perm_foldl_insertKey`), and in this order entries are determined by what they are
(`Json.eq_of_perm`). Association lists keep the order in which keys were bound.
-/

namespace SheetCompiler

namespace Json

variable {α : Type} {key : String} {value : α} {m entries : List (String × α)}

/-- A new key adds its entry. -/
theorem perm_insertKey (new : key ∉ m.map (·.1)) : (insertKey key value m).Perm ((key, value) :: m) := by
  induction m with
  | nil => exact .refl _
  | cons entry m ih =>
    obtain ⟨k, v⟩ := entry
    rw [insertKey, if_neg (List.ne_of_not_mem_cons new)]
    split
    · exact .refl _
    · exact ((ih (List.not_mem_of_not_mem_cons new)).cons (k, v)).trans (.swap ..)

/-- Binding a key brings in no other entry. -/
theorem mem_of_mem_insertKey {entry : String × α} (mem : entry ∈ insertKey key value m) :
    entry = (key, value) ∨ entry ∈ m := by
  induction m with
  | nil => exact .inl (List.mem_singleton.1 mem)
  | cons first m ih =>
    obtain ⟨k, v⟩ := first
    rw [insertKey] at mem
    split at mem
    · exact List.mem_cons.1 mem
    split at mem
    · exact (List.mem_cons.1 mem).imp_right (List.mem_cons_of_mem _)
    · rcases List.mem_cons.1 mem with rfl | mem
      · exact .inr List.mem_cons_self
      · exact (ih mem).imp_right (List.mem_cons_of_mem _)

/-- The step: binding a key keeps the entries in order. -/
theorem sorted_insertKey (sorted : m.Pairwise (·.1 < ·.1)) :
    (insertKey key value m).Pairwise (·.1 < ·.1) := by
  induction m with
  | nil => exact List.pairwise_singleton _ _
  | cons first m ih =>
    obtain ⟨k, v⟩ := first
    obtain ⟨below, sorted⟩ := List.pairwise_cons.1 sorted
    rw [insertKey]
    split
    next less =>
      refine List.pairwise_cons.2 ⟨fun entry mem => ?_, List.pairwise_cons.2 ⟨below, sorted⟩⟩
      rcases List.mem_cons.1 mem with rfl | mem
      · exact less
      · exact String.lt_trans less (below entry mem)
    next notLess =>
      split
      next same => exact List.pairwise_cons.2 ⟨same ▸ below, sorted⟩
      next other =>
        have greater : k < key := by
          by_contra notGreater
          exact other (String.le_antisymm (String.not_lt.1 notGreater) (String.not_lt.1 notLess))
        refine List.pairwise_cons.2 ⟨fun entry mem => ?_, ih sorted⟩
        rcases mem_of_mem_insertKey mem with rfl | mem
        · exact greater
        · exact below entry mem

/-- The run over all entries. -/
theorem sorted_foldl_insertKey (sorted : m.Pairwise (·.1 < ·.1)) :
    (entries.foldl (fun m entry => insertKey entry.1 entry.2 m) m).Pairwise (·.1 < ·.1) := by
  induction entries generalizing m with
  | nil => exact sorted
  | cons entry entries ih => exact ih (sorted_insertKey sorted)

/-- Keys that are bound once lose no entry. -/
theorem perm_foldl_insertKey (distinct : ((m ++ entries).map (·.1)).Nodup) :
    (entries.foldl (fun m entry => insertKey entry.1 entry.2 m) m).Perm (m ++ entries) := by
  induction entries generalizing m with
  | nil => simp
  | cons entry entries ih =>
    have first : (entry :: m).Perm (m ++ [entry]) := (List.perm_append_singleton entry m).symm
    have new : entry.1 ∉ m.map (·.1) := by
      rw [List.map_append, List.map_cons, List.nodup_middle, List.nodup_cons] at distinct
      exact fun mem => distinct.1 (List.mem_append_left _ mem)
    have inserted : (insertKey entry.1 entry.2 m ++ entries).Perm (m ++ entry :: entries) := by
      rw [← List.singleton_append, ← List.append_assoc]
      exact ((perm_insertKey new).trans first).append_right entries
    refine (ih ?_).trans inserted
    exact (inserted.map _).nodup_iff.2 distinct

theorem mem_of_mem_foldl_insertKey {entry : String × α}
    (mem : entry ∈ entries.foldl (fun m entry => insertKey entry.1 entry.2 m) m) :
    entry ∈ m ∨ entry ∈ entries := by
  induction entries generalizing m with
  | nil => exact .inl mem
  | cons first entries ih =>
    rcases ih mem with mem | mem
    · rcases mem_of_mem_insertKey mem with rfl | mem
      · exact .inr List.mem_cons_self
      · exact .inl mem
    · exact .inr (List.mem_cons_of_mem _ mem)

/-- What was read was read from something. -/
theorem exists_of_mem_mapM {β γ : Type} {f : β → Option γ} {xs : List β} {ys : List γ}
    (all : xs.mapM f = some ys) {y : γ} (mem : y ∈ ys) : ∃ x, f x = some y := by
  induction xs generalizing ys with
  | nil =>
    cases all
    cases mem
  | cons x xs ih =>
    simp only [List.mapM_cons, Option.bind_eq_bind, Option.bind_eq_some_iff, Option.pure_def,
      Option.some.injEq] at all
    obtain ⟨first, hfirst, others, hothers, rfl⟩ := all
    rcases List.mem_cons.1 mem with rfl | mem
    · exact ⟨x, hfirst⟩
    · exact ih hothers mem

/-- A map is read in the order of its keys. -/
theorem of_map?_eq_some {read : Json → Option α} {j : Json} (parsed : map? read j = some m) :
    m.Pairwise (·.1 < ·.1) ∧ ∀ entry ∈ m, ∃ j', read j' = some entry.2 := by
  cases j with
  | object members =>
    simp only [map?, Option.bind_eq_bind, Option.bind_eq_some_iff, Option.pure_def,
      Option.some.injEq] at parsed
    obtain ⟨members, -, values, hvalues, rfl⟩ := parsed
    refine ⟨sorted_foldl_insertKey .nil, fun entry mem => ?_⟩
    have mem := (mem_of_mem_foldl_insertKey mem).resolve_left List.not_mem_nil
    obtain ⟨member, hmember⟩ := exists_of_mem_mapM hvalues mem
    obtain ⟨value, hvalue, rfl⟩ := Option.map_eq_some_iff.1 hmember
    exact ⟨member.2, hvalue⟩
  | _ => cases parsed

/-- Entries in order of their keys are determined by what they are. -/
theorem eq_of_perm (sorted : m.Pairwise (·.1 < ·.1)) (sorted' : entries.Pairwise (·.1 < ·.1))
    (perm : m.Perm entries) : m = entries :=
  perm.eq_of_pairwise (fun _ _ _ _ less greater => absurd greater (String.lt_asymm less)) sorted sorted'

end Json

namespace Assoc

variable {κ α : Type} [DecidableEq κ] {key : κ} {value : α} {m : List (κ × α)}

theorem insert_of_notMem (new : key ∉ m.map (·.1)) : insert key value m = m ++ [(key, value)] := by
  induction m with
  | nil => rfl
  | cons entry m ih =>
    obtain ⟨k, v⟩ := entry
    rw [insert, if_neg (List.ne_of_not_mem_cons new).symm, ih (List.not_mem_of_not_mem_cons new),
      List.cons_append]

/-- Binding a key again leaves it where it is. -/
theorem keys_insert_of_mem (bound : key ∈ m.map (·.1)) :
    (insert key value m).map (·.1) = m.map (·.1) := by
  induction m with
  | nil => cases bound
  | cons entry m ih =>
    obtain ⟨k, v⟩ := entry
    rw [insert]
    split
    next same => simp [same]
    next other =>
      have bound := (List.mem_cons.1 bound).resolve_left (Ne.symm other)
      rw [List.map_cons, ih bound, List.map_cons]

theorem keys_insert : (insert key value m).map (·.1) =
    if key ∈ m.map (·.1) then m.map (·.1) else m.map (·.1) ++ [key] := by
  split
  next bound => exact keys_insert_of_mem bound
  next new => simp [insert_of_notMem new]

/-- Where keys are bound once, an entry is what its key finds. -/
theorem find?_eq_some_iff (distinct : (m.map (·.1)).Nodup) :
    find? key m = some value ↔ (key, value) ∈ m := by
  induction m with
  | nil => simp
  | cons entry m ih =>
    obtain ⟨k, v⟩ := entry
    obtain ⟨new, distinct⟩ := List.nodup_cons.1 distinct
    rw [find?]
    split
    next same =>
      subst same
      have absent : (k, value) ∉ m := fun mem => new (List.mem_map.2 ⟨_, mem, rfl⟩)
      simp [absent, eq_comm]
    next other => simp [ih distinct, Ne.symm other]

end Assoc

end SheetCompiler
