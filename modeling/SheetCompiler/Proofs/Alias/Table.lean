import Mathlib.Data.List.Nodup
import Mathlib.Data.List.Perm.Subperm
import SheetCompiler.AliasTable
import SheetCompiler.Proofs.Numerals

/-!
# What the operations on an alias table do

One fact for each operation and each thing it changes: the binding of a key, the identifiers in
use, the queue. A made-up identifier is new (`fresh_notMem`), and the number behind it is the
least one that is free (`fresh_of_mem`).
-/

namespace SheetCompiler.AliasTable

variable {t : AliasTable}

/-! ### New identifiers -/

theorem isUsed_eq {identifier : String} : t.isUsed identifier = decide (identifier ∈ t.used) := by
  simp [isUsed]

/-- Different numbers make different identifiers. -/
theorem suffixed_inj {base : String} {m n : Nat} : suffixed base m = suffixed base n ↔ m = n := by
  simp [suffixed, ← String.toList_inj, toDigits_inj]

/-- The search stops at the first free number, or gives up when it has run out of tries. -/
theorem freshSuffix_eq (base : String) (tries n : Nat) :
    ∃ m, t.freshSuffix base tries n = suffixed base m ∧ n ≤ m ∧ m ≤ n + tries ∧
      (∀ k, n ≤ k → k < m → suffixed base k ∈ t.used) ∧
      (suffixed base m ∈ t.used → m = n + tries) := by
  induction tries generalizing n with
  | zero => exact ⟨n, rfl, by omega, by omega, by omega, fun _ => rfl⟩
  | succ tries ih =>
    by_cases h : suffixed base n ∈ t.used
    · obtain ⟨m, eq, lower, upper, taken, last⟩ := ih (n + 1)
      refine ⟨m, by simpa [freshSuffix, isUsed_eq, h] using eq, by omega, by omega, ?_, ?_⟩
      · intro k hk hm
        rcases Nat.eq_or_lt_of_le hk with rfl | hk
        · exact h
        · exact taken k hk hm
      · intro hm
        have := last hm
        omega
    · exact ⟨n, by simp [freshSuffix, isUsed_eq, h], by omega, by omega, by omega,
        fun hn => absurd hn h⟩

/-- Among so many numbers there is one more than there are identifiers in use. -/
theorem exists_free (base : String) (n : Nat) :
    ∃ k, n ≤ k ∧ k ≤ n + t.used.length ∧ suffixed base k ∉ t.used := by
  by_contra! taken
  let candidates := (List.range (t.used.length + 1)).map fun i => suffixed base (n + i)
  have nodup : candidates.Nodup := by
    refine List.Nodup.map ?_ List.nodup_range
    intro i j h
    have := suffixed_inj.1 h
    omega
  have subset : candidates ⊆ t.used := by
    intro x hx
    obtain ⟨i, hi, rfl⟩ := List.mem_map.1 hx
    have := List.mem_range.1 hi
    exact taken (n + i) (by omega) (by omega)
  have le := (List.subperm_of_subset nodup subset).length_le
  simp only [candidates, List.length_map, List.length_range] at le
  omega

theorem fresh_of_notMem {base : String} (h : base ∉ t.used) : t.fresh base = base := by
  simp [fresh, isUsed_eq, h]

/-- A base that is taken gets the least number from 2 on that is free. -/
theorem fresh_of_mem {base : String} (h : base ∈ t.used) :
    ∃ n, 2 ≤ n ∧ t.fresh base = suffixed base n ∧ suffixed base n ∉ t.used ∧
      ∀ k, 2 ≤ k → k < n → suffixed base k ∈ t.used := by
  obtain ⟨n, eq, lower, upper, taken, last⟩ := t.freshSuffix_eq base t.used.length 2
  refine ⟨n, lower, by simpa [fresh, isUsed_eq, h] using eq, fun hn => ?_, taken⟩
  -- All numbers up to the last try are taken, and there are more of them than identifiers.
  obtain ⟨k, hk, hk', free⟩ := t.exists_free base 2
  rcases Nat.lt_or_ge k n with hlt | hge
  · exact free (taken k hk hlt)
  · have : k = n := by have := last hn; omega
    exact free (this ▸ hn)

/-- A made-up identifier is new, whether its base was taken or not. -/
theorem fresh_notMem (base : String) : t.fresh base ∉ t.used := by
  by_cases h : base ∈ t.used
  · obtain ⟨n, -, eq, free, -⟩ := fresh_of_mem h
    rwa [eq]
  · rwa [fresh_of_notMem h]

/-! ### Taking and binding identifiers -/

section

variable (t) (key identifier : String) (layer : Layer)

@[simp] theorem mem_used_reserve {x : String} :
    x ∈ (t.reserve identifier).used ↔ x ∈ t.used ∨ x = identifier := by
  by_cases h : identifier ∈ t.used
  · simp only [reserve, isUsed_eq, h, decide_true, if_true]
    exact ⟨.inl, fun hx => hx.elim id (· ▸ h)⟩
  · simp [reserve, isUsed_eq, h]

theorem reserve_eq : t.reserve identifier = { t with used := (t.reserve identifier).used } := by
  by_cases h : t.isUsed identifier <;> simp [reserve, h]

@[simp] theorem bindings_reserve : (t.reserve identifier).bindings = t.bindings := by
  rw [reserve_eq]

@[simp] theorem renames_reserve : (t.reserve identifier).renames = t.renames := by
  rw [reserve_eq]

@[simp] theorem sheets_reserve : (t.reserve identifier).sheets = t.sheets := by
  rw [reserve_eq]

@[simp] theorem pending_reserve : (t.reserve identifier).pending = t.pending := by
  rw [reserve_eq]

/-- Binding a key changes the binding of this key only. -/
@[simp] theorem binding?_bind (other : String) :
    (t.bind key identifier layer).binding? other =
      if other = key then some ⟨identifier, layer⟩ else t.binding? other := by
  simp [bind, binding?, Assoc.find?_insert]

@[simp] theorem mem_used_bind {x : String} :
    x ∈ (t.bind key identifier layer).used ↔ x ∈ t.used ∨ x = identifier := by
  simp [bind]

@[simp] theorem renames_bind : (t.bind key identifier layer).renames = t.renames := by
  simp [bind]

@[simp] theorem sheets_bind : (t.bind key identifier layer).sheets = t.sheets := by
  simp [bind]

@[simp] theorem pending_bind : (t.bind key identifier layer).pending = t.pending := by
  simp [bind]

end

theorem lookup_eq_some_iff {key identifier : String} :
    t.lookup key = some identifier ↔ ∃ layer, t.binding? key = some ⟨identifier, layer⟩ := by
  simp only [lookup, Option.map_eq_some_iff]
  exact ⟨fun ⟨b, hb, h⟩ => ⟨b.layer, h ▸ hb⟩, fun ⟨layer, h⟩ => ⟨_, h, rfl⟩⟩

theorem lookup_eq_none_iff {key : String} : t.lookup key = none ↔ t.binding? key = none := by
  simp [lookup]

/-- Keys depend on the registered sheets alone. -/
theorem key_congr {t' : AliasTable} (h : t.sheets = t'.sheets) (r : Reference)
    (current : Option String) : t.key r current = t'.key r current := by
  simp [key, sheetFor, registered?, h]

/-- Every binding of the second table is one of the first. -/
def Extends (t' t : AliasTable) : Prop :=
  ∀ key b, t.binding? key = some b → t'.binding? key = some b

theorem extends_refl (t : AliasTable) : t.Extends t := fun _ _ h => h

theorem Extends.trans {t' t'' : AliasTable} (h : t''.Extends t') (h' : t'.Extends t) :
    t''.Extends t := fun key b hb => h key b (h' key b hb)

/-- Identifiers stay with their keys. -/
theorem Extends.lookup {t' : AliasTable} (h : t'.Extends t) {key identifier : String}
    (found : t.lookup key = some identifier) : t'.lookup key = some identifier := by
  obtain ⟨layer, bound⟩ := lookup_eq_some_iff.1 found
  exact lookup_eq_some_iff.2 ⟨layer, h key _ bound⟩

/-- Binding a free key takes nothing away. -/
theorem extends_bind {key : String} (unbound : t.binding? key = none) (identifier : String)
    (layer : Layer) : (t.bind key identifier layer).Extends t := by
  intro other b h
  rw [binding?_bind, if_neg, h]
  rintro rfl
  simp [unbound] at h

/-! ### Resolving a reference -/

section

variable {r : Reference} {current : Option String}

/-- A reference that has an identifier leaves the table as it is. -/
theorem resolve_of_bound {b : Binding} (h : t.binding? (t.key r current) = some b) :
    t.resolve r current = (b.identifier, t) := by
  simp [resolve, lookup, h]

/-- A reference that has none gets a made-up one. -/
theorem resolve_of_unbound (h : t.binding? (t.key r current) = none) :
    t.resolve r current = t.synthesize (t.key r current) := by
  simp [resolve, lookup, h]

variable (t) (key : String)

@[simp] theorem synthesize_fst : (t.synthesize key).1 = t.fresh (identifierOfKey key) := rfl

@[simp] theorem binding?_synthesize (other : String) :
    (t.synthesize key).2.binding? other =
      if other = key then some ⟨t.fresh (identifierOfKey key), .synthesized⟩
      else t.binding? other :=
  t.binding?_bind key _ .synthesized other

@[simp] theorem mem_used_synthesize {x : String} :
    x ∈ (t.synthesize key).2.used ↔ x ∈ t.used ∨ x = t.fresh (identifierOfKey key) :=
  t.mem_used_bind key _ .synthesized

@[simp] theorem renames_synthesize : (t.synthesize key).2.renames = t.renames :=
  t.renames_bind key _ .synthesized

@[simp] theorem sheets_synthesize : (t.synthesize key).2.sheets = t.sheets :=
  t.sheets_bind key _ .synthesized

@[simp] theorem pending_synthesize : (t.synthesize key).2.pending = t.pending ++ [key] := by
  simp [synthesize]

/-- Resolving leaves a table as it is, or makes up an identifier for an unbound key. -/
theorem resolve_cases (r : Reference) (current : Option String) :
    (∃ b, t.binding? (t.key r current) = some b ∧ t.resolve r current = (b.identifier, t)) ∨
    (t.binding? (t.key r current) = none ∧ t.resolve r current = t.synthesize (t.key r current)) := by
  cases h : t.binding? (t.key r current) with
  | some b => exact .inl ⟨b, rfl, resolve_of_bound h⟩
  | none => exact .inr ⟨rfl, resolve_of_unbound h⟩

end

end SheetCompiler.AliasTable
