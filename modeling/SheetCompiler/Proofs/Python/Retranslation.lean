import Mathlib.Data.List.Induction
import SheetCompiler.Proofs.Python.Mentions

/-!
# Translating a formula again

A translation queues the keys that it meets and that had no identifier, each once and in written
order (`AliasTable.pending_resolveAll`). From then on all keys of the formula are bound, and neither
more translations nor what is done with the queue unbinds one (`Python.after_work`). So the formula
has one text, and another translation finds nothing to do (`Python.translation_settles`).
-/

namespace SheetCompiler

/-! ### New keys -/

namespace AliasTable

variable {t : AliasTable}

/-- The keys that have no identifier, each once, in the order in which they first occur. -/
def newKeys (t : AliasTable) (keys : List String) : List String :=
  (keys.filter fun key => (t.binding? key).isNone).eraseDups

theorem mem_newKeys {keys : List String} {key : String} :
    key ∈ t.newKeys keys ↔ key ∈ keys ∧ t.binding? key = none := by
  simp [newKeys]

/-- A key is new once. -/
theorem nodup_newKeys (t : AliasTable) (keys : List String) : (t.newKeys keys).Nodup := by
  unfold newKeys
  generalize keys.filter _ = unbound
  induction unbound using List.reverseRecOn with
  | nil => simp
  | append_singleton unbound key ih =>
    rw [List.eraseDups_append]
    by_cases old : key ∈ unbound
    · simpa [List.removeAll, old] using ih
    · have removed : [key].removeAll unbound = [key] := by simp [List.removeAll, old]
      have single : [key].eraseDups = [key] := rfl
      rw [removed, single]
      refine List.nodup_append'.2 ⟨ih, List.nodup_singleton key, ?_⟩
      simpa using old

theorem newKeys_cons_of_bound {key : String} (bound : (t.binding? key).isSome)
    (keys : List String) : t.newKeys (key :: keys) = t.newKeys keys := by
  obtain ⟨b, eq⟩ := Option.isSome_iff_exists.1 bound
  simp [newKeys, eq]

/-- Once a key has an identifier, it is not new a second time. -/
theorem newKeys_cons_of_unbound {key : String} (unbound : t.binding? key = none)
    (keys : List String) :
    t.newKeys (key :: keys) = key :: (t.synthesize key).2.newKeys keys := by
  rw [newKeys, List.filter_cons_of_pos (by simp [unbound]), List.eraseDups_cons, List.filter_filter,
    newKeys]
  congr 2
  refine List.filter_congr fun other _ => ?_
  rw [binding?_synthesize]
  by_cases same : other = key <;> simp [same]

/-- Resolving queues the new keys behind those that are queued. -/
theorem pending_resolveAll (refs : List (Reference × Option String)) (t : AliasTable) :
    (resolveAll refs t).2.pending = t.pending ++ t.newKeys (refs.map fun x => t.key x.1 x.2) := by
  induction refs generalizing t with
  | nil => simp [resolveAll, newKeys]
  | cons x refs ih =>
    have keys : (refs.map fun y => (t.resolve x.1 x.2).2.key y.1 y.2) =
        refs.map fun y => t.key y.1 y.2 :=
      List.map_congr_left fun y _ => key_congr (sheets_resolve x.1 x.2) y.1 y.2
    have others := ih (t.resolve x.1 x.2).2
    rw [keys] at others
    rw [List.map_cons]
    obtain ⟨b, bound, eq⟩ | ⟨unbound, eq⟩ := t.resolve_cases x.1 x.2
    · rw [newKeys_cons_of_bound (by simp [bound])]
      rw [eq] at others
      simpa [resolveAll, eq] using others
    · rw [newKeys_cons_of_unbound unbound]
      rw [eq, pending_synthesize] at others
      simpa [resolveAll, eq] using others

/-- Nothing but the new keys gets an identifier. -/
theorem binding?_resolveAll_of_notMem {refs : List (Reference × Option String)} {key : String}
    (old : key ∉ t.newKeys (refs.map fun x => t.key x.1 x.2)) :
    (resolveAll refs t).2.binding? key = t.binding? key := by
  cases before : t.binding? key with
  | some b => exact extends_resolveAll refs t key b before
  | none =>
    have elsewhere : ∀ x ∈ refs, key ≠ t.key x.1 x.2 := by
      rintro x mem rfl
      exact old (mem_newKeys.2 ⟨List.mem_map_of_mem mem, before⟩)
    refine resolveAll_induction (P := fun t' => t'.sheets = t.sheets ∧ t'.binding? key = none)
      ⟨rfl, before⟩ ?_ |>.2
    rintro t' x mem ⟨sheets, unbound⟩
    refine ⟨by simp [sheets], ?_⟩
    obtain ⟨b, -, eq⟩ | ⟨-, eq⟩ := t'.resolve_cases x.1 x.2
    · rw [eq, unbound]
    · rw [eq, binding?_synthesize, key_congr sheets, if_neg (elsewhere x mem), unbound]

/-- Where all references are bound there is nothing to resolve. -/
theorem resolveAll_of_bound {refs : List (Reference × Option String)}
    (bound : ∀ x ∈ refs, ∃ b, t.binding? (t.key x.1 x.2) = some b) :
    (resolveAll refs t).2 = t := by
  induction refs with
  | nil => rfl
  | cons x refs ih =>
    obtain ⟨b, first⟩ := bound x List.mem_cons_self
    have others := ih fun y mem => bound y (List.mem_cons_of_mem x mem)
    simpa [resolveAll, resolve_of_bound first] using others

/-- Taking a key from the queue unbinds none. -/
theorem after_pop (t : AliasTable) : t.pop.2.After t := by
  unfold pop
  split
  · exact t.after_refl
  · exact ⟨t.extends_refl, rfl, rfl⟩

end AliasTable

namespace Python

open AliasTable

/-! ### Work in between -/

/-- What can be done with a table once the names are in it. -/
inductive Work where
  | translate (scope : Scope) (f : Formula)
  | resolve (r : Reference) (current : Option String)
  | pop

def Work.apply (t : AliasTable) : Work → AliasTable
  | translate scope f => (scope.formula f t).2
  | resolve r current => (t.resolve r current).2
  | pop => t.pop.2

theorem Scope.after_formula (scope : Scope) (f : Formula) (t : AliasTable) :
    (scope.formula f t).2.After t := by
  rw [formula_snd]
  exact after_resolveAll _ t

/-- The step: each kind of work makes a later table. -/
theorem Work.after_apply (work : Work) (t : AliasTable) : (work.apply t).After t := by
  cases work with
  | translate scope f => exact scope.after_formula f t
  | resolve r current => exact t.after_resolve r current
  | pop => exact t.after_pop

/-- The run over all work. -/
theorem after_work (work : List Work) (t : AliasTable) : (work.foldl Work.apply t).After t := by
  induction work generalizing t with
  | nil => exact t.after_refl
  | cons first work ih => exact (ih (first.apply t)).trans (first.after_apply t)

/-! ### The second translation -/

namespace Scope

variable (scope : Scope) {f : Formula} {t t' : AliasTable}

/-- A later table gives the formula the text that it got. -/
theorem formula_fst_of_after (after : t'.After (scope.formula f t).2) :
    (scope.formula f t').1 = (scope.formula f t).1 := by
  have last := scope.after_formula f t'
  have pieces : scope.formulaPieces f t' = scope.formulaPieces f t :=
    (scope.fill_formulaParts f (after_refl _)).symm.trans
      (scope.fill_formulaParts f (last.trans after))
  rw [← String.toList_inj, ← write_formulaPieces, ← write_formulaPieces, pieces]

/-- In a later table all references of the formula are bound. -/
theorem formula_snd_of_after (after : t'.After (scope.formula f t).2) :
    (scope.formula f t').2 = t' := by
  rw [formula_snd]
  refine resolveAll_of_bound fun x mem => ?_
  obtain ⟨b, bound⟩ := exists_binding?_resolveAll mem t
  rw [← formula_snd] at bound
  refine ⟨b, ?_⟩
  rw [key_congr (after.sheets.trans (scope.after_formula f t).sheets)]
  exact after.bindings _ _ bound

end Scope

/-- **A translation finds its new references and settles.** It keeps all bindings, and queues behind
what is queued the keys of the formula that had no identifier, each once, in the order in which they
first occur; nothing else gets one. Whatever is translated, resolved and taken from the queue after
that, the formula is translated to the same text again, and the table stays as it is. -/
theorem translation_settles (scope : Scope) (f : Formula) (t : AliasTable) :
    let new := t.newKeys (f.references.map fun r => t.key r scope.sheet)
    let translated := scope.formula f t
    translated.2.After t ∧
    (∀ key, key ∉ new → translated.2.binding? key = t.binding? key) ∧
    translated.2.pending = t.pending ++ new ∧ new.Nodup ∧
    ∀ work : List Work, let later := work.foldl Work.apply translated.2
      scope.formula f later = (translated.1, later) := by
  have keys : (f.references.map fun r => t.key r scope.sheet) =
      (f.references.map (·, scope.sheet)).map fun x => t.key x.1 x.2 := by
    rw [List.map_map]
    rfl
  refine ⟨scope.after_formula f t, fun key old => ?_, ?_, t.nodup_newKeys _, fun work => ?_⟩
  · rw [keys] at old
    rw [Scope.formula_snd, binding?_resolveAll_of_notMem old]
  · rw [keys, Scope.formula_snd, pending_resolveAll]
  · have after := after_work work (scope.formula f t).2
    exact Prod.ext (scope.formula_fst_of_after after) (scope.formula_snd_of_after after)

/-- The formula `A1+B2*A1-B2`. -/
def twiceEach : Formula :=
  let a : Term := .range ⟨none, .single { row := 0, col := 0 }⟩
  let b : Term := .range ⟨none, .single { row := 1, col := 1 }⟩
  ⟨[.link a .add (.link b .multiply (.link a .subtract (.last b)))]⟩

/-- The cells seen from one sheet. -/
def calcScope : Scope := { sheet := some "Calc" }

/-- A table that knows the first of the two cells. -/
def firstKnown : AliasTable :=
  (({} : AliasTable).resolve (.cell "Calc" { row := 0, col := 0 }) none).2

/-- Only the second cell is new, once. After its key is taken from the queue, the text is the same.
-/
theorem translation_settles_twice :
    firstKnown.newKeys (twiceEach.references.map fun r => firstKnown.key r calcScope.sheet) =
      ["Calc!$B$2"] ∧
    (calcScope.formula twiceEach firstKnown).1 =
      "self.CalcA1+self.CalcB2*self.CalcA1-self.CalcB2" ∧
    (calcScope.formula twiceEach firstKnown).2.binding? "Calc!$A$1" =
      firstKnown.binding? "Calc!$A$1" ∧
    (calcScope.formula twiceEach firstKnown).2.pending = ["Calc!$A$1"] ++ ["Calc!$B$2"] ∧
    calcScope.formula twiceEach (Work.apply (calcScope.formula twiceEach firstKnown).2 .pop) =
      ((calcScope.formula twiceEach firstKnown).1,
        Work.apply (calcScope.formula twiceEach firstKnown).2 .pop) := by
  have new : firstKnown.newKeys
      (twiceEach.references.map fun r => firstKnown.key r calcScope.sheet) = ["Calc!$B$2"] := by
    decide +kernel
  have queue : firstKnown.pending = ["Calc!$A$1"] := by decide +kernel
  obtain ⟨-, old, queued, -, again⟩ := translation_settles calcScope twiceEach firstKnown
  rw [new] at old queued
  rw [queue] at queued
  refine ⟨new, ?_, ?_, ?_, ?_⟩
  · decide +kernel
  · exact old _ (by decide)
  · exact queued
  · exact again [.pop]

end Python

end SheetCompiler
