import SheetCompiler.Block.Comprehension
import SheetCompiler.Proofs.Block.Windows

/-!
# What two formulas have in common

The runs of two texts make up a maximal alignment, however they are looked for, and their texts are
parts of both. A block is checked for the common parts of its first two formulas, so the check never
fails at one of these (`Alignment.runs_maximal`).
-/

namespace SheetCompiler

namespace Block

variable {b : Block}

/-- The check fails at a cell that lacks one of the fragments. -/
theorem exists_of_checkFragments {fragments : List (List Char)} {cells : List (Address × String)}
    {cell : Reference} {missing : String}
    (h : b.checkFragments fragments cells = .error (.fragment cell missing)) :
    ∃ (k : Nat) (p : Address × String), cells[k]? = some p ∧ cell = b.label p.1 ∧
      ∃ f ∈ fragments, ¬f <:+: p.2.toList := by
  induction cells with
  | nil => simp [checkFragments] at h
  | cons p cells ih =>
    rw [checkFragments] at h
    split at h
    next f found =>
      simp only [Except.error.injEq, BlockError.fragment.injEq] at h
      refine ⟨0, p, rfl, h.1.symm, f, List.mem_of_find?_eq_some found, ?_⟩
      have absent := List.find?_some found
      rw [← Text.occursIn_iff]
      simpa using absent
    next =>
      obtain ⟨k, q, hq, rest⟩ := ih h
      exact ⟨k + 1, q, hq, rest⟩

/-- Messages tell the cells of a block apart. -/
theorem label_inj {a a' : Address} : b.label a = b.label a' ↔ a = a' := by
  simp [label, Reference.cell, Range.single]

/-- No cell is listed twice. -/
theorem pairwise_cells (b : Block) : b.cells.Pairwise fun p q => p.1 ≠ q.1 := by
  rw [cells, List.pairwise_flatten]
  refine ⟨fun row hrow => ?_, ?_⟩
  · obtain ⟨i, hi, rfl⟩ := List.mem_mapIdx.1 hrow
    rw [List.pairwise_iff_getElem]
    intro j k hj hk less same
    simp [rowCells] at same
    omega
  · rw [List.pairwise_iff_getElem]
    intro i k hi hk less p hp q hq same
    simp only [List.getElem_mapIdx] at hp hq
    obtain ⟨j, hj, rfl⟩ := List.mem_mapIdx.1 hp
    obtain ⟨j', hj', rfl⟩ := List.mem_mapIdx.1 hq
    simp at same
    omega

/-- The first two cells have all the fragments that are looked for. -/
theorem label_ne_of_checkStructure {cell : Reference} {missing : String}
    (h : b.checkStructure b.cells = .error (.fragment cell missing)) {k : Nat} (early : k < 2)
    {p : Address × String} (hp : b.cells[k]? = some p) : cell ≠ b.label p.1 := by
  have distinct := List.pairwise_iff_getElem.1 b.pairwise_cells
  rcases eq : b.cells with _ | ⟨first, _ | ⟨second, rest⟩⟩
  · simp [eq, checkStructure] at h
  · simp [eq, checkStructure] at h
  · rw [eq] at h hp distinct
    obtain ⟨k', q, hq, rfl, f, mem, absent⟩ := exists_of_checkFragments h
    obtain ⟨inFirst, inSecond⟩ := Alignment.infix_of_mem_fragments mem
    have late : 2 ≤ k' := by
      rcases k' with _ | _ | k'
      · cases hq
        exact absurd inFirst absent
      · cases hq
        exact absurd inSecond absent
      · omega
    obtain ⟨hk, rfl⟩ := List.getElem?_eq_some_iff.1 hp
    obtain ⟨hk', rfl⟩ := List.getElem?_eq_some_iff.1 hq
    rw [Ne, label_inj]
    exact (distinct k k' hk hk' (by omega)).symm

end Block

namespace Alignment

/-- **Common runs make a maximal alignment.** A worklist of windows that finds the runs of two texts
is empty after so many turns, and gives the same runs once they are sorted and joined. The runs are
not empty, are the same in both texts, and follow one another in both; no two in a row touch. A run
can grow to neither side unless the run next to it is in the way, and more: wherever the texts have
the same character, a run is in the way of adding it. The texts of the runs are parts of both texts,
so a block never lacks a common fragment in its first two cells. -/
theorem runs_maximal (a b : List Char) :
    (∀ n, 2 * a.length + 1 ≤ n →
      (Search.turns a b n (.start a b)).windows = [] ∧
      merge ((Search.turns a b n (.start a b)).found.mergeSort Run.notAfter) = runs a b) ∧
    (∀ r ∈ runs a b, 0 < r.size ∧ r.a + r.size ≤ a.length ∧ r.b + r.size ≤ b.length ∧
      (a.drop r.a).take r.size = (b.drop r.b).take r.size) ∧
    (runs a b).Pairwise Run.Before ∧
    ((runs a b).IsChain fun r s => ¬r.Touches s) ∧
    (∀ before r after, runs a b = before ++ r :: after →
      (∀ c, a[r.a + r.size]? = some c → b[r.b + r.size]? = some c →
        ∃ s, after.head? = some s ∧ (s.a = r.a + r.size ∨ s.b = r.b + r.size)) ∧
      ∀ c, 0 < r.a → 0 < r.b → a[r.a - 1]? = some c → b[r.b - 1]? = some c →
        ∃ s, before.getLast? = some s ∧ (s.a + s.size = r.a ∨ s.b + s.size = r.b)) ∧
    (∀ i j c, a[i]? = some c → b[j]? = some c → ∃ r ∈ runs a b, r.Blocks i j) ∧
    (∀ f ∈ fragments a b, f <:+: a ∧ f <:+: b) ∧
    ∀ (block : Block) (cell : Reference) (missing : String),
      block.checkStructure block.cells = .error (.fragment cell missing) →
      ∀ k < 2, ∀ p, block.cells[k]? = some p → cell ≠ block.label p.1 := by
  have maximal := maximal_runs a b
  refine ⟨fun n enough => ⟨?_, ?_⟩, fun r hr => ?_, maximal.ordered, isChain_runs a b,
    fun before r after eq => ?_, maximal.full, fun f hf => infix_of_mem_fragments hf,
    fun block cell missing h k early p hp => Block.label_ne_of_checkStructure h early hp⟩
  · exact Search.windows_turns (by simpa [Search.start, Search.effort] using enough)
  · rw [Search.sorted_found enough]
    rfl
  · have common := maximal.common r hr
    exact ⟨maximal.nonempty r hr, common.inFirst, common.inSecond, common.texts_eq⟩
  · rw [eq] at maximal
    exact ⟨fun c => maximal.right, fun c => maximal.left⟩

/-- The third formula has nothing of the sums before it. -/
def oddOneOut : Block where
  sheet := "Calc"
  origin := { row := 0, col := 0 }
  rows := [["=SUM(B1:B3)"], ["=SUM(C1:C3)"], ["=D1&\"x\""]]

/-- The first run of `abaa` and `abbaa` is an `a` that could grow, if the next run did not start
right behind it in the first text. -/
theorem runs_maximal_blocked :
    runs "abaa".toList "abbaa".toList = [⟨0, 0, 1⟩, ⟨1, 2, 3⟩] ∧
    (Search.turns "abaa".toList "abbaa".toList 9
      (.start "abaa".toList "abbaa".toList)).windows = [] ∧
    (∃ s, [Run.mk 1 2 3].head? = some s ∧ (s.a = 1 ∨ s.b = 1)) ∧
    oddOneOut.checkStructure oddOneOut.cells =
      .error (.fragment (.cell "Calc" { row := 2, col := 0 }) "=SUM(") ∧
    Reference.cell "Calc" { row := 2, col := 0 } ≠ oddOneOut.label { row := 1, col := 0 } := by
  have eq : runs "abaa".toList "abbaa".toList = [⟨0, 0, 1⟩, ⟨1, 2, 3⟩] := by decide +kernel
  have fails : oddOneOut.checkStructure oddOneOut.cells =
      .error (.fragment (.cell "Calc" { row := 2, col := 0 }) "=SUM(") := by decide +kernel
  obtain ⟨ends, -, -, -, grows, -, -, checked⟩ := runs_maximal "abaa".toList "abbaa".toList
  refine ⟨eq, (ends 9 (by decide)).1, ?_, fails, ?_⟩
  · exact (grows [] _ _ eq).1 'b' (by decide) (by decide)
  · exact checked oddOneOut _ _ fails 1 (by decide) _ rfl

end Alignment

end SheetCompiler
