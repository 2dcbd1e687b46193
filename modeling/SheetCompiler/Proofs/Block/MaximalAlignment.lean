import Mathlib.Data.List.Chain
import SheetCompiler.Proofs.Block.LongestRun

/-!
# Alignments that nothing can be added to

The runs of two texts are found around the longest one, to its left and to its right. A character
that the texts have in common is left of it in both texts, or right of it in both, or the run is in
the way. So in the end no common character is left that could be added (`maximal_runsWithin`), and
in particular no run can grow (`Maximal.right`, `Maximal.left`). Joining runs keeps that
(`maximal_runs`).
-/

namespace SheetCompiler.Alignment

namespace Run

/-- The run ends where the other one starts, or before that, in both texts. -/
def Before (r s : Run) : Prop := r.a + r.size ≤ s.a ∧ r.b + r.size ≤ s.b

/-- The run ends where the other one starts, in both texts. -/
def Touches (r s : Run) : Prop := r.a + r.size = s.a ∧ r.b + r.size = s.b

/-- Two positions are not both before the run and not both after it. -/
def Blocks (r : Run) (i j : Nat) : Prop :=
  ¬(i < r.a ∧ j < r.b) ∧ ¬(r.a + r.size ≤ i ∧ r.b + r.size ≤ j)

end Run

/-- Runs of two texts from left to right. Wherever the texts have the same character, a run is in
the way of adding it. -/
structure Maximal (a b : List Char) (rs : List Run) : Prop where
  nonempty : ∀ r ∈ rs, 0 < r.size
  common : ∀ r ∈ rs, r.Common a b
  ordered : rs.Pairwise Run.Before
  full : ∀ i j c, a[i]? = some c → b[j]? = some c → ∃ r ∈ rs, r.Blocks i j

variable {a b : List Char} {r s : Run} {rs : List Run}

/-! ### Finding the runs -/

/-- A run of the fronts of two texts is one of the texts. -/
theorem Run.Common.of_take {m n : Nat} (h : r.Common (a.take m) (b.take n)) :
    r.Common a b ∧ r.a + r.size ≤ m ∧ r.b + r.size ≤ n := by
  obtain ⟨inFirst, inSecond, equal⟩ := h
  rw [List.length_take] at inFirst inSecond
  refine ⟨⟨by omega, by omega, fun d hd => ?_⟩, by omega, by omega⟩
  have same := equal d hd
  rwa [List.getElem?_take_of_lt (by omega), List.getElem?_take_of_lt (by omega)] at same

/-- A run of what is behind, moved along, is one of the texts. -/
theorem Run.Common.of_drop {m n : Nat} (h : r.Common (a.drop m) (b.drop n)) (hm : m ≤ a.length)
    (hn : n ≤ b.length) : (r.shift m n).Common a b := by
  obtain ⟨inFirst, inSecond, equal⟩ := h
  rw [List.length_drop] at inFirst inSecond
  refine ⟨by dsimp only [shift]; omega, by dsimp only [shift]; omega, fun d hd => ?_⟩
  have same := equal d hd
  rw [List.getElem?_drop, List.getElem?_drop] at same
  simpa [shift, Nat.add_comm, Nat.add_left_comm, Nat.add_assoc] using same

/-- The runs left of a run, the run itself, and those right of it. -/
theorem Maximal.around {m : Run} {left right : List Run} (common : m.Common a b)
    (nonempty : 0 < m.size) (before : Maximal (a.take m.a) (b.take m.b) left)
    (after : Maximal (a.drop (m.a + m.size)) (b.drop (m.b + m.size)) right) :
    Maximal a b (left ++ m :: right.map (·.shift (m.a + m.size) (m.b + m.size))) := by
  have lefts : ∀ r ∈ left, r.Common a b ∧ r.Before m := fun r hr => (before.common r hr).of_take
  have rights : ∀ r ∈ right, (r.shift (m.a + m.size) (m.b + m.size)).Common a b :=
    fun r hr => (after.common r hr).of_drop common.inFirst common.inSecond
  have starts : ∀ r : Run, m.Before (r.shift (m.a + m.size) (m.b + m.size)) :=
    fun r => ⟨Nat.le_add_left _ _, Nat.le_add_left _ _⟩
  refine ⟨?_, ?_, ?_, fun i j c first second => ?_⟩
  · simpa [or_imp, forall_and, nonempty] using ⟨before.nonempty, after.nonempty⟩
  · simpa [or_imp, forall_and, common] using ⟨fun r hr => (lefts r hr).1, rights⟩
  · rw [List.pairwise_append, List.pairwise_cons, List.pairwise_map]
    refine ⟨before.ordered, ⟨by simpa using fun r _ => starts r, ?_⟩, fun r hr s hs => ?_⟩
    · exact after.ordered.imp fun ⟨first, second⟩ => by
        simp only [Run.Before, Run.shift]
        omega
    · have ends := (lefts r hr).2
      rcases List.mem_cons.1 hs with rfl | hs
      · exact ends
      · obtain ⟨s, -, rfl⟩ := List.mem_map.1 hs
        have start := starts s
        simp only [Run.Before] at ends start ⊢
        omega
  · -- The positions are on one side of the run in both texts, or the run is between them.
    by_cases isLeft : i < m.a ∧ j < m.b
    · obtain ⟨r, mem, blocks⟩ := before.full i j c
        (by rw [List.getElem?_take_of_lt isLeft.1, first])
        (by rw [List.getElem?_take_of_lt isLeft.2, second])
      exact ⟨r, List.mem_append_left _ mem, blocks⟩
    by_cases isRight : m.a + m.size ≤ i ∧ m.b + m.size ≤ j
    · obtain ⟨r, mem, blocks⟩ := after.full (i - (m.a + m.size)) (j - (m.b + m.size)) c
        (by rw [List.getElem?_drop, Nat.add_sub_cancel' isRight.1, first])
        (by rw [List.getElem?_drop, Nat.add_sub_cancel' isRight.2, second])
      refine ⟨_, List.mem_append_right _ (List.mem_cons_of_mem _ (List.mem_map_of_mem mem)), ?_⟩
      simp only [Run.Blocks, Run.shift] at blocks ⊢
      omega
    · exact ⟨m, by simp, isLeft, isRight⟩

/-- The runs that are found leave no common character out. -/
theorem maximal_runsWithin {fuel : Nat} (enough : a.length < fuel) :
    Maximal a b (runsWithin fuel a b) := by
  induction fuel generalizing a b with
  | zero => omega
  | succ fuel ih =>
    have common := common_longest a b
    rw [runsWithin]
    split
    next none =>
      refine ⟨nofun, nofun, .nil, fun i j c first second => ?_⟩
      exact absurd second (ne_of_longest_eq_zero none first)
    next some =>
      have inside := common.inFirst
      refine .around common (by omega) (ih ?_) (ih ?_)
      · rw [List.length_take]
        omega
      · rw [List.length_drop]
        omega

/-! ### Joining runs -/

/-- Two runs that touch are one run. -/
theorem Run.Common.join (first : r.Common a b) (second : s.Common a b) (touches : r.Touches s) :
    Run.Common a b { r with size := r.size + s.size } := by
  obtain ⟨endFirst, endSecond⟩ := touches
  have inFirst := second.inFirst
  have inSecond := second.inSecond
  refine ⟨by dsimp only; omega, by dsimp only; omega, fun d hd => ?_⟩
  by_cases before : d < r.size
  · exact first.equal d before
  · have same := second.equal (d - r.size) (by dsimp only at hd; omega)
    have shiftFirst : s.a + (d - r.size) = r.a + d := by omega
    have shiftSecond : s.b + (d - r.size) = r.b + d := by omega
    rwa [shiftFirst, shiftSecond] at same

/-- What holds of the runs, and of two that are joined, holds of what joining gives. -/
theorem forall_mem_mergeFrom {P : Run → Prop}
    (join : ∀ r s, P r → P s → r.Touches s → P { r with size := r.size + s.size })
    (all : ∀ x ∈ r :: rs, P x) : ∀ x ∈ mergeFrom r rs, P x := by
  induction rs generalizing r with
  | nil => exact all
  | cons s rs ih =>
    obtain ⟨first, others⟩ := List.forall_mem_cons.1 all
    obtain ⟨second, rest⟩ := List.forall_mem_cons.1 others
    rw [mergeFrom]
    split
    next touches => exact ih (List.forall_mem_cons.2 ⟨join r s first second touches, rest⟩)
    next => exact List.forall_mem_cons.2 ⟨first, ih others⟩

/-- Joining keeps the order of the runs. -/
theorem pairwise_mergeFrom (ordered : (r :: rs).Pairwise Run.Before) :
    (mergeFrom r rs).Pairwise Run.Before := by
  induction rs generalizing r with
  | nil => exact ordered
  | cons s rs ih =>
    obtain ⟨first, others⟩ := List.pairwise_cons.1 ordered
    obtain ⟨second, rest⟩ := List.pairwise_cons.1 others
    rw [mergeFrom]
    split
    next touches =>
      refine ih (List.pairwise_cons.2 ⟨fun x hx => ?_, rest⟩)
      have after := second x hx
      simp only [Run.Before] at after ⊢
      omega
    next =>
      refine List.pairwise_cons.2 ⟨?_, ih others⟩
      exact forall_mem_mergeFrom (P := r.Before) (fun _ _ start _ _ => start) first

/-- What is in the way stays in the way. -/
theorem blocks_mergeFrom {i j : Nat} (blocks : ∃ x ∈ r :: rs, x.Blocks i j) :
    ∃ x ∈ mergeFrom r rs, x.Blocks i j := by
  induction rs generalizing r with
  | nil => exact blocks
  | cons s rs ih =>
    obtain ⟨x, mem, blocks⟩ := blocks
    rw [mergeFrom]
    split
    next touches =>
      rcases List.mem_cons.1 mem with rfl | mem
      · refine ih ⟨_, List.mem_cons_self, ?_⟩
        simp only [Run.Blocks] at blocks ⊢
        omega
      · rcases List.mem_cons.1 mem with rfl | mem
        · refine ih ⟨_, List.mem_cons_self, ?_⟩
          simp only [Run.Blocks] at blocks ⊢
          omega
        · exact ih ⟨x, List.mem_cons_of_mem _ mem, blocks⟩
    next =>
      rcases List.mem_cons.1 mem with rfl | mem
      · exact ⟨x, List.mem_cons_self, blocks⟩
      · obtain ⟨y, mem, blocks⟩ := ih ⟨x, mem, blocks⟩
        exact ⟨y, List.mem_cons_of_mem _ mem, blocks⟩

/-- The first run keeps its start, and may grow. -/
theorem exists_mergeFrom_eq_cons (r : Run) (rs : List Run) :
    ∃ size rest, mergeFrom r rs = { r with size } :: rest := by
  induction rs generalizing r with
  | nil => exact ⟨r.size, [], rfl⟩
  | cons s rs ih =>
    rw [mergeFrom]
    split
    next => exact ih _
    next => exact ⟨r.size, _, rfl⟩

/-- Runs that touch have been joined, so none do any more. -/
theorem isChain_mergeFrom (r : Run) (rs : List Run) :
    (mergeFrom r rs).IsChain fun r s => ¬r.Touches s := by
  induction rs generalizing r with
  | nil => exact .singleton r
  | cons s rs ih =>
    rw [mergeFrom]
    split
    next => exact ih _
    next apart =>
      obtain ⟨size, rest, eq⟩ := exists_mergeFrom_eq_cons s rs
      have others := ih s
      rw [eq] at others ⊢
      exact .cons_cons apart others

/-- Joining neither loses a run nor makes room for one. -/
theorem maximal_runs (a b : List Char) : Maximal a b (runs a b) := by
  have found : Maximal a b (runsWithin (a.length + 1) a b) :=
    maximal_runsWithin (Nat.lt_succ_self _)
  rw [runs]
  cases eq : runsWithin (a.length + 1) a b with
  | nil =>
    rw [eq] at found
    exact found
  | cons r rs =>
    rw [eq] at found
    refine ⟨?_, ?_, ?_, ?_⟩
    · refine forall_mem_mergeFrom (fun r s first _ _ => ?_) found.nonempty
      exact Nat.lt_of_lt_of_le first (Nat.le_add_right _ _)
    · refine forall_mem_mergeFrom (fun r s first second touches => ?_) found.common
      exact first.join second touches
    · exact pairwise_mergeFrom found.ordered
    · exact fun i j c first second => blocks_mergeFrom (found.full i j c first second)

theorem isChain_runs (a b : List Char) : (runs a b).IsChain fun r s => ¬r.Touches s := by
  rw [runs]
  cases runsWithin (a.length + 1) a b with
  | nil => exact .nil
  | cons r rs => exact isChain_mergeFrom r rs

/-! ### What maximal alignments are like -/

namespace Maximal

variable {before after : List Run}

/-- A run that could grow to the right has the next run right behind it in one of the texts. -/
theorem right (h : Maximal a b (before ++ r :: after)) {c : Char}
    (first : a[r.a + r.size]? = some c) (second : b[r.b + r.size]? = some c) :
    ∃ s, after.head? = some s ∧ (s.a = r.a + r.size ∨ s.b = r.b + r.size) := by
  obtain ⟨x, mem, blocks⟩ := h.full _ _ c first second
  obtain ⟨-, ordered, across⟩ := List.pairwise_append.1 h.ordered
  obtain ⟨behind, ordered⟩ := List.pairwise_cons.1 ordered
  rcases List.mem_append.1 mem with earlier | mem
  · have order := across x earlier r List.mem_cons_self
    simp only [Run.Blocks, Run.Before] at blocks order
    omega
  rcases List.mem_cons.1 mem with rfl | later
  · simp only [Run.Blocks] at blocks
    omega
  cases after with
  | nil => simp at later
  | cons s after =>
    have order := behind x later
    refine ⟨s, rfl, ?_⟩
    rcases List.mem_cons.1 later with rfl | last
    · simp only [Run.Blocks, Run.Before] at blocks order
      omega
    · -- The next run is not empty, so what is behind it is not in the way.
      have next := behind s List.mem_cons_self
      have order := (List.pairwise_cons.1 ordered).1 x last
      have nonempty := h.nonempty s (by simp)
      simp only [Run.Blocks, Run.Before] at blocks next order
      omega

/-- A run that could grow to the left has the run before it right there in one of the texts. -/
theorem left (h : Maximal a b (before ++ r :: after)) {c : Char} (inFirst : 0 < r.a)
    (inSecond : 0 < r.b) (first : a[r.a - 1]? = some c) (second : b[r.b - 1]? = some c) :
    ∃ s, before.getLast? = some s ∧ (s.a + s.size = r.a ∨ s.b + s.size = r.b) := by
  obtain ⟨x, mem, blocks⟩ := h.full _ _ c first second
  obtain ⟨ordered, others, across⟩ := List.pairwise_append.1 h.ordered
  obtain ⟨behind, -⟩ := List.pairwise_cons.1 others
  rcases List.mem_append.1 mem with earlier | mem
  · have order := across x earlier r List.mem_cons_self
    rcases before.eq_nil_or_concat' with rfl | ⟨before, s, rfl⟩
    · simp at earlier
    refine ⟨s, by simp, ?_⟩
    rcases List.mem_append.1 earlier with earliest | last
    · have next := (List.pairwise_append.1 ordered).2.2 x earliest s (List.mem_singleton_self s)
      have order := across s (by simp) r List.mem_cons_self
      have nonempty := h.nonempty s (by simp)
      simp only [Run.Blocks, Run.Before] at blocks next order
      omega
    · obtain rfl := List.mem_singleton.1 last
      simp only [Run.Blocks, Run.Before] at blocks order
      omega
  rcases List.mem_cons.1 mem with rfl | later
  · simp only [Run.Blocks] at blocks
    omega
  · have order := behind x later
    have nonempty := h.nonempty r (by simp)
    simp only [Run.Blocks, Run.Before] at blocks order
    omega

end Maximal

/-- A run has one text. -/
theorem Run.Common.texts_eq (h : r.Common a b) :
    (a.drop r.a).take r.size = (b.drop r.b).take r.size := by
  apply List.ext_getElem?
  intro d
  by_cases hd : d < r.size
  · rw [List.getElem?_take_of_lt hd, List.getElem?_take_of_lt hd, List.getElem?_drop,
      List.getElem?_drop, h.equal d hd]
  · rw [List.getElem?_eq_none, List.getElem?_eq_none]
    · exact Nat.le_trans (List.length_take_le _ _) (Nat.le_of_not_lt hd)
    · exact Nat.le_trans (List.length_take_le _ _) (Nat.le_of_not_lt hd)

/-- A fragment is the text of a run, so it stands in both texts. -/
theorem infix_of_mem_fragments {f : List Char} (mem : f ∈ fragments a b) : f <:+: a ∧ f <:+: b := by
  obtain ⟨r, hr, rfl⟩ := List.mem_map.1 mem
  have part : ∀ cs : List Char, ∀ m n, (cs.drop m).take n <:+: cs := fun cs m n =>
    (List.take_prefix n _).isInfix.trans (List.drop_suffix m cs).isInfix
  refine ⟨part a _ _, ?_⟩
  rw [((maximal_runs a b).common r hr).texts_eq]
  exact part b _ _

end SheetCompiler.Alignment
