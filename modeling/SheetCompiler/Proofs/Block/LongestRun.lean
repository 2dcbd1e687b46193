import SheetCompiler.Block.Alignment

/-!
# The longest run of two texts

`longest` goes through the first text and keeps, for each position of the second one, how long a run
ends there (`nextRow_rowAt`). So it meets every run at its end, and the one it keeps is a run of
both texts, at least as long as each that it meets and the first one of its length (`best_longest`).
-/

namespace SheetCompiler.Alignment

/-- The characters of the run are in both texts, and are the same ones. -/
structure Run.Common (a b : List Char) (r : Run) : Prop where
  inFirst : r.a + r.size ≤ a.length
  inSecond : r.b + r.size ≤ b.length
  equal : ∀ d < r.size, a[r.a + d]? = b[r.b + d]?

variable {a b : List Char} {r : Run}

theorem Run.common_of_size_eq_zero (size : r.size = 0) (inFirst : r.a ≤ a.length)
    (inSecond : r.b ≤ b.length) : r.Common a b :=
  ⟨by omega, by omega, fun d hd => by omega⟩

/-- A run and the same character after it in both texts make a longer run. -/
theorem Run.Common.extend (common : r.Common a b) {c : Char} (first : a[r.a + r.size]? = some c)
    (second : b[r.b + r.size]? = some c) : Run.Common a b { r with size := r.size + 1 } := by
  obtain ⟨inFirst, -⟩ := List.getElem?_eq_some_iff.1 first
  obtain ⟨inSecond, -⟩ := List.getElem?_eq_some_iff.1 second
  refine ⟨inFirst, inSecond, fun d hd => ?_⟩
  rcases Nat.lt_succ_iff_lt_or_eq.1 hd with before | rfl
  · exact common.equal d before
  · exact first.trans second.symm

/-! ### Runs that end at given positions -/

/-- The length of the longest run that ends before position `i` of the first text and before
position `j` of the second one. -/
def endingAt (a b : List Char) : Nat → Nat → Nat
  | i + 1, j + 1 => if a[i]? = b[j]? then endingAt a b i j + 1 else 0
  | _, _ => 0

theorem endingAt_zero_left (j : Nat) : endingAt a b 0 j = 0 := by simp [endingAt]

theorem endingAt_zero_right (i : Nat) : endingAt a b i 0 = 0 := by cases i <;> simp [endingAt]

/-- A run is not longer than what stands before its end in either text. -/
theorem endingAt_le (i j : Nat) : endingAt a b i j ≤ i ∧ endingAt a b i j ≤ j := by
  fun_induction endingAt a b i j with
  | case1 i j _ ih => omega
  | case2 => omega
  | case3 => omega

/-- The run that ends at two positions is a common one, by induction on both of them. -/
theorem common_endingAt {i j : Nat} (hi : i ≤ a.length) (hj : j ≤ b.length) :
    Run.Common a b ⟨i - endingAt a b i j, j - endingAt a b i j, endingAt a b i j⟩ := by
  fun_induction endingAt a b i j with
  | case1 i j same ih =>
    have bounds := endingAt_le (a := a) (b := b) i j
    have shorter := ih (by omega) (by omega)
    have ends : i - endingAt a b i j + endingAt a b i j = i ∧
        j - endingAt a b i j + endingAt a b i j = j := by omega
    have last : a[i]? = some a[i] := List.getElem?_eq_getElem (by omega)
    have longer := shorter.extend (c := a[i]) (by simp [ends.1])
      (by rw [ends.2, ← same, last])
    simpa [Nat.add_sub_add_right] using longer
  | case2 => exact Run.common_of_size_eq_zero rfl hi hj
  | case3 => exact Run.common_of_size_eq_zero rfl hi hj

/-- The lengths of the runs that end before position `i` of the first text. -/
def rowAt (a b : List Char) (i : Nat) : List Nat :=
  (List.range b.length).map fun j => endingAt a b i (j + 1)

@[simp] theorem length_rowAt (i : Nat) : (rowAt a b i).length = b.length := by simp [rowAt]

theorem getElem?_rowAt {i j : Nat} (hj : j < b.length) :
    (rowAt a b i)[j]? = some (endingAt a b i (j + 1)) := by
  simp [rowAt, hj]

/-- One more character of the first text turns a row into the next one. -/
theorem nextRow_rowAt {i : Nat} {x : Char} (here : a[i]? = some x) :
    nextRow x b (rowAt a b i) = rowAt a b (i + 1) := by
  apply List.ext_getElem?
  intro j
  by_cases hj : j < b.length
  · have before : (0 :: rowAt a b i)[j]? = some (endingAt a b i j) := by
      cases j with
      | zero => simp [endingAt_zero_right]
      | succ j => exact getElem?_rowAt (by omega)
    rw [getElem?_rowAt hj, nextRow, List.getElem?_zipWith, List.getElem?_eq_getElem hj, before,
      endingAt, here, List.getElem?_eq_getElem hj]
    simp
  · have short : b.length ≤ j := by omega
    simp [nextRow, short]

theorem rowAt_zero (a b : List Char) : rowAt a b 0 = List.replicate b.length 0 := by
  apply List.ext_getElem <;> simp [rowAt, endingAt_zero_left]

/-! ### The best run -/

theorem forall_lt_succ_getElem?_ne {k k' : Nat} {ks : List Nat} {d : Nat} (ne : k ≠ k')
    (earlier : ∀ e < d, ks[e]? ≠ some k') : ∀ e < d + 1, (k :: ks)[e]? ≠ some k' := by
  intro e he
  cases e with
  | zero => simpa using ne
  | succ e => exact earlier e (Nat.lt_of_succ_lt_succ he)

/-- Going along a row, the best run so far stays or gives way to a longer one that ends in the
row, the first one of its length. -/
theorem bestOfRow_cases (i j : Nat) (ks : List Nat) (best : Run) :
    best.size ≤ (bestOfRow i j ks best).size ∧ (∀ k ∈ ks, k ≤ (bestOfRow i j ks best).size) ∧
    (bestOfRow i j ks best = best ∨ ∃ d k, ks[d]? = some k ∧
      bestOfRow i j ks best = ⟨i + 1 - k, j + d + 1 - k, k⟩ ∧ best.size < k ∧
      ∀ e < d, ks[e]? ≠ some k) := by
  induction ks generalizing j best with
  | nil => exact ⟨Nat.le_refl _, nofun, .inl rfl⟩
  | cons k ks ih =>
    rw [bestOfRow]
    obtain ⟨longer, least, cases⟩ :=
      ih (j + 1) (if best.size < k then ⟨i + 1 - k, j + 1 - k, k⟩ else best)
    split at longer
    next better =>
      simp only [better, if_true] at cases least longer ⊢
      refine ⟨by omega, List.forall_mem_cons.2 ⟨longer, least⟩, .inr ?_⟩
      rcases cases with eq | ⟨d, k', hd, eq, longest, earlier⟩
      · exact ⟨0, k, rfl, eq, better, by simp⟩
      · refine ⟨d + 1, k', hd, by rw [eq, Nat.add_assoc j 1 d, Nat.add_comm 1 d], by omega, ?_⟩
        exact forall_lt_succ_getElem?_ne (Nat.ne_of_lt longest) earlier
    next worse =>
      simp only [worse, if_false] at cases least ⊢
      refine ⟨longer, List.forall_mem_cons.2 ⟨by omega, least⟩, cases.imp_right ?_⟩
      rintro ⟨d, k', hd, eq, longest, earlier⟩
      refine ⟨d + 1, k', hd, by rw [eq, Nat.add_assoc j 1 d, Nat.add_comm 1 d], longest, ?_⟩
      exact forall_lt_succ_getElem?_ne (by omega) earlier

/-- A run of both texts within the first `n` characters of the first one, at least as long as each
that ends there, and before all others of its length. -/
structure Best (a b : List Char) (n : Nat) (r : Run) : Prop where
  common : r.Common a b
  ended : r.a + r.size ≤ n
  most : ∀ i j, i ≤ n → j ≤ b.length → endingAt a b i j ≤ r.size
  first : ∀ i j, i ≤ n → j ≤ b.length → endingAt a b i j = r.size →
    r.a < i - r.size ∨ r.a = i - r.size ∧ r.b ≤ j - r.size

/-- The step. A row holds the runs that end at the next character of the first text, so the best run
of the row is compared with the best one so far. It replaces that one only if it is longer, which
keeps the first one of its length. -/
theorem Best.next {n : Nat} (best : Best a b n r) (hn : n < a.length) :
    Best a b (n + 1) (bestOfRow n 0 (rowAt a b (n + 1)) r) := by
  obtain ⟨longer, least, cases⟩ := bestOfRow_cases n 0 (rowAt a b (n + 1)) r
  have most : ∀ i j, i ≤ n + 1 → j ≤ b.length →
      endingAt a b i j ≤ (bestOfRow n 0 (rowAt a b (n + 1)) r).size := by
    intro i j hi hj
    rcases Nat.lt_succ_iff_lt_or_eq.1 (Nat.lt_succ_of_le hi) with before | rfl
    · exact Nat.le_trans (best.most i j (by omega) hj) longer
    · cases j with
      | zero => simp [endingAt_zero_right]
      | succ j => exact least _ (List.mem_of_getElem? (getElem?_rowAt hj))
  have ended := best.ended
  rcases cases with eq | ⟨d, k, hd, eq, better, earlier⟩
  · rw [eq] at most ⊢
    refine ⟨best.common, by omega, most, fun i j hi hj same => ?_⟩
    rcases Nat.lt_succ_iff_lt_or_eq.1 (Nat.lt_succ_of_le hi) with before | rfl
    · exact best.first i j (by omega) hj same
    · omega
  · have inside : d < b.length := by simpa using (List.getElem?_eq_some_iff.1 hd).1
    obtain rfl : k = endingAt a b (n + 1) (d + 1) :=
      Option.some.inj (hd.symm.trans (getElem?_rowAt inside))
    have bounds := endingAt_le (a := a) (b := b) (n + 1) (d + 1)
    rw [eq, Nat.zero_add] at most ⊢
    refine ⟨common_endingAt hn inside, by dsimp only; omega, most, fun i j hi hj same => ?_⟩
    dsimp only at same ⊢
    rcases Nat.lt_succ_iff_lt_or_eq.1 (Nat.lt_succ_of_le hi) with before | rfl
    · have shorter := best.most i j (by omega) hj
      omega
    · -- The run that is kept is the first of its length in the row.
      cases j with
      | zero => simp only [endingAt_zero_right] at same; omega
      | succ j =>
        have notEarlier : ¬j < d := fun before =>
          earlier j before (same ▸ getElem?_rowAt hj)
        omega

/-- The run over the rest of the first text, row after row. -/
theorem best_bestFrom {xs : List Char} {n : Nat} {best : Run} (rest : a.drop n = xs)
    (known : Best a b n best) : Best a b a.length (bestFrom b n xs (rowAt a b n) best) := by
  induction xs generalizing n best with
  | nil =>
    have short : a.length ≤ n := List.drop_eq_nil_iff.1 rest
    exact ⟨known.common, known.common.inFirst, fun i j hi hj => known.most i j (by omega) hj,
      fun i j hi hj => known.first i j (by omega) hj⟩
  | cons x xs ih =>
    have here : a[n]? = some x := by rw [← Nat.add_zero n, ← List.getElem?_drop, rest]; rfl
    have inside : n < a.length := (List.getElem?_eq_some_iff.1 here).1
    rw [bestFrom, nextRow_rowAt here]
    refine ih ?_ (known.next inside)
    rw [← List.drop_drop, rest, List.drop_one, List.tail_cons]

/-- The run that is found is the best one of the whole texts. -/
theorem best_longest (a b : List Char) : Best a b a.length (longest a b) := by
  have start : Best a b 0 ⟨0, 0, 0⟩ := by
    refine ⟨Run.common_of_size_eq_zero rfl (Nat.zero_le _) (Nat.zero_le _), Nat.le_refl 0,
      fun i j hi hj => ?_, fun i j hi hj _ => ?_⟩
    · have none : endingAt a b i j = 0 := by rw [Nat.le_zero.1 hi, endingAt_zero_left]
      exact Nat.le_of_eq none
    · dsimp only
      omega
  rw [longest, ← rowAt_zero a b]
  exact best_bestFrom rfl start

theorem common_longest (a b : List Char) : (longest a b).Common a b := (best_longest a b).common

/-- Where a run ends, no shorter one is the longest that ends there. -/
theorem Run.Common.size_le_endingAt (common : r.Common a b) :
    r.size ≤ endingAt a b (r.a + r.size) (r.b + r.size) := by
  have upTo : ∀ d ≤ r.size, d ≤ endingAt a b (r.a + d) (r.b + d) := by
    intro d hd
    induction d with
    | zero => exact Nat.zero_le _
    | succ d ih =>
      rw [← Nat.add_assoc, ← Nat.add_assoc, endingAt, if_pos (common.equal d hd)]
      exact Nat.succ_le_succ (ih (Nat.le_of_succ_le hd))
  exact upTo r.size (Nat.le_refl _)

/-- No common run is longer than the longest. -/
theorem size_le_longest (common : r.Common a b) : r.size ≤ (longest a b).size :=
  Nat.le_trans common.size_le_endingAt
    ((best_longest a b).most _ _ common.inFirst common.inSecond)

/-- Of the runs of its length, the longest run starts first in the first text, and of those first in
the second one. -/
theorem longest_first (common : r.Common a b) (same : r.size = (longest a b).size) :
    (longest a b).a < r.a ∨ (longest a b).a = r.a ∧ (longest a b).b ≤ r.b := by
  have most := (best_longest a b).most _ _ common.inFirst common.inSecond
  have ends : endingAt a b (r.a + r.size) (r.b + r.size) = (longest a b).size :=
    Nat.le_antisymm most (same ▸ common.size_le_endingAt)
  have first := (best_longest a b).first _ _ common.inFirst common.inSecond ends
  omega

/-- The longest run is empty only if no character is common. -/
theorem ne_of_longest_eq_zero (none : (longest a b).size = 0) {i j : Nat} {c : Char}
    (first : a[i]? = some c) : b[j]? ≠ some c := by
  intro second
  have hi := (List.getElem?_eq_some_iff.1 first).1
  have hj := (List.getElem?_eq_some_iff.1 second).1
  have most := (best_longest a b).most (i + 1) (j + 1) hi hj
  rw [endingAt, if_pos (first.trans second.symm)] at most
  omega

/-- There is no run exactly if the texts have no character in common. -/
theorem longest_size_eq_zero_iff : (longest a b).size = 0 ↔ ∀ c ∈ a, c ∉ b := by
  constructor
  · intro none c first second
    obtain ⟨i, hi⟩ := List.mem_iff_getElem?.1 first
    obtain ⟨j, hj⟩ := List.mem_iff_getElem?.1 second
    exact ne_of_longest_eq_zero none hi hj
  · intro apart
    refine (Nat.eq_zero_or_pos _).resolve_right fun nonempty => ?_
    have common := common_longest a b
    have inside : (longest a b).a < a.length := by
      have inFirst := common.inFirst
      omega
    have here : a[(longest a b).a]? = some a[(longest a b).a] := List.getElem?_eq_getElem inside
    have there := (common.equal 0 nonempty).symm.trans here
    exact apart _ (List.mem_of_getElem? here) (List.mem_of_getElem? there)

end SheetCompiler.Alignment
