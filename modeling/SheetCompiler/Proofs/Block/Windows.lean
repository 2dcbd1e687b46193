import Mathlib.Data.List.Nodup
import SheetCompiler.Proofs.Block.MaximalAlignment

/-!
# A worklist of windows

The runs of two texts can be found with a worklist instead of a recursion. Its items are windows, a
stretch of each text; a turn takes one of them off, looks for its longest run and puts what is left
and right of the run on the list. The windows shrink, so the list is empty in the end
(`Search.windows_turns`). The runs come in the order of the turns, but sorted they are those of the
recursion (`Search.sorted_found`). The longest run of a window is the first one of its length
(`Window.longest_earliest`).
-/

namespace SheetCompiler.Alignment

/-- A stretch of a text. -/
structure Span where
  start : Nat
  stop : Nat
deriving DecidableEq, Repr

def Span.text (s : Span) (cs : List Char) : List Char := (cs.take s.stop).drop s.start

/-- A stretch of each of two texts. -/
structure Window where
  a : Span
  b : Span
deriving DecidableEq, Repr

namespace Window

/-- There is something of both texts in the window. -/
def Open (w : Window) : Prop := w.a.start < w.a.stop ∧ w.b.start < w.b.stop

instance (w : Window) : Decidable w.Open := inferInstanceAs (Decidable (_ ∧ _))

/-- The longest run of the window. -/
def longest (w : Window) (a b : List Char) : Run :=
  (Alignment.longest (w.a.text a) (w.b.text b)).shift w.a.start w.b.start

/-- What is left of a run in both texts. -/
def left (w : Window) (m : Run) : Window := ⟨{ w.a with stop := m.a }, { w.b with stop := m.b }⟩

/-- What is right of a run in both texts. -/
def right (w : Window) (m : Run) : Window :=
  ⟨{ w.a with start := m.a + m.size }, { w.b with start := m.b + m.size }⟩

end Window

/-- The windows to look at and the runs found so far. -/
structure Search where
  windows : List Window
  found : List Run := []

namespace Search

/-- Looks at the first window. -/
def turn (a b : List Char) (s : Search) : Search :=
  match s.windows with
  | [] => s
  | w :: rest =>
    let m := w.longest a b
    if m.size = 0 then { s with windows := rest }
    else
      { windows := [w.right m, w.left m].filter (decide ·.Open) ++ rest
        found := s.found ++ [m] }

def turns (a b : List Char) : Nat → Search → Search
  | 0, s => s
  | n + 1, s => turns a b n (s.turn a b)

/-- The search through two whole texts. -/
def start (a b : List Char) : Search where
  windows := [⟨⟨0, a.length⟩, ⟨0, b.length⟩⟩]

end Search

/-- By the start in the first text, then by that in the second one. -/
def Run.notAfter (r s : Run) : Bool := r.a < s.a || r.a == s.a && r.b ≤ s.b

theorem Run.notAfter_iff {r s : Run} : r.notAfter s ↔ r.a < s.a ∨ r.a = s.a ∧ r.b ≤ s.b := by
  simp [notAfter]

/-! ### The recursion -/

section

variable {a b : List Char}

/-- More turns than the first text has characters change nothing: each turn leaves less of it on
either side. -/
theorem runsWithin_congr {fuel fuel' : Nat} (enough : a.length < fuel)
    (enough' : a.length < fuel') : runsWithin fuel a b = runsWithin fuel' a b := by
  induction fuel generalizing fuel' a b with
  | zero => omega
  | succ fuel ih =>
    cases fuel' with
    | zero => omega
    | succ fuel' =>
      have inside := (common_longest a b).inFirst
      rw [runsWithin, runsWithin]
      split
      next => rfl
      next some =>
        have left : (a.take (longest a b).a).length < fuel ∧
            (a.take (longest a b).a).length < fuel' := by
          rw [List.length_take]
          omega
        have right : (a.drop ((longest a b).a + (longest a b).size)).length < fuel ∧
            (a.drop ((longest a b).a + (longest a b).size)).length < fuel' := by
          rw [List.length_drop]
          omega
        rw [ih left.1 left.2, ih right.1 right.2]

/-- All runs of two texts, those that touch not yet joined. -/
def allRuns (a b : List Char) : List Run := runsWithin (a.length + 1) a b

theorem allRuns_of_none (none : (longest a b).size = 0) : allRuns a b = [] := by
  rw [allRuns, runsWithin]
  simp [none]

/-- The recursion, with as many turns for each part as it needs. -/
theorem allRuns_of_some (some : (longest a b).size ≠ 0) :
    allRuns a b = allRuns (a.take (longest a b).a) (b.take (longest a b).b) ++ longest a b ::
      (allRuns (a.drop ((longest a b).a + (longest a b).size))
        (b.drop ((longest a b).b + (longest a b).size))).map
          (·.shift ((longest a b).a + (longest a b).size)
            ((longest a b).b + (longest a b).size)) := by
  have inside := (common_longest a b).inFirst
  have left : runsWithin a.length (a.take (longest a b).a) (b.take (longest a b).b) =
      allRuns (a.take (longest a b).a) (b.take (longest a b).b) := by
    refine runsWithin_congr ?_ (Nat.lt_succ_self _)
    rw [List.length_take]
    omega
  have right : runsWithin a.length (a.drop ((longest a b).a + (longest a b).size))
        (b.drop ((longest a b).b + (longest a b).size)) =
      allRuns (a.drop ((longest a b).a + (longest a b).size))
        (b.drop ((longest a b).b + (longest a b).size)) := by
    refine runsWithin_congr ?_ (Nat.lt_succ_self _)
    rw [List.length_drop]
    omega
  rw [← left, ← right, allRuns, runsWithin, if_neg some]

end

/-! ### Windows -/

namespace Span

theorem length_text (s : Span) (cs : List Char) :
    (s.text cs).length = min s.stop cs.length - s.start := by
  simp [text]

theorem getElem?_text {s : Span} {d : Nat} (inside : s.start + d < s.stop) (cs : List Char) :
    (s.text cs)[d]? = cs[s.start + d]? := by
  rw [text, List.getElem?_drop, List.getElem?_take_of_lt inside]

/-- The front of a stretch is the front of its text. -/
theorem text_before {s : Span} {k : Nat} (inside : k + s.start ≤ s.stop) (cs : List Char) :
    text { s with stop := k + s.start } cs = (s.text cs).take k := by
  rw [text, text, List.take_drop, List.take_take, Nat.add_comm s.start k, Nat.min_eq_left inside]

/-- What is behind a place in a stretch is behind it in its text. -/
theorem text_behind (s : Span) (k : Nat) (cs : List Char) :
    text { s with start := k + s.start } cs = (s.text cs).drop k := by
  rw [text, text, List.drop_drop, Nat.add_comm]

end Span

namespace Window

variable {w : Window} {a b : List Char}

/-- The runs of the window. -/
def runs (w : Window) (a b : List Char) : List Run :=
  (allRuns (w.a.text a) (w.b.text b)).map (·.shift w.a.start w.b.start)

/-- The longest run is in the window. -/
theorem longest_inside (w : Window) (a b : List Char) :
    w.a.start ≤ (w.longest a b).a ∧ w.b.start ≤ (w.longest a b).b ∧
    ((w.longest a b).size ≠ 0 → (w.longest a b).a + (w.longest a b).size ≤ w.a.stop ∧
      (w.longest a b).b + (w.longest a b).size ≤ w.b.stop) := by
  have common := common_longest (w.a.text a) (w.b.text b)
  have inFirst := common.inFirst
  have inSecond := common.inSecond
  rw [Span.length_text] at inFirst inSecond
  simp only [longest, Run.shift]
  omega

theorem runs_of_none (none : (w.longest a b).size = 0) : w.runs a b = [] := by
  rw [runs, allRuns_of_none none, List.map_nil]

/-- A window that lacks one of the texts has no run. -/
theorem runs_of_not_open (closed : ¬w.Open) : w.runs a b = [] := by
  refine runs_of_none ?_
  have inside := w.longest_inside a b
  rw [Open] at closed
  omega

/-- The runs of a window are those of its left part, its longest run, and those of its right
part. -/
theorem runs_of_some (some : (w.longest a b).size ≠ 0) :
    w.runs a b = (w.left (w.longest a b)).runs a b ++ w.longest a b ::
      (w.right (w.longest a b)).runs a b := by
  obtain ⟨-, -, inside⟩ := w.longest_inside a b
  obtain ⟨endFirst, endSecond⟩ := inside some
  rw [longest] at some endFirst endSecond ⊢
  generalize eq : Alignment.longest (w.a.text a) (w.b.text b) = m at some endFirst endSecond ⊢
  dsimp only [Run.shift] at some endFirst endSecond
  have before : (w.left (m.shift w.a.start w.b.start)).runs a b =
      (allRuns ((w.a.text a).take m.a) ((w.b.text b).take m.b)).map
        (·.shift w.a.start w.b.start) := by
    rw [← Span.text_before (by omega), ← Span.text_before (by omega)]
    rfl
  have behind : (w.right (m.shift w.a.start w.b.start)).runs a b =
      (allRuns ((w.a.text a).drop (m.a + m.size)) ((w.b.text b).drop (m.b + m.size))).map
        (·.shift (m.a + m.size + w.a.start) (m.b + m.size + w.b.start)) := by
    rw [← Span.text_behind, ← Span.text_behind, Nat.add_right_comm m.a, Nat.add_right_comm m.b]
    rfl
  have shifts : (fun r : Run => r.shift w.a.start w.b.start) ∘
      (fun r : Run => r.shift (m.a + m.size) (m.b + m.size)) =
      fun r : Run => r.shift (m.a + m.size + w.a.start) (m.b + m.size + w.b.start) := by
    funext r
    simp only [Function.comp_apply, Run.shift, Nat.add_assoc]
  rw [before, behind, runs, allRuns_of_some (by rwa [eq]), eq, List.map_append, List.map_cons,
    List.map_map, shifts]

end Window

/-! ### The worklist ends -/

namespace Search

/-- A bound on the turns that windows take. -/
def effort : List Window → Nat
  | [] => 0
  | w :: ws => 2 * (w.a.stop - w.a.start) + 1 + effort ws

theorem effort_append (ws vs : List Window) : effort (ws ++ vs) = effort ws + effort vs := by
  induction ws with
  | nil => simp [effort]
  | cons w ws ih =>
    rw [List.cons_append, effort, effort, ih]
    omega

theorem effort_filter_le (p : Window → Bool) (ws : List Window) :
    effort (ws.filter p) ≤ effort ws := by
  induction ws with
  | nil => simp
  | cons w ws ih =>
    rw [List.filter_cons]
    split <;> simp only [effort] <;> omega

variable {a b : List Char} {s : Search}

/-- Of a window with a run, less is left than there was. -/
theorem effort_turn (some : s.windows ≠ []) : effort (s.turn a b).windows < effort s.windows := by
  obtain ⟨w, rest, eq⟩ := List.exists_cons_of_ne_nil some
  rw [turn, eq]
  dsimp only
  split
  next =>
    simp only [effort]
    omega
  next some =>
    have inside := w.longest_inside a b
    have le := effort_filter_le (decide ·.Open) [w.right (w.longest a b), w.left (w.longest a b)]
    rw [effort_append]
    simp only [effort, Window.right, Window.left] at le ⊢
    omega

/-- By induction on the turns: each of them makes the effort smaller, until no window is left. -/
theorem windows_turns {n : Nat} (enough : effort s.windows ≤ n) : (turns a b n s).windows = [] := by
  induction n generalizing s with
  | zero =>
    cases eq : s.windows with
    | nil => exact eq
    | cons w rest =>
      rw [eq, effort] at enough
      omega
  | succ n ih =>
    rw [turns]
    by_cases done : s.windows = []
    · refine ih ?_
      simp [turn, done, effort]
    · refine ih ?_
      have less := effort_turn (a := a) (b := b) done
      omega

/-! ### What is found -/

/-- The runs found and those still to be found. -/
def outlook (a b : List Char) (s : Search) : List Run := s.found ++ s.windows.flatMap (·.runs a b)

/-- Windows that are dropped have no run. -/
theorem runs_filter_open (ws : List Window) :
    (ws.filter (decide ·.Open)).flatMap (·.runs a b) = ws.flatMap (·.runs a b) := by
  induction ws with
  | nil => rfl
  | cons w ws ih =>
    by_cases isOpen : w.Open
    · simp [isOpen, ih]
    · simp [isOpen, ih, Window.runs_of_not_open isOpen]

/-- The step: a turn moves one run from those to be found to those found. -/
theorem outlook_turn : ((s.turn a b).outlook a b).Perm (s.outlook a b) := by
  cases eq : s.windows with
  | nil => simp [turn, eq]
  | cons w rest =>
    rw [turn, eq]
    dsimp only
    split
    next none => simp [outlook, eq, Window.runs_of_none none]
    next some =>
      simp only [outlook, eq, List.flatMap_append, runs_filter_open, List.flatMap_cons,
        Window.runs_of_some some, List.flatMap_nil, List.append_nil, List.append_assoc,
        List.cons_append, List.nil_append]
      refine .append_left _ (.trans (.cons _ ?_) List.perm_middle.symm)
      exact List.perm_append_comm_assoc _ _ _

/-- The run over several turns. -/
theorem outlook_turns (n : Nat) : ((turns a b n s).outlook a b).Perm (s.outlook a b) := by
  induction n generalizing s with
  | zero => exact .refl _
  | succ n ih => exact ih.trans outlook_turn

theorem outlook_start (a b : List Char) : (start a b).outlook a b = allRuns a b := by
  have whole : ∀ cs : List Char, Span.text ⟨0, cs.length⟩ cs = cs := fun cs => by simp [Span.text]
  have still : (fun r : Run => r.shift 0 0) = id := rfl
  rw [outlook, start, List.nil_append, List.flatMap_singleton, Window.runs, whole, whole, still,
    List.map_id]

/-- After so many turns all runs are found, in whatever order. -/
theorem perm_found {n : Nat} (enough : 2 * a.length + 1 ≤ n) :
    (turns a b n (start a b)).found.Perm (allRuns a b) := by
  have done : (turns a b n (start a b)).windows = [] :=
    windows_turns (by simpa [start, effort] using enough)
  have perm := outlook_turns (a := a) (b := b) (s := start a b) n
  rwa [outlook, done, List.flatMap_nil, List.append_nil, outlook_start] at perm

/-- Sorted by their starts, the runs found are those of the recursion. -/
theorem sorted_found {n : Nat} (enough : 2 * a.length + 1 ≤ n) :
    (turns a b n (start a b)).found.mergeSort Run.notAfter = allRuns a b := by
  have maximal : Maximal a b (allRuns a b) := maximal_runsWithin (Nat.lt_succ_self _)
  have increasing : (allRuns a b).Pairwise fun r s => r.a < s.a := by
    refine maximal.ordered.imp_of_mem fun {r s} hr _ before => ?_
    have nonempty := maximal.nonempty r hr
    have ends := before.1
    omega
  have starts : ((allRuns a b).map (·.a)).Nodup :=
    List.pairwise_map.2 (increasing.imp fun less => Nat.ne_of_lt less)
  have perm := (List.mergeSort_perm _ Run.notAfter).trans (perm_found (b := b) enough)
  refine perm.eq_of_pairwise (fun r s hr hs le ge => ?_) (List.pairwise_mergeSort ?_ ?_ _)
    (increasing.imp fun less => Run.notAfter_iff.2 (.inl less))
  · rw [Run.notAfter_iff] at le ge
    exact List.inj_on_of_nodup_map starts (perm.mem_iff.1 hr) hs (by omega)
  · intro r s t rs st
    rw [Run.notAfter_iff] at rs st ⊢
    omega
  · intro r s
    rw [Bool.or_eq_true, Run.notAfter_iff, Run.notAfter_iff]
    omega

end Search

/-! ### The longest run of a window -/

namespace Window

variable {w : Window} {a b : List Char} {r : Run}

/-- The window is a part of both texts. -/
structure Within (w : Window) (a b : List Char) : Prop where
  inFirst : w.a.start ≤ w.a.stop ∧ w.a.stop ≤ a.length
  inSecond : w.b.start ≤ w.b.stop ∧ w.b.stop ≤ b.length

/-- The run lies in the window. -/
structure Holds (w : Window) (r : Run) : Prop where
  inFirst : w.a.start ≤ r.a ∧ r.a + r.size ≤ w.a.stop
  inSecond : w.b.start ≤ r.b ∧ r.b + r.size ≤ w.b.stop

/-- The runs of the two stretches, seen from the starts of the texts, are the runs in the window. -/
theorem common_text_iff (within : w.Within a b) : r.Common (w.a.text a) (w.b.text b) ↔
    w.Holds (r.shift w.a.start w.b.start) ∧ (r.shift w.a.start w.b.start).Common a b := by
  obtain ⟨inFirst, inSecond⟩ := within
  have first : (w.a.text a).length = w.a.stop - w.a.start := by rw [Span.length_text]; omega
  have second : (w.b.text b).length = w.b.stop - w.b.start := by rw [Span.length_text]; omega
  have look : ∀ d, r.a + d < w.a.stop - w.a.start → r.b + d < w.b.stop - w.b.start →
      ((w.a.text a)[r.a + d]? = (w.b.text b)[r.b + d]? ↔
        a[r.a + w.a.start + d]? = b[r.b + w.b.start + d]?) := by
    intro d ha hb
    rw [Span.getElem?_text (by omega), Span.getElem?_text (by omega), Nat.add_left_comm,
      Nat.add_left_comm w.b.start, Nat.add_assoc r.a, Nat.add_assoc r.b]
  constructor
  · rintro ⟨endFirst, endSecond, equal⟩
    rw [first] at endFirst
    rw [second] at endSecond
    have held : w.Holds (r.shift w.a.start w.b.start) := by
      constructor <;> simp only [Run.shift] <;> omega
    refine ⟨held, Nat.le_trans held.inFirst.2 inFirst.2, Nat.le_trans held.inSecond.2 inSecond.2, ?_⟩
    exact fun d (hd : d < r.size) => (look d (by omega) (by omega)).1 (equal d hd)
  · rintro ⟨⟨⟨-, endFirst⟩, -, endSecond⟩, -, -, equal⟩
    simp only [Run.shift] at endFirst endSecond equal
    refine ⟨by omega, by omega, fun d hd => ?_⟩
    exact (look d (by omega) (by omega)).2 (equal d hd)

/-- A run in the window, seen from its start. -/
theorem exists_eq_shift (held : w.Holds r) : ∃ s : Run, r = s.shift w.a.start w.b.start := by
  refine ⟨⟨r.a - w.a.start, r.b - w.b.start, r.size⟩, ?_⟩
  rw [Run.shift, Nat.sub_add_cancel held.inFirst.1, Nat.sub_add_cancel held.inSecond.1]

/-- The run that is found in a window is one of both texts and lies in the window. No run there is
longer, and of those of its length it starts first in the first text, and of these first in the
second one. It is empty exactly if no character is common to the two stretches. -/
theorem longest_earliest (within : w.Within a b) :
    w.Holds (w.longest a b) ∧ (w.longest a b).Common a b ∧
    (∀ r, w.Holds r → r.Common a b → r.size ≤ (w.longest a b).size ∧
      (r.size = (w.longest a b).size → (w.longest a b).a < r.a ∨
        (w.longest a b).a = r.a ∧ (w.longest a b).b ≤ r.b)) ∧
    ((w.longest a b).size = 0 ↔ ∀ c ∈ w.a.text a, c ∉ w.b.text b) := by
  obtain ⟨held, common⟩ := (common_text_iff within).1 (common_longest (w.a.text a) (w.b.text b))
  refine ⟨held, common, fun r heldToo commonToo => ?_, ?_⟩
  · obtain ⟨s, rfl⟩ := exists_eq_shift heldToo
    have inside := (common_text_iff within).2 ⟨heldToo, commonToo⟩
    have shorter := size_le_longest inside
    refine ⟨shorter, fun same => ?_⟩
    have first := longest_first inside same
    simp only [longest, Run.shift]
    omega
  · exact longest_size_eq_zero_iff

/-- In the window the run `ab` stands twice in both texts, and `=ab` only outside of it. -/
theorem longest_earliest_repeated :
    Within ⟨⟨1, 7⟩, ⟨0, 6⟩⟩ "=ab-xab=ab".toList "*ab+ab=ab".toList ∧
    (Window.longest ⟨⟨1, 7⟩, ⟨0, 6⟩⟩ "=ab-xab=ab".toList "*ab+ab=ab".toList) = ⟨1, 1, 2⟩ ∧
    ∀ r, Holds ⟨⟨1, 7⟩, ⟨0, 6⟩⟩ r → r.Common "=ab-xab=ab".toList "*ab+ab=ab".toList →
      r.size ≤ 2 ∧ (r.size = 2 → 1 < r.a ∨ 1 = r.a ∧ 1 ≤ r.b) := by
  have within : Within ⟨⟨1, 7⟩, ⟨0, 6⟩⟩ "=ab-xab=ab".toList "*ab+ab=ab".toList :=
    ⟨by decide, by decide⟩
  have found : Window.longest ⟨⟨1, 7⟩, ⟨0, 6⟩⟩ "=ab-xab=ab".toList "*ab+ab=ab".toList = ⟨1, 1, 2⟩ := by
    decide +kernel
  obtain ⟨-, -, most, -⟩ := longest_earliest within
  rw [found] at most
  exact ⟨within, found, most⟩

end Window

end SheetCompiler.Alignment
