import SheetCompiler.Text.Split

/-!
# Aligning two texts

The runs of characters that two texts have in common: the longest one, and then those to the left
and to the right of it in both texts. Of several longest runs the first in the first text counts,
and of those the first in the second text. Runs that touch in both texts are one.
-/

namespace SheetCompiler.Alignment

/-- Equal characters from `a` on in the first text and from `b` on in the second. -/
structure Run where
  a : Nat
  b : Nat
  size : Nat
deriving DecidableEq, Repr

/-- The run moved to the right in both texts. -/
def Run.shift (r : Run) (a b : Nat) : Run := ⟨r.a + a, r.b + b, r.size⟩

/-- For each position of `b`, how long a run ends there and at the character `x`, given the
lengths for the character before `x`. -/
def nextRow (x : Char) (b : List Char) (row : List Nat) : List Nat :=
  List.zipWith (fun y k => if x = y then k + 1 else 0) b (0 :: row)

/-- The better of a run and those that end at character `i` of `a` and from `j` on in `b`. -/
def bestOfRow (i : Nat) : Nat → List Nat → Run → Run
  | _, [], best => best
  | j, k :: ks, best =>
    bestOfRow i (j + 1) ks (if best.size < k then ⟨i + 1 - k, j + 1 - k, k⟩ else best)

/-- The best of a run and those that end from character `i` on. -/
def bestFrom (b : List Char) : Nat → List Char → List Nat → Run → Run
  | _, [], _, best => best
  | i, x :: xs, row, best =>
    let row := nextRow x b row
    bestFrom b (i + 1) xs row (bestOfRow i 0 row best)

/-- The longest run, empty if no character is common. -/
def longest (a b : List Char) : Run :=
  bestFrom b 0 a (List.replicate b.length 0) ⟨0, 0, 0⟩

/-- The runs of two texts from left to right; the first argument bounds the nesting. -/
def runsWithin : Nat → List Char → List Char → List Run
  | 0, _, _ => []
  | fuel + 1, a, b =>
    let m := longest a b
    if m.size = 0 then []
    else
      let left := runsWithin fuel (a.take m.a) (b.take m.b)
      let right := runsWithin fuel (a.drop (m.a + m.size)) (b.drop (m.b + m.size))
      left ++ m :: right.map (·.shift (m.a + m.size) (m.b + m.size))

/-- Joins a run with those after it that touch it. -/
def mergeFrom (r : Run) : List Run → List Run
  | [] => [r]
  | s :: rest =>
    if r.a + r.size = s.a ∧ r.b + r.size = s.b then mergeFrom { r with size := r.size + s.size } rest
    else r :: mergeFrom s rest

/-- Joins runs that touch in both texts. -/
def merge : List Run → List Run
  | [] => []
  | r :: rest => mergeFrom r rest

/-- The runs that two texts have in common, from left to right. -/
def runs (a b : List Char) : List Run := merge (runsWithin (a.length + 1) a b)

/-- The texts of the common runs. -/
def fragments (a b : List Char) : List (List Char) :=
  (runs a b).map fun r => (a.drop r.a).take r.size

end SheetCompiler.Alignment
