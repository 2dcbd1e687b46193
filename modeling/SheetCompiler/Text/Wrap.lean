import SheetCompiler.Text.Bytes
import SheetCompiler.Text.Split

/-!
# Wrapping at spaces

A text is cut into pieces at spaces so that each piece fits a width, if it can. A space at a cut
is dropped, so the pieces joined by single spaces are the text again. A piece is as long as the
width allows; a word that does not fit stands alone. A space at the very front of what is left
ends the wrapping.
-/

namespace SheetCompiler.Text

/-- The parts before and after the space to cut at: the last one that leaves at most `width`
characters before it, or else the first one. -/
def cutForWidth (width : Nat) (cs : List Char) : Option (List Char × List Char) :=
  match cutLast ' ' (cs.take (width + 1)) with
  | some (before, after) => some (before, after ++ cs.drop (width + 1))
  | none => cutFirst ' ' cs

/-- A cut with something before it. -/
def nextPiece (width : Nat) (cs : List Char) : Option (List Char × List Char) :=
  (cutForWidth width cs).filter fun (before, _) => !before.isEmpty

theorem cutFirst_eq_append {sep : Char} {cs before after : List Char}
    (h : cutFirst sep cs = some (before, after)) : cs = before ++ sep :: after := by
  induction cs generalizing before with
  | nil => simp [cutFirst] at h
  | cons c cs ih =>
    rw [cutFirst] at h
    split at h
    · simp_all
    · obtain ⟨p, hp, hq⟩ := Option.map_eq_some_iff.1 h
      obtain ⟨rfl, rfl⟩ := Prod.mk.inj hq
      simp [← ih hp]

theorem cutLast_eq_append {sep : Char} {cs before after : List Char}
    (h : cutLast sep cs = some (before, after)) : cs = before ++ sep :: after := by
  induction cs generalizing before after with
  | nil => simp [cutLast] at h
  | cons c cs ih =>
    rw [cutLast] at h
    split at h
    · rename_i hcut
      obtain ⟨rfl, rfl⟩ := Prod.mk.inj (Option.some.inj h)
      simp [← ih hcut]
    · split at h <;> simp_all

theorem cutForWidth_eq_append {width : Nat} {cs before after : List Char}
    (h : cutForWidth width cs = some (before, after)) : cs = before ++ ' ' :: after := by
  rw [cutForWidth] at h
  split at h
  · rename_i hcut
    obtain ⟨rfl, rfl⟩ := Prod.mk.inj (Option.some.inj h)
    have := cutLast_eq_append hcut
    calc cs = cs.take (width + 1) ++ cs.drop (width + 1) := by simp
      _ = _ := by rw [this]; simp
  · exact cutFirst_eq_append h

theorem nextPiece_eq_append {width : Nat} {cs before after : List Char}
    (h : nextPiece width cs = some (before, after)) : cs = before ++ ' ' :: after :=
  cutForWidth_eq_append (Option.filter_eq_some_iff.1 h).1

/-- The pieces of a text; a piece that fits its bytes into the width is not cut. -/
def pieces (width : Nat) (cs : List Char) : List (List Char) :=
  if byteSize cs ≤ width then [cs]
  else
    match _h : nextPiece width cs with
    | some (before, after) => before :: pieces width after
    | none => [cs]
termination_by cs.length
decreasing_by
  rw [nextPiece_eq_append ‹nextPiece width cs = some _›]
  simp only [List.length_append, List.length_cons]
  omega

/-- Wraps a text into lines with a common start, which counts towards their length. -/
def wrap (text : String) (maxLength : Nat) (start : String) : String :=
  let width := max (maxLength - byteSize start.toList) 1
  joined "\n" ((pieces width text.toList).map fun piece => start ++ String.ofList piece)

end SheetCompiler.Text
