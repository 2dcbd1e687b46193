/-!
# Lengths in bytes

The length of a text as it is stored. Positions in messages and the widths of lines count bytes.
-/

namespace SheetCompiler.Text

/-- The number of bytes that characters take. -/
def byteSize (cs : List Char) : Nat := (cs.map Char.utf8Size).foldr (· + ·) 0

theorem byteSize_append (xs ys : List Char) : byteSize (xs ++ ys) = byteSize xs + byteSize ys := by
  induction xs with
  | nil => simp [byteSize]
  | cons c xs ih =>
    simp only [byteSize, List.cons_append, List.map_cons, List.foldr_cons] at ih ⊢
    omega

theorem byteSize_pos {cs : List Char} (h : cs ≠ []) : 0 < byteSize cs := by
  obtain ⟨c, cs, rfl⟩ := List.exists_cons_of_ne_nil h
  have := c.utf8Size_pos
  simp only [byteSize, List.map_cons, List.foldr_cons]
  omega

end SheetCompiler.Text
