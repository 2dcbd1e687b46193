import SheetCompiler.Text.Bytes

/-!
# Positions between characters

A position in bytes is valid in a text if it stands between two characters or at an end, that is, if
it is the size of some of the first characters (`isValid_iff`).
-/

namespace SheetCompiler.Text

@[simp] theorem byteSize_nil : byteSize [] = 0 := rfl

theorem byteSize_cons (c : Char) (cs : List Char) : byteSize (c :: cs) = c.utf8Size + byteSize cs :=
  rfl

/-- What is left of a text is no longer than the text. -/
theorem byteSize_le_of_suffix {cs rest : List Char} (h : rest <:+ cs) :
    byteSize rest ≤ byteSize cs := by
  obtain ⟨before, rfl⟩ := h
  rw [byteSize_append]
  omega

theorem byteSize_ofList (cs : List Char) : (String.ofList cs).utf8ByteSize = byteSize cs := by
  induction cs with
  | nil => simp
  | cons c cs ih =>
    have front : String.ofList (c :: cs) = String.singleton c ++ String.ofList cs := by
      rw [String.singleton_eq_ofList, ← String.ofList_append, List.singleton_append]
    rw [front, String.utf8ByteSize_append, String.utf8ByteSize_singleton, ih, byteSize_cons]

theorem byteSize_toList (s : String) : byteSize s.toList = s.utf8ByteSize := by
  rw [← byteSize_ofList, String.ofList_toList]

/-- A position is valid if it is the size of some of the first characters. -/
theorem isValid_iff {s : String} {n : Nat} : (⟨n⟩ : String.Pos.Raw).IsValid s ↔
    ∃ before after : List Char, s.toList = before ++ after ∧ byteSize before = n := by
  rw [String.Pos.Raw.isValid_iff_exists_append]
  constructor
  · rintro ⟨before, after, rfl, eq⟩
    refine ⟨before.toList, after.toList, String.toList_append, ?_⟩
    rw [byteSize_toList]
    exact (congrArg String.Pos.Raw.byteIdx eq).symm
  · rintro ⟨before, after, eq, rfl⟩
    refine ⟨String.ofList before, String.ofList after, ?_, ?_⟩
    · rw [← String.ofList_append, ← eq, String.ofList_toList]
    · rw [← byteSize_ofList]
      rfl

end SheetCompiler.Text
