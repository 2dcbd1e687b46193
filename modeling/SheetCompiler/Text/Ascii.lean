/-!
# ASCII classes

Column letters, identifiers and sheet names compare and scan by ASCII alone: letters outside
ASCII are neither letters nor case variants here. `Char.isAlpha`, `Char.isDigit`, `Char.toUpper`
and `Char.toLower` are the ASCII classes and maps, so this module only adds what is built on them.
-/

namespace SheetCompiler.Text

/-- A letter or an underscore: what an identifier may start with. -/
def isIdentifierStart (c : Char) : Bool :=
  c.isAlpha || c == '_'

/-- A letter, a digit or an underscore: what an identifier may go on with. -/
def isIdentifierChar (c : Char) : Bool :=
  c.isAlphanum || c == '_'

/-- A letter or an underscore, then letters, digits and underscores. -/
def isIdentifierChars : List Char → Bool
  | [] => false
  | c :: cs => isIdentifierStart c && cs.all isIdentifierChar

/-- A letter or an underscore, then letters, digits and underscores. -/
def isIdentifier (s : String) : Bool :=
  isIdentifierChars s.toList

/-- The text with its ASCII letters in lower case. -/
def asciiLower (s : String) : String :=
  String.ofList (s.toList.map Char.toLower)

/-- Equality up to the case of ASCII letters. -/
def sameLetters (a b : String) : Bool :=
  a.toList.map Char.toLower == b.toList.map Char.toLower

theorem sameLetters_iff {a b : String} : sameLetters a b = true ↔ asciiLower a = asciiLower b := by
  simp [sameLetters, asciiLower, ← String.toList_inj]

@[simp] theorem sameLetters_refl (a : String) : sameLetters a a = true := by
  simp [sameLetters]

theorem sameLetters_symm {a b : String} (h : sameLetters a b = true) : sameLetters b a = true := by
  rw [sameLetters_iff] at *
  exact h.symm

theorem sameLetters_trans {a b c : String} (h : sameLetters a b = true)
    (h' : sameLetters b c = true) : sameLetters a c = true := by
  rw [sameLetters_iff] at *
  exact h.trans h'

end SheetCompiler.Text
