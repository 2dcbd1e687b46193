/-!
# Cutting and searching texts

Cuts at the first or the last occurrence of a character, the lines of a text, and occurrence of
one text inside another.
-/

namespace SheetCompiler.Text

/-- The parts before and after the first occurrence of `sep`. -/
def cutFirst (sep : Char) : List Char → Option (List Char × List Char)
  | [] => none
  | c :: cs =>
    if c = sep then some ([], cs)
    else (cutFirst sep cs).map fun (before, after) => (c :: before, after)

/-- The parts before and after the last occurrence of `sep`. -/
def cutLast (sep : Char) : List Char → Option (List Char × List Char)
  | [] => none
  | c :: cs =>
    match cutLast sep cs with
    | some (before, after) => some (c :: before, after)
    | none => if c = sep then some ([], cs) else none

/-- Whether `part` stands somewhere in the text. -/
def occursIn (part : List Char) : List Char → Bool
  | [] => part.isEmpty
  | c :: cs => part.isPrefixOf (c :: cs) || occursIn part cs

/-- A text without its first `mark`, if it starts with it. -/
def dropMark (mark : Char) : List Char → List Char
  | [] => []
  | c :: cs => if c = mark then cs else c :: cs

/-- A text without a final `mark`, if it ends with one. -/
def dropFinal (mark : Char) (cs : List Char) : List Char :=
  match cs.getLast? with
  | some c => if c = mark then cs.dropLast else cs
  | none => cs

/-- The lines of a text. A line feed ends a line, a carriage return before it belongs to the
end, and nothing follows the last line feed. -/
def lines (cs : List Char) : List (List Char) :=
  let pieces := cs.splitOn '\n'
  let ended := pieces.dropLast.map (dropFinal '\r')
  match pieces.getLast? with
  | some [] | none => ended
  | some last => ended ++ [last]

/-- Texts joined by `sep`. -/
def joined (sep : String) (parts : List String) : String :=
  sep.intercalate parts

theorem occursIn_iff {part cs : List Char} : occursIn part cs = true ↔ part <:+: cs := by
  induction cs with
  | nil => simp [occursIn]
  | cons c cs ih => simp [occursIn, ih, List.infix_cons_iff]

end SheetCompiler.Text
