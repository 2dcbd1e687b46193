import Mathlib.Data.List.Basic
import SheetCompiler.Python.Literal

/-!
# Texts as string literals

Which quotes a text gets depends on the quotes in it, but in each case every character is written by
itself, as one character or as a backslash and a code (`stringChars_eq`, `escapeFor_cases`). So a
literal ends at its last character and not before, and what is read from it is the text
(`string_literals_faithful`).
-/

namespace SheetCompiler.Python

/-! ### Reading a literal -/

/-- The character behind these is escaped: right before it there is a backslash that is not escaped
itself. -/
def escapesNext (before : List Char) : Bool :=
  before.foldl (fun escaped c => !escaped && c == '\\') false

/-- The inside of a literal and what follows it. A literal ends at the first quote that is not
escaped, and must end on its line. -/
def takeInside (q : Char) : List Char → Option (List Char × List Char)
  | [] => none
  | '\\' :: c :: cs => (takeInside q cs).map fun p => ('\\' :: c :: p.1, p.2)
  | c :: cs =>
    if c = q then some ([], cs)
    else if c = '\n' ∨ c = '\r' then none
    else (takeInside q cs).map fun p => (c :: p.1, p.2)

/-- The text of a literal in either kind of quotes, and what follows it. -/
def readLiteral : List Char → Option (List Char × List Char)
  | [] => none
  | q :: cs =>
    if q = '"' ∨ q = '\'' then
      (takeInside q cs).bind fun p => (readString p.1).map fun text => (text, p.2)
    else none

theorem readString_cons {c : Char} (h : c ≠ '\\') (cs : List Char) :
    readString (c :: cs) = (readString cs).map (c :: ·) := by
  rw [readString.eq_def]
  split <;> simp_all

theorem takeInside_cons {q c : Char} (h : c ≠ '\\') (cs : List Char) :
    takeInside q (c :: cs) =
      if c = q then some ([], cs)
      else if c = '\n' ∨ c = '\r' then none
      else (takeInside q cs).map fun p => (c :: p.1, p.2) := by
  rw [takeInside.eq_def]
  split <;> simp_all

/-! ### One character -/

/-- A character inside a literal in the given quotes. -/
def escapeFor (q c : Char) : List Char := if c = q then ['\\', q] else escapeChar c

/-- The quotes are double ones, or single ones that the text does not hold. -/
def Suits (q : Char) (cs : List Char) : Prop := q = '"' ∨ q = '\'' ∧ '\'' ∉ cs

section

variable {q c : Char} {cs : List Char}

theorem Suits.tail (h : Suits q (c :: cs)) : Suits q cs :=
  h.imp_right fun ⟨eq, free⟩ => ⟨eq, fun mem => free (List.mem_cons_of_mem c mem)⟩

theorem Suits.quote (h : Suits q cs) : q = '"' ∨ q = '\'' := h.imp_right And.left

theorem Suits.ne_backslash (h : Suits q cs) : q ≠ '\\' := by
  rcases h.quote with rfl | rfl <;> decide

/-- A character stands for itself, or a backslash and a code stand for it. -/
theorem escapeFor_cases (suits : Suits q (c :: cs)) :
    (escapeFor q c = [c] ∧ c ≠ q ∧ c ≠ '\\' ∧ c ≠ '\n' ∧ c ≠ '\r') ∨
    ∃ code, escapeFor q c = ['\\', code] ∧ code ≠ '\n' ∧ code ≠ '\r' ∧
      ∀ rest, readString ('\\' :: code :: rest) = (readString rest).map (c :: ·) := by
  by_cases quote : c = q
  · subst quote
    obtain rfl : c = '"' := by
      rcases suits with eq | ⟨rfl, free⟩
      · exact eq
      · simp at free
    exact .inr ⟨'"', rfl, by decide, by decide, fun rest => rfl⟩
  · rw [escapeFor, if_neg quote, escapeChar]
    by_cases backslash : c = '\\'
    · subst backslash
      exact .inr ⟨'\\', rfl, by decide, by decide, fun rest => rfl⟩
    by_cases feed : c = '\n'
    · subst feed
      exact .inr ⟨'n', rfl, by decide, by decide, fun rest => rfl⟩
    by_cases carriage : c = '\r'
    · subst carriage
      exact .inr ⟨'r', rfl, by decide, by decide, fun rest => rfl⟩
    · exact .inl ⟨by simp [backslash, feed, carriage], quote, backslash, feed, carriage⟩

end

/-! ### The inside of a literal -/

section

variable {q : Char} {cs : List Char}

/-- The inside of a literal is read as its text, character by character. -/
theorem readString_inside (suits : Suits q cs) :
    readString (cs.flatMap (escapeFor q)) = some cs := by
  induction cs with
  | nil => rfl
  | cons c cs ih =>
    rw [List.flatMap_cons]
    rcases escapeFor_cases suits with ⟨plain, -, backslash, -⟩ | ⟨code, escaped, -, -, read⟩
    · rw [plain, List.singleton_append, readString_cons backslash, ih suits.tail, Option.map_some]
    · rw [escaped, List.cons_append, List.singleton_append, read, ih suits.tail, Option.map_some]

/-- The inside is closed by the quote behind it, and by none before. -/
theorem takeInside_inside (suits : Suits q cs) (rest : List Char) :
    takeInside q (cs.flatMap (escapeFor q) ++ q :: rest) =
      some (cs.flatMap (escapeFor q), rest) := by
  induction cs with
  | nil => rw [List.flatMap_nil, List.nil_append, takeInside_cons suits.ne_backslash, if_pos rfl]
  | cons c cs ih =>
    rw [List.flatMap_cons]
    rcases escapeFor_cases suits with ⟨plain, quote, backslash, feed, carriage⟩ | ⟨code, escaped, -⟩
    · rw [plain, List.singleton_append, List.cons_append, takeInside_cons backslash, if_neg quote,
        if_neg (by simp [feed, carriage]), ih suits.tail, Option.map_some]
    · rw [escaped, List.cons_append, List.singleton_append, List.cons_append, List.cons_append,
        takeInside, ih suits.tail, Option.map_some]

/-- No line ends inside a literal. -/
theorem notMem_inside (suits : Suits q cs) :
    '\n' ∉ cs.flatMap (escapeFor q) ∧ '\r' ∉ cs.flatMap (escapeFor q) := by
  induction cs with
  | nil => simp
  | cons c cs ih =>
    obtain ⟨feeds, carriages⟩ := ih suits.tail
    rw [List.flatMap_cons]
    rcases escapeFor_cases suits with
      ⟨plain, -, -, feed, carriage⟩ | ⟨code, escaped, feed, carriage, -⟩
    · rw [plain]
      simp [feeds, carriages, feed.symm, carriage.symm]
    · rw [escaped]
      simp [feeds, carriages, feed.symm, carriage.symm]

/-- A quote inside a literal is escaped. -/
theorem escapesNext_of_quote (suits : Suits q cs) {before after : List Char}
    (h : cs.flatMap (escapeFor q) = before ++ q :: after) : escapesNext before := by
  induction cs generalizing before with
  | nil => simp at h
  | cons c cs ih =>
    rw [List.flatMap_cons] at h
    rcases escapeFor_cases suits with ⟨plain, quote, backslash, -⟩ | ⟨code, escaped, -⟩
    · rw [plain, List.singleton_append] at h
      cases before with
      | nil => exact absurd (List.cons.inj h).1 quote
      | cons d before =>
        obtain ⟨rfl, others⟩ := List.cons.inj h
        have later := ih suits.tail others
        simpa [escapesNext, beq_false_of_ne backslash] using later
    · rw [escaped, List.cons_append, List.singleton_append] at h
      rcases before with _ | ⟨d, _ | ⟨d', before⟩⟩
      · exact absurd (List.cons.inj h).1.symm suits.ne_backslash
      · obtain ⟨rfl, -⟩ := List.cons.inj h
        rfl
      · -- Behind a backslash and its code nothing is escaped, as at the start.
        obtain ⟨rfl, others⟩ := List.cons.inj h
        have later := ih suits.tail (List.cons.inj others).2
        simpa [escapesNext] using later

end

/-! ### Whole literals -/

theorem flatMap_escapeFor {q : Char} {cs : List Char} (free : q ∉ cs) :
    cs.flatMap (escapeFor q) = cs.flatMap escapeChar := by
  refine List.flatMap_congr fun c mem => if_neg ?_
  rintro rfl
  exact free mem

/-- Escaping a character and then its quotes is escaping it for double quotes. -/
theorem escapeQuote_escapeChar (c : Char) :
    (escapeChar c).flatMap escapeQuote = escapeFor '"' c := by
  by_cases quote : c = '"'
  · subst quote
    rfl
  · rw [escapeFor, if_neg quote]
    unfold escapeChar
    split
    · rfl
    · split
      · rfl
      · split
        · rfl
        · simp [escapeQuote, quote]

/-- A literal is its text between quotes that suit it, written character by character. -/
theorem stringChars_eq (cs : List Char) :
    ∃ q, Suits q cs ∧ stringChars cs = q :: cs.flatMap (escapeFor q) ++ [q] := by
  have stands : ∀ q, escapeChar q = [q] → q ∈ cs → q ∈ cs.flatMap escapeChar :=
    fun q self mem => List.mem_flatMap.2 ⟨q, mem, by simp [self]⟩
  by_cases double : '"' ∈ cs.flatMap escapeChar
  · by_cases single : '\'' ∈ cs.flatMap escapeChar
    · refine ⟨'"', .inl rfl, ?_⟩
      simp [stringChars, double, single, List.flatMap_assoc, escapeQuote_escapeChar]
    · have free : '\'' ∉ cs := fun mem => single (stands '\'' (by decide) mem)
      refine ⟨'\'', .inr ⟨rfl, free⟩, ?_⟩
      simp [stringChars, double, single, flatMap_escapeFor free]
  · have free : '"' ∉ cs := fun mem => double (stands '"' (by decide) mem)
    refine ⟨'"', .inl rfl, ?_⟩
    simp [stringChars, double, flatMap_escapeFor free]

/-- A literal is read as its text, in front of whatever else. -/
theorem readLiteral_stringChars (cs rest : List Char) :
    readLiteral (stringChars cs ++ rest) = some (cs, rest) := by
  obtain ⟨q, suits, eq⟩ := stringChars_eq cs
  rw [eq, List.append_assoc, List.singleton_append, List.cons_append, readLiteral,
    if_pos suits.quote, takeInside_inside suits, Option.bind_some, readString_inside suits,
    Option.map_some]

/-- **String literals are faithful.** A literal starts and ends with one quote. Inside there is no
line break, the quote stands only where it is escaped, and the text can be read back. Read from the
left, in front of whatever else, the literal ends where it was ended and gives its text. So
different texts have different literals. -/
theorem string_literals_faithful (s : String) :
    (∃ q inside, (q = '"' ∨ q = '\'') ∧ (stringLiteral s).toList = q :: inside ++ [q] ∧
      '\n' ∉ inside ∧ '\r' ∉ inside ∧
      (∀ before after, inside = before ++ q :: after → escapesNext before) ∧
      readString inside = some s.toList) ∧
    (∀ rest, readLiteral ((stringLiteral s).toList ++ rest) = some (s.toList, rest)) ∧
    ∀ other, stringLiteral other = stringLiteral s ↔ other = s := by
  have read : ∀ s rest, readLiteral ((stringLiteral s).toList ++ rest) = some (s.toList, rest) :=
    fun s rest => by rw [stringLiteral, String.toList_ofList, readLiteral_stringChars]
  refine ⟨?_, read s, fun other => ⟨fun same => ?_, fun same => same ▸ rfl⟩⟩
  · obtain ⟨q, suits, eq⟩ := stringChars_eq s.toList
    obtain ⟨feeds, carriages⟩ := notMem_inside suits
    refine ⟨q, s.toList.flatMap (escapeFor q), suits.quote, ?_, feeds, carriages, ?_, ?_⟩
    · rw [stringLiteral, String.toList_ofList, eq]
    · exact fun before after h => escapesNext_of_quote suits h
    · exact readString_inside suits
  · have reads := (read other []).symm.trans (same ▸ read s [])
    exact String.toList_inj.1 (Prod.mk.inj (Option.some.inj reads)).1

/-- A text with both kinds of quotes, and with backslashes before a quote, before an `n` and at the
end, is in double quotes. -/
theorem string_literals_faithful_clash :
    stringLiteral "it's \\\"\\n\n\\" = "\"it's \\\\\\\"\\\\n\\n\\\\\"" ∧
    readLiteral (stringLiteral "it's \\\"\\n\n\\" ++ "+1").toList =
      some ("it's \\\"\\n\n\\".toList, ['+', '1']) := by
  refine ⟨by decide +kernel, ?_⟩
  rw [String.toList_append]
  exact (string_literals_faithful _).2.1 _

end SheetCompiler.Python
