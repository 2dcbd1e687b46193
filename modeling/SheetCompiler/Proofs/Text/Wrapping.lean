import SheetCompiler.Proofs.Grid.RoundTrip
import SheetCompiler.Text.Wrap

/-!
# Wrapped lines

Where a text is cut is said without the search for the cut: a line is as many words as fit, or one
word that does not fit (`CutsOff`, `nextPiece_eq_some_iff`). Two texts are not cut: one without a
space, and one that starts with a space and a word behind it that fills a line (`Stuck`,
`nextPiece_eq_none_iff`). So a line that is too long is a single word, unless it is the last one and
the text is stuck there (`notMem_of_overlong`). That happens exactly if such a word stands behind a
space at the front, or behind two spaces of which the first ends a full line (`Blocked`,
`stuck_lastPiece_iff`).
-/

namespace SheetCompiler.Text

variable {width : Nat} {cs line after : List Char}

/-! ### Cuts -/

section

variable {sep : Char} {before : List Char}

theorem cutFirst_eq_none_iff : cutFirst sep cs = none ↔ sep ∉ cs := by
  refine ⟨fun h mem => ?_, cutFirst_of_notMem⟩
  obtain ⟨before, after, rfl, apart⟩ := List.eq_append_cons_of_mem mem
  rw [cutFirst_append apart] at h
  cases h

/-- The first separator is the one without another before it. -/
theorem cutFirst_eq_some_iff :
    cutFirst sep cs = some (before, after) ↔ cs = before ++ sep :: after ∧ sep ∉ before := by
  refine ⟨fun h => ?_, fun ⟨eq, apart⟩ => eq ▸ cutFirst_append apart⟩
  have mem : sep ∈ cs := by
    rw [cutFirst_eq_append h]
    simp
  obtain ⟨before', after', rfl, apart⟩ := List.eq_append_cons_of_mem mem
  rw [cutFirst_append apart] at h
  obtain ⟨rfl, rfl⟩ := Prod.mk.inj (Option.some.inj h)
  exact ⟨rfl, apart⟩

/-- A character that occurs in a text occurs for a last time. -/
theorem exists_last_of_mem (mem : sep ∈ cs) :
    ∃ before after : List Char, cs = before ++ sep :: after ∧ sep ∉ after := by
  obtain ⟨after, before, eq, apart⟩ := List.eq_append_cons_of_mem (List.mem_reverse.2 mem)
  refine ⟨before.reverse, after.reverse, ?_, by simpa using apart⟩
  rw [← cs.reverse_reverse, eq]
  simp

theorem cutLast_eq_none_iff : cutLast sep cs = none ↔ sep ∉ cs := by
  refine ⟨fun h mem => ?_, cutLast_of_notMem⟩
  obtain ⟨before, after, rfl, apart⟩ := exists_last_of_mem mem
  rw [cutLast_append apart] at h
  cases h

/-- The last separator is the one without another behind it. -/
theorem cutLast_eq_some_iff :
    cutLast sep cs = some (before, after) ↔ cs = before ++ sep :: after ∧ sep ∉ after := by
  refine ⟨fun h => ?_, fun ⟨eq, apart⟩ => eq ▸ cutLast_append apart⟩
  have mem : sep ∈ cs := by
    rw [cutLast_eq_append h]
    simp
  obtain ⟨before', after', rfl, apart⟩ := exists_last_of_mem mem
  rw [cutLast_append apart] at h
  obtain ⟨rfl, rfl⟩ := Prod.mk.inj (Option.some.inj h)
  exact ⟨rfl, apart⟩

end

/-- What is cut off in front of the rest of a text: as many words as fit, or one word that does
not fit. -/
def CutsOff (width : Nat) (line after : List Char) : Prop :=
  line ≠ [] ∧ (line.length ≤ width ∧ ' ' ∉ after.take (width - line.length) ∨
    width < line.length ∧ ' ' ∉ line)

/-- A space with a word behind it that fills a line. -/
def Stuck (width : Nat) (cs : List Char) : Prop :=
  ∃ word rest : List Char, cs = ' ' :: (word ++ rest) ∧ word.length = width ∧ ' ' ∉ word

theorem take_append_space (short : line.length ≤ width) :
    (line ++ ' ' :: after).take (width + 1) = line ++ ' ' :: after.take (width - line.length) := by
  rw [List.take_append, List.take_of_length_le (by omega), Nat.succ_sub short, List.take_succ_cons]

theorem drop_append_space (short : line.length ≤ width) :
    (line ++ ' ' :: after).drop (width + 1) = after.drop (width - line.length) := by
  rw [List.drop_append, List.drop_of_length_le (by omega), Nat.succ_sub short, List.drop_succ_cons,
    List.nil_append]

/-- A text is cut at the last space that leaves a line which fits; if there is none, at its first
space. -/
theorem cutForWidth_eq_some_iff : cutForWidth width cs = some (line, after) ↔
    cs = line ++ ' ' :: after ∧ (line.length ≤ width ∧ ' ' ∉ after.take (width - line.length) ∨
      width < line.length ∧ ' ' ∉ line) := by
  constructor
  · intro h
    have eq := cutForWidth_eq_append h
    refine ⟨eq, ?_⟩
    rw [cutForWidth] at h
    cases last : cutLast ' ' (cs.take (width + 1)) with
    | some parts =>
      rw [last] at h
      obtain ⟨rfl, -⟩ := Prod.mk.inj (Option.some.inj h)
      obtain ⟨window, apart⟩ := cutLast_eq_some_iff.1 last
      have short : parts.1.length ≤ width := by
        have size := congrArg List.length window
        simp only [List.length_take, List.length_append, List.length_cons] at size
        omega
      rw [eq, take_append_space short] at window
      have same := List.cons.inj (List.append_cancel_left window)
      exact .inl ⟨short, same.2 ▸ apart⟩
    | none =>
      rw [last] at h
      have apart := (cutFirst_eq_some_iff.1 h).2
      -- The space behind a line that fits would be in the window.
      refine .inr ⟨Nat.lt_of_not_le fun short => ?_, apart⟩
      rw [eq, take_append_space short] at last
      exact cutLast_eq_none_iff.1 last (by simp)
  · rintro ⟨rfl, ⟨short, apart⟩ | ⟨long, apart⟩⟩
    · rw [cutForWidth, take_append_space short, cutLast_append apart, drop_append_space short]
      simp
    · have window : ' ' ∉ (line ++ ' ' :: after).take (width + 1) := by
        rw [List.take_append_of_le_length long]
        exact fun mem => apart (List.mem_of_mem_take mem)
      rw [cutForWidth, cutLast_of_notMem window]
      exact cutFirst_append apart

/-- A cut leaves something before it. -/
theorem nextPiece_eq_some_iff : nextPiece width cs = some (line, after) ↔
    cs = line ++ ' ' :: after ∧ CutsOff width line after := by
  rw [nextPiece, Option.filter_eq_some_iff, cutForWidth_eq_some_iff, CutsOff]
  simp only [Bool.not_eq_true', List.isEmpty_eq_false_iff]
  exact and_assoc.trans (and_congr_right fun _ => and_comm)

theorem Stuck.lt_length (stuck : Stuck width cs) : width < cs.length := by
  obtain ⟨word, rest, rfl, rfl, -⟩ := stuck
  simp only [List.length_cons, List.length_append]
  omega

theorem Stuck.space_mem (stuck : Stuck width cs) : ' ' ∈ cs := by
  obtain ⟨word, rest, rfl, -⟩ := stuck
  exact List.mem_cons_self

theorem Stuck.append (stuck : Stuck width cs) (more : List Char) : Stuck width (cs ++ more) := by
  obtain ⟨word, rest, rfl, size, apart⟩ := stuck
  exact ⟨word, rest ++ more, by simp, size, apart⟩

/-- Nothing is cut off a stuck text. A line that starts with its first space is no single word, and
to fit it would have to end at a space in the word behind, which has none. -/
theorem Stuck.not_cutsOff (stuck : Stuck width (line ++ ' ' :: after)) :
    ¬CutsOff width line after := by
  obtain ⟨word, rest, eq, size, apart⟩ := stuck
  rintro ⟨nonempty, cut⟩
  obtain ⟨c, line, rfl⟩ := List.exists_cons_of_ne_nil nonempty
  rw [List.cons_append] at eq
  obtain ⟨rfl, behind⟩ := List.cons.inj eq
  rcases cut with ⟨short, -⟩ | ⟨-, apart⟩
  · -- The space behind the line would be in the word.
    rw [List.length_cons] at short
    have here : (word ++ rest)[line.length]? = some ' ' := by
      rw [← behind, List.getElem?_append_right (Nat.le_refl _), Nat.sub_self]
      rfl
    rw [List.getElem?_append_left (by omega)] at here
    exact apart (List.mem_of_getElem? here)
  · exact apart List.mem_cons_self

/-- A long text is not cut if it has no space, or if it is stuck. -/
theorem nextPiece_eq_none_iff (long : width < cs.length) :
    nextPiece width cs = none ↔ ' ' ∉ cs ∨ Stuck width cs := by
  constructor
  · intro h
    rw [nextPiece] at h
    cases found : cutForWidth width cs with
    | none =>
      rw [cutForWidth] at found
      split at found
      · cases found
      · exact .inl (cutFirst_eq_none_iff.1 found)
    | some parts =>
      obtain ⟨line, after⟩ := parts
      have empty : line = [] := by simpa [found] using h
      obtain ⟨rfl, cut⟩ := cutForWidth_eq_some_iff.1 found
      subst empty
      have apart : ' ' ∉ after.take width := by simpa using cut
      have size : (after.take width).length = width := by
        rw [List.nil_append, List.length_cons] at long
        rw [List.length_take]
        omega
      exact .inr ⟨after.take width, after.drop width, by simp, size, apart⟩
  · intro uncut
    cases found : nextPiece width cs with
    | none => rfl
    | some parts =>
      obtain ⟨rfl, cut⟩ := nextPiece_eq_some_iff.1 found
      rcases uncut with apart | stuck
      · exact absurd (by simp) apart
      · exact absurd cut stuck.not_cutsOff

/-! ### Lines -/

/-- Every character takes one byte. -/
def IsAscii (cs : List Char) : Prop := ∀ c ∈ cs, c.toNat < 128

instance (cs : List Char) : Decidable (IsAscii cs) :=
  decidable_of_iff (cs.all fun c => decide (c.toNat < 128)) (by simp [IsAscii])

theorem IsAscii.before {left right : List Char} (ascii : IsAscii (left ++ right)) : IsAscii left :=
  fun c mem => ascii c (List.mem_append_left right mem)

theorem IsAscii.behind (ascii : IsAscii (line ++ ' ' :: after)) : IsAscii after :=
  fun c mem => ascii c (List.mem_append_right line (List.mem_cons_of_mem ' ' mem))

/-- Of ASCII characters, there are as many as bytes. -/
theorem byteSize_eq_length (ascii : IsAscii cs) : byteSize cs = cs.length := by
  induction cs with
  | nil => rfl
  | cons c cs ih =>
    obtain ⟨first, others⟩ := List.forall_mem_cons.1 ascii
    have one : c.utf8Size = 1 := Char.utf8Size_eq_one_iff.2 (by
      rw [UInt32.le_iff_toNat_le]
      exact Nat.le_of_lt_succ first)
    have rest := ih others
    simp only [byteSize, List.map_cons, List.foldr_cons, List.length_cons, one] at rest ⊢
    omega

theorem pieces_of_fits (ascii : IsAscii cs) (fits : cs.length ≤ width) : pieces width cs = [cs] := by
  rw [pieces, if_pos (by rwa [byteSize_eq_length ascii])]

/-- What is cut off comes first, then the pieces of what is left. -/
theorem pieces_of_cutsOff (ascii : IsAscii (line ++ ' ' :: after))
    (long : width < (line ++ ' ' :: after).length) (cut : CutsOff width line after) :
    pieces width (line ++ ' ' :: after) = line :: pieces width after := by
  have next := nextPiece_eq_some_iff.2 ⟨rfl, cut⟩
  rw [pieces, if_neg (by rw [byteSize_eq_length ascii]; omega)]
  split
  next before after' found =>
    rw [next] at found
    obtain ⟨rfl, rfl⟩ := Prod.mk.inj (Option.some.inj found)
    rfl
  next found =>
    rw [next] at found
    cases found

/-- A text that is not cut is one piece. -/
theorem pieces_of_uncut (uncut : nextPiece width cs = none) : pieces width cs = [cs] := by
  rw [pieces]
  split
  · rfl
  · split
    next found =>
      rw [uncut] at found
      cases found
    next => rfl

/-- A text fits, or a line is cut off, or it is a word that does not fit, or it is stuck. -/
@[elab_as_elim]
theorem pieces_induction (width : Nat) {motive : (cs : List Char) → IsAscii cs → Prop}
    (fits : ∀ cs (ascii : IsAscii cs), cs.length ≤ width → motive cs ascii)
    (cut : ∀ line after (ascii : IsAscii (line ++ ' ' :: after)),
      width < (line ++ ' ' :: after).length → CutsOff width line after →
      motive after ascii.behind → motive (line ++ ' ' :: after) ascii)
    (word : ∀ cs (ascii : IsAscii cs), width < cs.length → ' ' ∉ cs → motive cs ascii)
    (stuck : ∀ cs (ascii : IsAscii cs), Stuck width cs → motive cs ascii)
    (cs : List Char) (ascii : IsAscii cs) : motive cs ascii := by
  induction size : cs.length using Nat.strongRecOn generalizing cs with
  | ind n ih =>
    rcases Nat.lt_or_ge width cs.length with long | short
    · cases next : nextPiece width cs with
      | none =>
        rcases (nextPiece_eq_none_iff long).1 next with apart | isStuck
        · exact word cs ascii long apart
        · exact stuck cs ascii isStuck
      | some parts =>
        obtain ⟨line, after⟩ := parts
        obtain ⟨rfl, cuts⟩ := nextPiece_eq_some_iff.1 next
        refine cut line after ascii long cuts (ih _ ?_ after ascii.behind rfl)
        rw [← size, List.length_append, List.length_cons]
        omega
    · exact fits cs ascii short

theorem pieces_ne_nil (width : Nat) (cs : List Char) : pieces width cs ≠ [] := by
  rw [pieces]
  split
  · exact List.cons_ne_nil _ _
  · split <;> exact List.cons_ne_nil _ _

/-- The last line of a text. -/
def lastPiece (width : Nat) (cs : List Char) : List Char :=
  (pieces width cs).getLast (pieces_ne_nil width cs)

theorem lastPiece_mem (width : Nat) (cs : List Char) : lastPiece width cs ∈ pieces width cs :=
  List.getLast_mem _

theorem lastPiece_of_singleton (h : pieces width cs = [cs]) : lastPiece width cs = cs := by
  simp only [lastPiece, h, List.getLast_singleton]

theorem lastPiece_of_cons (h : pieces width cs = line :: pieces width after) :
    lastPiece width cs = lastPiece width after := by
  simp only [lastPiece, h, List.getLast_cons (pieces_ne_nil width after)]

theorem lastPiece_of_stuck (stuck : Stuck width cs) : lastPiece width cs = cs :=
  lastPiece_of_singleton
    (pieces_of_uncut ((nextPiece_eq_none_iff stuck.lt_length).2 (.inr stuck)))

/-- Cutting off a line does not change the last one. -/
theorem lastPiece_of_cutsOff (ascii : IsAscii (line ++ ' ' :: after))
    (long : width < (line ++ ' ' :: after).length) (cut : CutsOff width line after) :
    lastPiece width (line ++ ' ' :: after) = lastPiece width after :=
  lastPiece_of_cons (pieces_of_cutsOff ascii long cut)

theorem lastPiece_of_word (ascii : IsAscii cs) (apart : ' ' ∉ cs) : lastPiece width cs = cs := by
  rcases Nat.lt_or_ge width cs.length with long | short
  · exact lastPiece_of_singleton (pieces_of_uncut ((nextPiece_eq_none_iff long).2 (.inl apart)))
  · exact lastPiece_of_singleton (pieces_of_fits ascii short)

/-- Before the last line, a line that is too long is a single word. -/
theorem notMem_of_overlong (ascii : IsAscii cs) :
    ∀ piece ∈ (pieces width cs).dropLast, width < piece.length → ' ' ∉ piece := by
  induction cs, ascii using (pieces_induction width) with
  | fits cs ascii short => simp [pieces_of_fits ascii short]
  | cut line after ascii long cut ih =>
    rw [pieces_of_cutsOff ascii long cut, List.dropLast_cons_of_ne_nil (pieces_ne_nil width after)]
    refine List.forall_mem_cons.2 ⟨fun overlong => ?_, ih⟩
    exact (cut.2.resolve_left fun short => Nat.not_le.2 overlong short.1).2
  | word cs ascii long apart =>
    simp [pieces_of_uncut ((nextPiece_eq_none_iff long).2 (.inl apart))]
  | stuck cs ascii stuck =>
    simp [pieces_of_uncut ((nextPiece_eq_none_iff stuck.lt_length).2 (.inr stuck))]

/-- The last line fits, or it is a single word, or the text is stuck there. -/
theorem lastPiece_cases (width : Nat) (ascii : IsAscii cs) :
    (lastPiece width cs).length ≤ width ∨ ' ' ∉ lastPiece width cs ∨
      Stuck width (lastPiece width cs) := by
  induction cs, ascii using (pieces_induction width) with
  | fits cs ascii short =>
    rw [lastPiece_of_singleton (pieces_of_fits ascii short)]
    exact .inl short
  | cut line after ascii long cut ih => rwa [lastPiece_of_cutsOff ascii long cut]
  | word cs ascii long apart =>
    rw [lastPiece_of_word ascii apart]
    exact .inr (.inl apart)
  | stuck cs ascii stuck =>
    rw [lastPiece_of_stuck stuck]
    exact .inr (.inr stuck)

/-- The lines that are too long are single words exactly if the text does not get stuck. -/
theorem overlong_pieces_iff (ascii : IsAscii cs) :
    (∀ piece ∈ pieces width cs, width < piece.length → ' ' ∉ piece) ↔
      ¬Stuck width (lastPiece width cs) := by
  constructor
  · intro all stuck
    exact all _ (lastPiece_mem width cs) stuck.lt_length stuck.space_mem
  · intro free piece mem overlong
    rw [← List.dropLast_append_getLast (pieces_ne_nil width cs)] at mem
    rcases List.mem_append.1 mem with mem | mem
    · exact notMem_of_overlong ascii piece mem overlong
    · obtain rfl := List.mem_singleton.1 mem
      have cases := lastPiece_cases width ascii
      exact (cases.resolve_left (Nat.not_le.2 overlong)).resolve_right free

/-! ### Where a text gets stuck -/

/-- A word that fills a line stands behind a space at the front, or behind two spaces of which the
first one ends a full line. -/
def Blocked (width : Nat) (cs : List Char) : Prop :=
  Stuck width cs ∨ ∃ before rest : List Char, cs = before ++ ' ' :: rest ∧ Stuck width rest ∧
    width ≤ (lastPiece width before).length

/-- The last line is no longer than the text. -/
theorem length_lastPiece_le (width : Nat) (ascii : IsAscii cs) :
    (lastPiece width cs).length ≤ cs.length := by
  induction cs, ascii using (pieces_induction width) with
  | fits cs ascii short =>
    exact Nat.le_of_eq (congrArg _ (lastPiece_of_singleton (pieces_of_fits ascii short)))
  | cut line after ascii long cut ih =>
    rw [lastPiece_of_cutsOff ascii long cut, List.length_append, List.length_cons]
    omega
  | word cs ascii long apart => exact Nat.le_of_eq (congrArg _ (lastPiece_of_word ascii apart))
  | stuck cs ascii stuck => exact Nat.le_of_eq (congrArg _ (lastPiece_of_stuck stuck))

theorem CutsOff.of_append {more : List Char} (cut : CutsOff width line (after ++ more)) :
    CutsOff width line after := by
  refine cut.imp_right (Or.imp_left (And.imp_right fun apart mem => apart ?_))
  rw [List.take_append]
  exact List.mem_append_left _ mem

/-- More text far behind a cut does not change it. -/
theorem CutsOff.append {more : List Char} (cut : CutsOff width line after)
    (enough : width ≤ after.length) : CutsOff width line (after ++ more) := by
  refine cut.imp_right (Or.imp_left (And.imp_right fun apart => ?_))
  rwa [List.take_append_of_le_length (by omega)]

/-- A text that gets stuck is blocked. By induction on its pieces: a line that is cut off goes in
front of the block. -/
theorem blocked_of_stuck (ascii : IsAscii cs) (stuck : Stuck width (lastPiece width cs)) :
    Blocked width cs := by
  induction cs, ascii using (pieces_induction width) with
  | fits cs ascii short =>
    rw [lastPiece_of_singleton (pieces_of_fits ascii short)] at stuck
    have long := stuck.lt_length
    omega
  | cut line after ascii long cut ih =>
    rw [lastPiece_of_cutsOff ascii long cut] at stuck
    rcases ih stuck with here | ⟨before, rest, rfl, there, full⟩
    · refine .inr ⟨line, after, rfl, here, ?_⟩
      rcases cut.2 with ⟨short, apart⟩ | ⟨overlong, apart⟩
      · -- Another word would fit if the line were not full.
        rw [lastPiece_of_singleton (pieces_of_fits ascii.before short)]
        obtain ⟨word, rest, rfl, -⟩ := here
        refine Nat.le_of_not_lt fun less => apart ?_
        rw [← Nat.sub_add_cancel (Nat.sub_pos_of_lt less), List.take_succ_cons]
        exact List.mem_cons_self
      · rw [lastPiece_of_word ascii.before apart]
        exact Nat.le_of_lt overlong
    · have shorter := length_lastPiece_le width ascii.behind.before
      have ascii' : IsAscii (line ++ ' ' :: before) := by
        rw [← List.cons_append, ← List.append_assoc] at ascii
        exact ascii.before
      refine .inr ⟨line ++ ' ' :: before, rest, by simp, there, ?_⟩
      rwa [lastPiece_of_cutsOff ascii' ?_ cut.of_append]
      rw [List.length_append, List.length_cons]
      omega
  | word cs ascii long apart =>
    rw [lastPiece_of_word ascii apart] at stuck
    exact absurd stuck.space_mem apart
  | stuck cs ascii here => exact .inl here

/-- A text is stuck behind a full line. By induction on the pieces of what is before: their cuts
stay as they are, since a full line is left behind each of them. -/
theorem stuck_behind {before rest : List Char} (room : 0 < width)
    (ascii : IsAscii (before ++ ' ' :: rest)) (stuck : Stuck width rest)
    (full : width ≤ (lastPiece width before).length) :
    Stuck width (lastPiece width (before ++ ' ' :: rest)) := by
  have long : width < (before ++ ' ' :: rest).length := by
    have behind := stuck.lt_length
    rw [List.length_append, List.length_cons]
    omega
  have first := ascii.before
  induction before, first using (pieces_induction width) with
  | fits before first short =>
    rw [lastPiece_of_singleton (pieces_of_fits first short)] at full
    have cut : CutsOff width before rest := by
      refine ⟨List.length_pos_iff.1 (by omega), .inl ⟨short, ?_⟩⟩
      rw [Nat.sub_eq_zero_of_le full]
      simp
    rwa [lastPiece_of_cutsOff ascii long cut, lastPiece_of_stuck stuck]
  | cut line after first longer cut ih =>
    rw [lastPiece_of_cutsOff first longer cut] at full
    have shorter := length_lastPiece_le width first.behind
    rw [List.append_assoc, List.cons_append] at ascii long ⊢
    rw [lastPiece_of_cutsOff ascii long (cut.append (by omega))]
    refine ih ascii.behind full ?_
    rw [List.length_append, List.length_cons]
    omega
  | word before first longer apart =>
    have cut : CutsOff width before rest :=
      ⟨List.length_pos_iff.1 (by omega), .inr ⟨longer, apart⟩⟩
    rwa [lastPiece_of_cutsOff ascii long cut, lastPiece_of_stuck stuck]
  | stuck before first here =>
    rw [lastPiece_of_stuck (here.append _)]
    exact here.append _

/-- A text gets stuck exactly if it is blocked. -/
theorem stuck_lastPiece_iff (room : 0 < width) (ascii : IsAscii cs) :
    Stuck width (lastPiece width cs) ↔ Blocked width cs := by
  refine ⟨blocked_of_stuck ascii, ?_⟩
  rintro (stuck | ⟨before, rest, rfl, stuck, full⟩)
  · rwa [lastPiece_of_stuck stuck]
  · exact stuck_behind room ascii stuck full

/-- Where spaces stand alone and none at the front, no text is blocked. -/
theorem not_blocked_of_lone_spaces (front : cs.head? ≠ some ' ') (lone : ¬[' ', ' '] <:+: cs) :
    ¬Blocked width cs := by
  rintro (⟨word, rest, rfl, -⟩ | ⟨before, -, rfl, ⟨word, rest, rfl, -⟩, -⟩)
  · exact front rfl
  · exact lone ⟨before, word ++ rest, by simp⟩

/-! ### The wrapped text -/

/-- Pieces are made of characters of the text. -/
theorem mem_of_mem_pieces {c : Char} {piece : List Char} (mem : piece ∈ pieces width cs)
    (here : c ∈ piece) : c ∈ cs := by
  fun_induction pieces width cs with
  | case1 cs fits => rwa [List.mem_singleton.1 mem] at here
  | case2 cs long before after found ih =>
    rw [nextPiece_eq_append found]
    rcases List.mem_cons.1 mem with rfl | mem
    · exact List.mem_append_left _ here
    · exact List.mem_append_right before (List.mem_cons_of_mem ' ' (ih mem))
  | case3 cs long found => rwa [List.mem_singleton.1 mem] at here

/-- The lines of a wrapped text. -/
def wrapLines (text : String) (maxLength : Nat) (start : String) : List (List Char) :=
  (pieces (max (maxLength - byteSize start.toList) 1) text.toList).map (start.toList ++ ·)

/-- If the line is too long, it is the start and a single word. -/
def LongIsWord (maxLength : Nat) (start line : List Char) : Prop :=
  maxLength < byteSize line → ∃ word, line = start ++ word ∧ ' ' ∉ word

variable {text start : String} {maxLength : Nat}

/-- The lines of a wrapped text are its pieces behind the start. -/
theorem splitOn_wrap (oneLine : '\n' ∉ text.toList) (start_oneLine : '\n' ∉ start.toList) :
    (wrap text maxLength start).toList.splitOn '\n' = wrapLines text maxLength start := by
  have written : (wrap text maxLength start).toList =
      ['\n'].intercalate (wrapLines text maxLength start) := by
    simp [wrap, joined, wrapLines, Function.comp_def]
  rw [written]
  refine List.splitOn_intercalate '\n' ?_ (by simp [wrapLines, pieces_ne_nil])
  intro line mem feed
  obtain ⟨piece, cut, rfl⟩ := List.mem_map.1 mem
  rcases List.mem_append.1 feed with feed | feed
  · exact start_oneLine feed
  · exact oneLine (mem_of_mem_pieces cut feed)

/-- The start takes its room away from each line. -/
theorem longIsWord_iff {piece : List Char} (ascii : IsAscii piece)
    (room : byteSize start.toList < maxLength) :
    LongIsWord maxLength start.toList (start.toList ++ piece) ↔
      (maxLength - byteSize start.toList < piece.length → ' ' ∉ piece) := by
  rw [LongIsWord, byteSize_append, byteSize_eq_length ascii]
  constructor
  · intro h long
    obtain ⟨word, eq, apart⟩ := h (by omega)
    rwa [List.append_cancel_left eq]
  · exact fun h long => ⟨piece, rfl, h (by omega)⟩

/-- **Long lines.** For a text of ASCII characters, a line before the last one that is too long is a
single word. All lines that are too long are, exactly if the text is not blocked; so they are if its
spaces stand alone and none at the front. -/
theorem overlong_lines_iff (ascii : IsAscii text.toList) (oneLine : '\n' ∉ text.toList)
    (room : byteSize start.toList < maxLength) :
    ('\n' ∉ start.toList →
      (wrap text maxLength start).toList.splitOn '\n' = wrapLines text maxLength start) ∧
    (∀ line ∈ (wrapLines text maxLength start).dropLast, LongIsWord maxLength start.toList line) ∧
    ((∀ line ∈ wrapLines text maxLength start, LongIsWord maxLength start.toList line) ↔
      ¬Blocked (maxLength - byteSize start.toList) text.toList) ∧
    (text.toList.head? ≠ some ' ' → ¬[' ', ' '] <:+: text.toList →
      ∀ line ∈ wrapLines text maxLength start, LongIsWord maxLength start.toList line) := by
  have width : max (maxLength - byteSize start.toList) 1 = maxLength - byteSize start.toList := by
    omega
  have longIsWord : ∀ piece ∈ pieces (maxLength - byteSize start.toList) text.toList,
      (LongIsWord maxLength start.toList (start.toList ++ piece) ↔
        (maxLength - byteSize start.toList < piece.length → ' ' ∉ piece)) := fun piece mem =>
    longIsWord_iff (fun c here => ascii c (mem_of_mem_pieces mem here)) room
  have all : (∀ line ∈ wrapLines text maxLength start, LongIsWord maxLength start.toList line) ↔
      ¬Blocked (maxLength - byteSize start.toList) text.toList := by
    rw [wrapLines, width, List.forall_mem_map, ← stuck_lastPiece_iff (by omega) ascii,
      ← overlong_pieces_iff ascii]
    exact forall₂_congr longIsWord
  refine ⟨splitOn_wrap oneLine, ?_, all, fun front lone => all.2 (not_blocked_of_lone_spaces front lone)⟩
  rw [wrapLines, width, ← List.map_dropLast, List.forall_mem_map]
  intro piece mem
  exact (longIsWord piece (List.dropLast_subset _ mem)).2 (notMem_of_overlong ascii piece mem)

/-- A word that does not fit, behind two spaces. -/
def slip : String := "first  extraordinary one"

/-- With six characters a line, the first one ends behind the first of the two spaces. -/
theorem overlong_lines_iff_slip :
    IsAscii slip.toList ∧ '\n' ∉ slip.toList ∧ byteSize "  ".toList < 8 ∧
    wrapLines slip 8 "  " = ["  first ".toList, "  extraordinary".toList, "  one".toList] ∧
    ¬Blocked 6 slip.toList := by
  have ascii : IsAscii slip.toList := by decide +kernel
  have oneLine : '\n' ∉ slip.toList := by decide +kernel
  have lines : wrapLines slip 8 "  " =
      ["  first ".toList, "  extraordinary".toList, "  one".toList] := by decide +kernel
  refine ⟨ascii, oneLine, by decide, lines, ?_⟩
  refine (@overlong_lines_iff slip "  " 8 ascii oneLine (by decide)).2.2.1.1 ?_
  rw [lines]
  refine List.forall_mem_cons.2 ⟨?_, List.forall_mem_cons.2 ⟨?_, List.forall_mem_singleton.2 ?_⟩⟩
  · exact fun long => absurd long (by decide)
  · exact fun _ => ⟨"extraordinary".toList, by decide, by decide⟩
  · exact fun long => absurd long (by decide)

/-- With five characters a line, the first one ends in front of the two spaces, and what is left is
not cut although it has a space behind a word. -/
theorem slip_unwrapped :
    ¬∀ line ∈ (wrap slip 7 "  ").toList.splitOn '\n', LongIsWord 7 "  ".toList line := by
  have lines : (wrap slip 7 "  ").toList.splitOn '\n' =
      ["  first".toList, "   extraordinary one".toList] := by decide +kernel
  rw [lines]
  intro all
  obtain ⟨word, eq, apart⟩ := all "   extraordinary one".toList (by simp) (by decide)
  have same : word = " extraordinary one".toList := by
    have both : "   extraordinary one".toList = "  ".toList ++ " extraordinary one".toList := by decide
    exact (List.append_cancel_left (both.symm.trans eq)).symm
  exact apart (by rw [same]; decide)

end SheetCompiler.Text
