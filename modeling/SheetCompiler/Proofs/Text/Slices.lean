import SheetCompiler.Proofs.Text.Boundaries
import SheetCompiler.Proofs.Text.Wrapping

/-!
# Wrapping by byte offsets

`turn` cuts off a line as one does who knows offsets in bytes only: it looks for a space by its
offset, and slices what is left there. It has no result if a slice is not between two characters.
`Sliced` takes turn after turn up to the last one. That comes for every text, no slice fails on the
way, and what was cut off are the pieces of the text (`sliced_iff`). Only the space at a cut is
dropped, so the pieces joined by spaces are the text (`intercalate_pieces`).
-/

namespace SheetCompiler.Text

variable {cs before after : List Char} {sep : Char} {width : Nat}

/-! ### Slices -/

/-- The parts before and after a byte offset, unless it is inside a character or behind the end. -/
def cutAt : Nat → List Char → Option (List Char × List Char)
  | 0, cs => some ([], cs)
  | _ + 1, [] => none
  | n + 1, c :: cs =>
    if c.utf8Size ≤ n + 1 then
      (cutAt (n + 1 - c.utf8Size) cs).map fun (before, after) => (c :: before, after)
    else none

/-- A text can be sliced behind any of its characters. -/
theorem cutAt_byteSize (before after : List Char) :
    cutAt (byteSize before) (before ++ after) = some (before, after) := by
  induction before with
  | nil => rw [byteSize_nil, List.nil_append, cutAt]
  | cons c before ih =>
    have positive := c.utf8Size_pos
    obtain ⟨n, size⟩ : ∃ n, byteSize (c :: before) = n + 1 :=
      ⟨byteSize (c :: before) - 1, by rw [byteSize_cons]; omega⟩
    have rest : n + 1 - c.utf8Size = byteSize before := by
      rw [← size, byteSize_cons]
      omega
    have fits : c.utf8Size ≤ n + 1 := by
      rw [← size, byteSize_cons]
      omega
    rw [size, List.cons_append, cutAt, if_pos fits, rest, ih]
    rfl

/-- A slice cuts the text in two, at its offset. -/
theorem cutAt_eq_some {n : Nat} (h : cutAt n cs = some (before, after)) :
    cs = before ++ after ∧ byteSize before = n := by
  fun_induction cutAt n cs generalizing before with
  | case1 cs =>
    cases h
    exact ⟨rfl, rfl⟩
  | case2 => cases h
  | case3 n c cs fits ih =>
    obtain ⟨⟨first, rest⟩, cut, eq⟩ := Option.map_eq_some_iff.1 h
    cases eq
    obtain ⟨rfl, size⟩ := ih cut
    refine ⟨rfl, ?_⟩
    rw [byteSize_cons, size]
    omega
  | case4 => cases h

/-- A slice exists exactly at the positions between characters. -/
theorem isSome_cutAt_iff (s : String) (n : Nat) :
    (cutAt n s.toList).isSome ↔ (⟨n⟩ : String.Pos.Raw).IsValid s := by
  rw [isValid_iff, Option.isSome_iff_exists]
  constructor
  · rintro ⟨⟨before, after⟩, cut⟩
    exact ⟨before, after, cutAt_eq_some cut⟩
  · rintro ⟨before, after, eq, rfl⟩
    exact ⟨(before, after), eq ▸ cutAt_byteSize before after⟩

/-! ### Offsets -/

/-- The characters of a text that starts at an offset, each with its own. -/
def offsetsFrom (start : Nat) : List Char → List (Nat × Char)
  | [] => []
  | c :: cs => (start, c) :: offsetsFrom (start + c.utf8Size) cs

/-- Where a character stands for the first time. -/
def firstOffset (sep : Char) (cs : List Char) : Option Nat :=
  ((offsetsFrom 0 cs).find? (·.2 == sep)).map Prod.fst

/-- Where a character stands for the last time. -/
def lastOffset (sep : Char) (cs : List Char) : Option Nat :=
  ((offsetsFrom 0 cs).reverse.find? (·.2 == sep)).map Prod.fst

/-- The first offset of a character is the size of what is before it. -/
theorem find?_offsetsFrom (start : Nat) : ((offsetsFrom start cs).find? (·.2 == sep)).map Prod.fst =
    (cutFirst sep cs).map fun parts => start + byteSize parts.1 := by
  induction cs generalizing start with
  | nil => rfl
  | cons c cs ih =>
    rw [offsetsFrom, cutFirst]
    by_cases same : c = sep
    · simp [same]
    · rw [if_neg same, List.find?_cons_of_neg (by simpa using same), ih]
      simp [Function.comp_def, byteSize_cons, Nat.add_assoc]

/-- So is the last one. -/
theorem find?_reverse_offsetsFrom (start : Nat) :
    ((offsetsFrom start cs).reverse.find? (·.2 == sep)).map Prod.fst =
      (cutLast sep cs).map fun parts => start + byteSize parts.1 := by
  induction cs generalizing start with
  | nil => rfl
  | cons c cs ih =>
    rw [offsetsFrom, cutLast, List.reverse_cons, List.find?_append, Option.map_or, ih]
    cases cutLast sep cs with
    | some parts => simp [byteSize_cons, Nat.add_assoc]
    | none => by_cases same : c = sep <;> simp [same]

theorem firstOffset_eq (sep : Char) (cs : List Char) :
    firstOffset sep cs = (cutFirst sep cs).map fun parts => byteSize parts.1 := by
  simp only [firstOffset, find?_offsetsFrom, Nat.zero_add]

theorem lastOffset_eq (sep : Char) (cs : List Char) :
    lastOffset sep cs = (cutLast sep cs).map fun parts => byteSize parts.1 := by
  simp only [lastOffset, find?_reverse_offsetsFrom, Nat.zero_add]

/-- The offset of a character is the size of those before it. -/
theorem getElem?_offsetsFrom (start i : Nat) : (offsetsFrom start cs)[i]? =
    cs[i]?.map fun c => (start + byteSize (cs.take i), c) := by
  induction cs generalizing start i with
  | nil => rfl
  | cons c cs ih =>
    cases i with
    | zero => rfl
    | succ i =>
      rw [offsetsFrom, List.getElem?_cons_succ, List.getElem?_cons_succ, ih, List.take_succ_cons,
        byteSize_cons, Nat.add_assoc]

/-! ### The loop -/

/-- The first characters, one more than a line holds, up to the offset of the one behind them; all
of them if there is none. -/
def window (width : Nat) (rest : List Char) : Option (List Char) :=
  match (offsetsFrom 0 rest)[width + 1]? with
  | some (stop, _) => (cutAt stop rest).map Prod.fst
  | none => some rest

/-- Where to cut what is left: at the last space of the window, or else at the first of all, unless
that leaves nothing before it. -/
def cutOffset (window rest : List Char) : Option Nat :=
  ((lastOffset ' ' window).or (firstOffset ' ' rest)).filter (0 < ·)

/-- What a turn of the loop does. -/
inductive Turn where
  /-- Nothing more is cut off. -/
  | last
  | cut (piece rest : List Char)
deriving DecidableEq, Repr

/-- One turn, unless a slice is not between characters. -/
def turn (width : Nat) (rest : List Char) : Option Turn :=
  if byteSize rest ≤ width then some .last
  else do
    let window ← window width rest
    match cutOffset window rest with
    | none => return .last
    | some stop =>
      let (piece, _) ← cutAt stop rest
      let (_, rest) ← cutAt (stop + 1) rest
      return .cut piece rest

/-- What all the turns give, from the first to the last one. -/
inductive Sliced (width : Nat) : List Char → List (List Char) → Prop
  | last {rest : List Char} (stops : turn width rest = some .last) : Sliced width rest [rest]
  | cut {rest piece after : List Char} {parts : List (List Char)}
    (goes : turn width rest = some (.cut piece after)) (others : Sliced width after parts) :
    Sliced width rest (piece :: parts)

/-- The window can be sliced, and holds one character more than a line. -/
theorem window_eq (width : Nat) (cs : List Char) :
    window width cs = some (cs.take (width + 1)) := by
  rw [window, getElem?_offsetsFrom]
  cases next : cs[width + 1]? with
  | some c =>
    have cut := cutAt_byteSize (cs.take (width + 1)) (cs.drop (width + 1))
    rw [List.take_append_drop] at cut
    simp only [Option.map_some, Nat.zero_add, cut]
  | none =>
    have short := List.getElem?_eq_none_iff.1 next
    simp only [Option.map_none, List.take_of_length_le short]

/-- The offset to cut at is where the next piece ends. -/
theorem cutOffset_eq (width : Nat) (cs : List Char) : cutOffset (cs.take (width + 1)) cs =
    (nextPiece width cs).map fun parts => byteSize parts.1 := by
  have offset : (lastOffset ' ' (cs.take (width + 1))).or (firstOffset ' ' cs) =
      (cutForWidth width cs).map fun parts => byteSize parts.1 := by
    rw [lastOffset_eq, firstOffset_eq, cutForWidth]
    cases cutLast ' ' (cs.take (width + 1)) <;> rfl
  have positive : ∀ parts : List Char × List Char,
      decide (0 < byteSize parts.1) = !parts.1.isEmpty := by
    rintro ⟨_ | ⟨c, before⟩, after⟩
    · rfl
    · simpa using byteSize_pos (List.cons_ne_nil c before)
  rw [cutOffset, offset, nextPiece, Option.filter_map]
  exact congrArg (Option.map _) (congrArg (Option.filter · _) (funext positive))

theorem turn_of_fits (fits : byteSize cs ≤ width) : turn width cs = some .last := by
  rw [turn, if_pos fits]

theorem turn_of_uncut (long : ¬byteSize cs ≤ width) (uncut : nextPiece width cs = none) :
    turn width cs = some .last := by
  rw [turn, if_neg long, window_eq, Option.bind_eq_bind, Option.bind_some, cutOffset_eq, uncut]
  rfl

/-- A turn cuts off the next piece and drops the space behind it; both slices are between
characters. -/
theorem turn_of_cut (long : ¬byteSize cs ≤ width)
    (found : nextPiece width cs = some (before, after)) : turn width cs = some (.cut before after) := by
  have text := nextPiece_eq_append found
  have piece : cutAt (byteSize before) cs = some (before, ' ' :: after) := by
    rw [text, cutAt_byteSize]
  -- The space takes one byte.
  have rest : cutAt (byteSize before + 1) cs = some (before ++ [' '], after) := by
    have behind := cutAt_byteSize (before ++ [' ']) after
    rwa [List.append_assoc, List.singleton_append, ← text, byteSize_append] at behind
  rw [turn, if_neg long, window_eq, Option.bind_eq_bind, Option.bind_some, cutOffset_eq, found]
  simp only [Option.map_some, piece, rest, Option.bind_eq_bind, Option.bind_some]
  rfl

/-- The turns come to an end, with all slices between characters, and they give the pieces. -/
theorem sliced_pieces (width : Nat) (cs : List Char) : Sliced width cs (pieces width cs) := by
  fun_induction pieces width cs with
  | case1 cs fits => exact .last (turn_of_fits fits)
  | case2 cs long before after found ih => exact .cut (turn_of_cut long found) ih
  | case3 cs long uncut => exact .last (turn_of_uncut long uncut)

/-- The turns give one list of pieces only. -/
theorem Sliced.unique {run run' : List (List Char)} (h : Sliced width cs run)
    (h' : Sliced width cs run') : run = run' := by
  induction h generalizing run' with
  | last stops =>
    cases h' with
    | last => rfl
    | cut goes => cases stops.symm.trans goes
  | cut goes others ih =>
    cases h' with
    | last stops => cases stops.symm.trans goes
    | cut goes' others' =>
      cases goes.symm.trans goes'
      rw [ih others']

/-- The turns give the pieces of the text, and nothing else. -/
theorem sliced_iff {run : List (List Char)} : Sliced width cs run ↔ run = pieces width cs := by
  refine ⟨fun h => h.unique (sliced_pieces width cs), ?_⟩
  rintro rfl
  exact sliced_pieces width cs

/-- The spaces between the pieces are all that is missing from them. -/
theorem intercalate_pieces (width : Nat) (cs : List Char) :
    [' '].intercalate (pieces width cs) = cs := by
  fun_induction pieces width cs with
  | case1 cs fits => rw [List.intercalate_singleton]
  | case2 cs long before after found ih =>
    obtain ⟨next, others, eq⟩ := List.exists_cons_of_ne_nil (pieces_ne_nil width after)
    rw [eq, List.intercalate_cons_cons, ← eq, ih, List.append_assoc, List.singleton_append,
      ← nextPiece_eq_append found]
  | case3 cs long found => rw [List.intercalate_singleton]

/-- **Nothing is lost.** A slice is possible exactly between characters. Whatever the text, the width
and the start of the lines, the turns over byte offsets come to an end without a slice that fails.
The wrapped text is made of the pieces they give, each behind the start, and the pieces joined by
single spaces are the text. -/
theorem wrap_rejoins (text : String) (maxLength : Nat) (start : String) :
    (∀ (s : String) (n : Nat), (cutAt n s.toList).isSome ↔ (⟨n⟩ : String.Pos.Raw).IsValid s) ∧
    ∃ parts : List (List Char),
      (∀ run, Sliced (max (maxLength - start.utf8ByteSize) 1) text.toList run ↔ run = parts) ∧
      wrap text maxLength start = joined "\n" (parts.map fun part => start ++ String.ofList part) ∧
      joined " " (parts.map String.ofList) = text := by
  refine ⟨isSome_cutAt_iff, _, fun run => sliced_iff, ?_, ?_⟩
  · rw [wrap, byteSize_toList]
  · have whole := intercalate_pieces (max (maxLength - start.utf8ByteSize) 1) text.toList
    rw [← String.toList_inj]
    simpa [joined, Function.comp_def] using whole

end SheetCompiler.Text
