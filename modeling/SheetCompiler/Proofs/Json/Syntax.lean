import Mathlib.Data.List.DropRight
import SheetCompiler.Json.Writer
import SheetCompiler.Proofs.Json.Scalars

/-!
# JSON texts

The texts of a value are said by a grammar, with blanks in front of values, keys and closing signs
(`Written`). Each text of a value is read as the value (`parse_of_written`), and the two writers
write texts of the values they are given, if the scalars in these are proper (`Proper`,
`written_render`, `written_prettyAt`).
-/

namespace SheetCompiler.Json

def Spaces (cs : List Char) : Prop := ∀ c ∈ cs, isSpace c

/-- A value in an array with its text, and the blanks in front of it. -/
structure Item where
  before : List Char
  value : Json
  text : List Char

/-- A value in an object, with its key and the blanks in front of the key. -/
structure Member extends Item where
  beforeKey : List Char
  key : List Char

def Item.chars (i : Item) : List Char := i.before ++ i.text

def Member.chars (m : Member) : List Char :=
  m.beforeKey ++ (quoted (escape m.key) ++ ':' :: m.toItem.chars)

def Member.entry (m : Member) : List Char × Json := (escape m.key, m.value)

/-- The texts of a value. -/
inductive Written : Json → List Char → Prop where
  | null : Written .null ['n', 'u', 'l', 'l']
  | yes : Written (.bool true) ['t', 'r', 'u', 'e']
  | no : Written (.bool false) ['f', 'a', 'l', 's', 'e']
  | number {lexeme : List Char} (isNumber : IsNumber lexeme) : Written (.number lexeme) lexeme
  | string (cs : List Char) : Written (.string (escape cs)) (quoted (escape cs))
  | array {items : List Item} {gap : List Char} (spaces : Spaces gap)
      (spaced : ∀ i ∈ items, Spaces i.before) (written : ∀ i ∈ items, Written i.value i.text) :
      Written (.array (items.map (·.value)))
        ('[' :: ([','].intercalate (items.map (·.chars)) ++ (gap ++ [']'])))
  | object {members : List Member} {gap : List Char} (spaces : Spaces gap)
      (spaced : ∀ m ∈ members, Spaces m.beforeKey ∧ Spaces m.before)
      (written : ∀ m ∈ members, Written m.value m.text) :
      Written (.object (members.map (·.entry)))
        ('{' :: ([','].intercalate (members.map (·.chars)) ++ (gap ++ ['}'])))

/-! ### Blanks -/

theorem skipSpaces_append {gap rest : List Char} (spaces : Spaces gap)
    (stop : ∀ c ∈ rest.head?, isSpace c = false) : skipSpaces (gap ++ rest) = rest :=
  (Text.span_append spaces stop).2

theorem readValue_skipSpaces (fuel : Nat) (cs : List Char) :
    readValue fuel (skipSpaces cs) = readValue fuel cs := by
  cases fuel with
  | zero => rfl
  | succ fuel => rw [readValue, readValue, skipSpaces, skipSpaces, List.dropWhile_idempotent]

theorem readItems_skipSpaces (fuel : Nat) (cs : List Char) :
    readItems fuel (skipSpaces cs) = readItems fuel cs := by
  cases fuel with
  | zero => rfl
  | succ fuel => rw [readItems, readItems, readValue_skipSpaces]

theorem readMembers_skipSpaces (fuel : Nat) (cs : List Char) :
    readMembers fuel (skipSpaces cs) = readMembers fuel cs := by
  cases fuel with
  | zero => rfl
  | succ fuel => rw [readMembers, readMembers, skipSpaces, skipSpaces, List.dropWhile_idempotent]

/-! ### Reading -/

/-- The text is read as the value, whatever stands before and behind it. -/
def Reads (j : Json) (cs : List Char) : Prop :=
  ∀ (fuel : Nat) (gap rest : List Char), Spaces gap → EndsValue rest → 2 * cs.length ≤ fuel →
    readValue fuel (gap ++ (cs ++ rest)) = some (j, rest)

theorem isDigit_of_isSpace {c : Char} (space : isSpace c) : c.isDigit = false := by
  have ends : EndsValue [c] := fun d mem => Option.some.inj mem ▸ .inl space
  exact (ends.endsNumber c rfl).1

section

variable {rest gap : List Char} {mark : Char}

/-- Behind blanks, a comma or a closing sign ends a value. -/
theorem Spaces.endsValue (spaces : Spaces gap) (isMark : mark ∈ [',', ']', '}']) :
    EndsValue (gap ++ mark :: rest) := by
  intro c mem
  cases gap with
  | nil =>
    cases mem
    exact .inr isMark
  | cons _ gap =>
    cases mem
    exact .inl (spaces _ List.mem_cons_self)

theorem Spaces.skip (spaces : Spaces gap) (noSpace : isSpace mark = false) :
    skipSpaces (gap ++ mark :: rest) = mark :: rest :=
  skipSpaces_append spaces fun _ mem => Option.some.inj mem ▸ noSpace

/-- A number starts with a minus or a digit. -/
theorem IsNumber.exists_head {lexeme : List Char} (isNumber : IsNumber lexeme) :
    ∃ c cs, lexeme = c :: cs ∧ (c = '-' ∨ c.isDigit) := by
  obtain ⟨sign, _, isSign, ⟨whole, point, power, isWhole, -, -, rfl⟩, rfl⟩ := isNumber
  rcases isSign with rfl | rfl
  · obtain ⟨c, digits, rfl⟩ := List.exists_cons_of_ne_nil isWhole.1.1
    exact ⟨c, _, rfl, .inr (isWhole.1.2 c List.mem_cons_self)⟩
  · exact ⟨'-', _, rfl, .inl rfl⟩

/-- A value starts with a sign that is no blank and closes nothing. -/
theorem Written.exists_head {j : Json} {cs : List Char} (written : Written j cs) :
    ∃ c rest, cs = c :: rest ∧ isSpace c = false ∧ c ≠ ']' := by
  cases written with
  | number isNumber =>
    obtain ⟨c, cs, rfl, rfl | isDigit⟩ := isNumber.exists_head
    · exact ⟨'-', cs, rfl, by decide, by decide⟩
    · refine ⟨c, cs, rfl, ?_, ?_⟩
      · rw [Bool.eq_false_iff]
        intro space
        rw [isDigit_of_isSpace space] at isDigit
        cases isDigit
      · rintro rfl
        exact absurd isDigit (by decide)
  | _ => exact ⟨_, _, rfl, by decide, by decide⟩

end

/-- Blanks in front of a value do not matter. -/
theorem reads_cons {j : Json} {c : Char} {cs : List Char} (noSpace : isSpace c = false)
    (reads : ∀ (fuel : Nat) (rest : List Char), EndsValue rest → 2 * cs.length < fuel →
      readValue (fuel + 1) (c :: (cs ++ rest)) = some (j, rest)) : Reads j (c :: cs) := by
  intro fuel gap rest spaces ends enough
  rw [List.length_cons] at enough
  obtain ⟨fuel, rfl⟩ := Nat.exists_eq_add_of_le' (show 1 ≤ fuel by omega)
  rw [← readValue_skipSpaces, List.cons_append, spaces.skip noSpace]
  exact reads fuel rest ends (by omega)

/-- A number is told by its first character and ends where a value can end. -/
theorem reads_number {lexeme : List Char} (isNumber : IsNumber lexeme) :
    Reads (.number lexeme) lexeme := by
  obtain ⟨c, cs, rfl, noSpace, -⟩ := (Written.number isNumber).exists_head
  have front : c = '-' ∨ c.isDigit := by
    obtain ⟨d, ds, eq, front⟩ := isNumber.exists_head
    rwa [(List.cons.inj eq).1]
  refine reads_cons noSpace fun fuel rest ends _ => ?_
  have taken := takeNumber_append isNumber ends.endsNumber
  rw [readValue, skipSpaces, List.dropWhile_cons_of_neg (by simp [noSpace])]
  have front_ne : ∀ d, ¬(d = '-' ∨ d.isDigit) → ∀ ds, c :: (cs ++ rest) ≠ d :: ds :=
    fun d not ds eq => not ((List.cons.inj eq).1 ▸ front)
  split
  next eq => exact absurd eq (front_ne _ (by decide) _)
  next eq => exact absurd eq (front_ne _ (by decide) _)
  next eq => exact absurd eq (front_ne _ (by decide) _)
  next eq => exact absurd eq (front_ne _ (by decide) _)
  next eq => exact absurd eq (front_ne _ (by decide) _)
  next eq => exact absurd eq (front_ne _ (by decide) _)
  next => rw [← List.cons_append, taken]; rfl

/-- A string is told by its quote. -/
theorem reads_string (cs : List Char) : Reads (.string (escape cs)) (quoted (escape cs)) := by
  rw [quoted, List.cons_append]
  refine reads_cons (by decide) fun fuel rest _ _ => ?_
  have value : readValue (fuel + 1) ('"' :: (escape cs ++ ['"'] ++ rest)) =
      (takeString (escape cs ++ ['"'] ++ rest)).map fun p => (.string p.1, p.2) := by
    rw [readValue]
    rfl
  rw [value, List.append_assoc, List.singleton_append, takeString_escape, Option.map_some]

/-! ### Items and members -/

section

variable {fuel : Nat} {rest gap : List Char}

/-- The step: an item is read, then a comma goes on with the list and a bracket closes it. -/
theorem readItems_chars {i : Item} (spaced : Spaces i.before) (reads : Reads i.value i.text)
    (ends : EndsValue rest) (enough : 2 * i.chars.length ≤ fuel) :
    readItems (fuel + 1) (i.chars ++ rest) =
      match skipSpaces rest with
      | ',' :: cs => (readItems fuel cs).bind fun p => some (i.value :: p.1, p.2)
      | ']' :: cs => some ([i.value], cs)
      | _ => none := by
  rw [Item.chars, List.length_append] at enough
  have value := reads fuel i.before rest spaced ends (by omega)
  rw [readItems, Item.chars, List.append_assoc, value]
  rfl

theorem Member.chars_append (m : Member) : m.chars ++ rest =
    m.beforeKey ++ '"' :: (escape m.key ++ '"' :: ':' :: (m.before ++ (m.text ++ rest))) := by
  simp only [Member.chars, Item.chars, quoted, List.append_assoc, List.cons_append, List.nil_append]

/-- The step: a key, a colon and a value are read, then a comma goes on and a brace closes. -/
theorem readMembers_chars {m : Member} (spaced : Spaces m.beforeKey ∧ Spaces m.before)
    (reads : Reads m.value m.text) (ends : EndsValue rest) (enough : 2 * m.chars.length ≤ fuel) :
    readMembers (fuel + 1) (m.chars ++ rest) =
      match skipSpaces rest with
      | ',' :: cs => (readMembers fuel cs).bind fun p => some (m.entry :: p.1, p.2)
      | '}' :: cs => some ([m.entry], cs)
      | _ => none := by
  rw [Member.chars, Item.chars] at enough
  simp only [List.length_append, List.length_cons] at enough
  have value := reads fuel m.before rest spaced.2 ends (by omega)
  have key := takeString_escape m.key (':' :: (m.before ++ (m.text ++ rest)))
  have colon : ∀ cs, skipSpaces (':' :: cs) = ':' :: cs := fun cs => rfl
  rw [readMembers, m.chars_append, spaced.1.skip (by decide)]
  simp only [key, value, colon, Option.bind_eq_bind, Option.bind_some]
  rfl

/-- What reads one part behind another up to a mark reads all of them. -/
theorem read_intercalate {α β : Type} {read : Nat → List Char → Option (List β × List Char)}
    {chars : α → List Char} {value : α → β} {mark : Char} {parts : List α} (some : parts ≠ [])
    (last : ∀ i ∈ parts, ∀ fuel, 2 * (chars i).length ≤ fuel →
      read (fuel + 1) (chars i ++ (gap ++ mark :: rest)) = .some ([value i], rest))
    (next : ∀ i ∈ parts, ∀ fuel rest, 2 * (chars i).length ≤ fuel →
      read (fuel + 1) (chars i ++ ',' :: rest) =
        (read fuel rest).bind fun p => .some (value i :: p.1, p.2))
    (enough : 2 * ([','].intercalate (parts.map chars)).length < fuel) :
    read fuel ([','].intercalate (parts.map chars) ++ (gap ++ mark :: rest)) =
      .some (parts.map value, rest) := by
  induction parts generalizing fuel with
  | nil => exact absurd rfl some
  | cons i parts ih =>
    obtain ⟨fuel, rfl⟩ : ∃ n, fuel = n + 1 := ⟨fuel - 1, by omega⟩
    cases parts with
    | nil =>
      simp only [List.map_cons, List.map_nil, List.intercalate_singleton] at enough ⊢
      exact last i List.mem_cons_self fuel (by omega)
    | cons j parts =>
      rw [List.map_cons, List.map_cons, List.intercalate_cons_cons, ← List.map_cons] at enough ⊢
      rw [List.length_append, List.length_append, List.length_singleton] at enough
      rw [List.append_assoc, List.append_assoc, List.singleton_append,
        next i List.mem_cons_self fuel _ (by omega),
        ih (List.cons_ne_nil _ _) (fun k mem => last k (List.mem_cons_of_mem _ mem))
          (fun k mem => next k (List.mem_cons_of_mem _ mem)) (by omega)]
      rfl

/-- The run over the items of an array. -/
theorem readItems_intercalate {items : List Item} (some : items ≠ []) (spaces : Spaces gap)
    (spaced : ∀ i ∈ items, Spaces i.before) (reads : ∀ i ∈ items, Reads i.value i.text)
    (enough : 2 * ([','].intercalate (items.map (·.chars))).length < fuel) :
    readItems fuel ([','].intercalate (items.map (·.chars)) ++ (gap ++ ']' :: rest)) =
      .some (items.map (·.value), rest) := by
  refine read_intercalate some (fun i mem fuel enough => ?_) (fun i mem fuel rest enough => ?_) enough
  · rw [readItems_chars (spaced i mem) (reads i mem) (spaces.endsValue (by decide)) enough,
      spaces.skip (by decide)]
    rfl
  · rw [readItems_chars (spaced i mem) (reads i mem) (by rintro _ ⟨⟩; decide) enough]
    rfl

/-- The run over the members of an object. -/
theorem readMembers_intercalate {members : List Member} (some : members ≠ []) (spaces : Spaces gap)
    (spaced : ∀ m ∈ members, Spaces m.beforeKey ∧ Spaces m.before)
    (reads : ∀ m ∈ members, Reads m.value m.text)
    (enough : 2 * ([','].intercalate (members.map (·.chars))).length < fuel) :
    readMembers fuel ([','].intercalate (members.map (·.chars)) ++ (gap ++ '}' :: rest)) =
      .some (members.map (·.entry), rest) := by
  refine read_intercalate some (fun m mem fuel enough => ?_) (fun m mem fuel rest enough => ?_) enough
  · rw [readMembers_chars (spaced m mem) (reads m mem) (spaces.endsValue (by decide)) enough,
      spaces.skip (by decide)]
    rfl
  · rw [readMembers_chars (spaced m mem) (reads m mem) (by rintro _ ⟨⟩; decide) enough]
    rfl

end

/-! ### Values -/

/-- What is joined starts with its first part. -/
theorem exists_intercalate_cons {α : Type} (gap part : List α) (parts : List (List α)) :
    ∃ rest, gap.intercalate (part :: parts) = part ++ rest := by
  cases parts with
  | nil => exact ⟨[], by rw [List.intercalate_singleton, List.append_nil]⟩
  | cons next parts => exact ⟨_, by rw [List.intercalate_cons_cons, List.append_assoc]⟩

theorem readValue_bracket (fuel : Nat) (cs : List Char) :
    readValue (fuel + 1) ('[' :: cs) =
      match skipSpaces cs with
      | ']' :: cs => some (.array [], cs)
      | cs => (readItems fuel cs).map fun p => (.array p.1, p.2) := by
  rw [readValue]
  rfl

theorem readValue_brace (fuel : Nat) (cs : List Char) :
    readValue (fuel + 1) ('{' :: cs) =
      match skipSpaces cs with
      | '}' :: cs => some (.object [], cs)
      | cs => (readMembers fuel cs).map fun p => (.object p.1, p.2) := by
  rw [readValue]
  rfl

/-- An array is read if its items are. Without items, the bracket closes at once. -/
theorem reads_array {items : List Item} {gap : List Char} (spaces : Spaces gap)
    (spaced : ∀ i ∈ items, Spaces i.before) (written : ∀ i ∈ items, Written i.value i.text)
    (reads : ∀ i ∈ items, Reads i.value i.text) :
    Reads (.array (items.map (·.value)))
      ('[' :: ([','].intercalate (items.map (·.chars)) ++ (gap ++ [']']))) := by
  refine reads_cons (by decide) fun fuel rest _ enough => ?_
  rw [List.length_append] at enough
  rw [readValue_bracket, List.append_assoc, List.append_assoc, List.singleton_append]
  cases items with
  | nil =>
    rw [List.map_nil, List.intercalate_nil, List.nil_append, spaces.skip (by decide)]
    rfl
  | cons i items =>
    -- What stands first is the first item, and no closing bracket.
    split
    next closed =>
      obtain ⟨c, cs, text, noSpace, notClosing⟩ := (written i List.mem_cons_self).exists_head
      obtain ⟨others, eq⟩ := exists_intercalate_cons [','] i.chars (items.map (·.chars))
      rw [List.map_cons, eq, Item.chars, text, List.append_assoc, List.append_assoc,
        List.cons_append, (spaced i List.mem_cons_self).skip noSpace] at closed
      exact absurd (List.cons.inj closed).1 notClosing
    next =>
      rw [readItems_skipSpaces,
        readItems_intercalate (List.cons_ne_nil _ _) spaces spaced reads (by omega), Option.map_some]

/-- An object is read if its values are. Without members, the brace closes at once. -/
theorem reads_object {members : List Member} {gap : List Char} (spaces : Spaces gap)
    (spaced : ∀ m ∈ members, Spaces m.beforeKey ∧ Spaces m.before)
    (reads : ∀ m ∈ members, Reads m.value m.text) :
    Reads (.object (members.map (·.entry)))
      ('{' :: ([','].intercalate (members.map (·.chars)) ++ (gap ++ ['}']))) := by
  refine reads_cons (by decide) fun fuel rest _ enough => ?_
  rw [List.length_append] at enough
  rw [readValue_brace, List.append_assoc, List.append_assoc, List.singleton_append]
  cases members with
  | nil =>
    rw [List.map_nil, List.intercalate_nil, List.nil_append, spaces.skip (by decide)]
    rfl
  | cons m members =>
    split
    next closed =>
      obtain ⟨others, eq⟩ := exists_intercalate_cons [','] m.chars (members.map (·.chars))
      rw [List.map_cons, eq, List.append_assoc, m.chars_append,
        (spaced m List.mem_cons_self).1.skip (by decide)] at closed
      exact absurd (List.cons.inj closed).1 (by decide)
    next =>
      rw [readMembers_skipSpaces,
        readMembers_intercalate (List.cons_ne_nil _ _) spaces spaced reads (by omega),
        Option.map_some]

/-- Each text of a value is read as the value. -/
theorem Written.reads {j : Json} {cs : List Char} (written : Written j cs) : Reads j cs := by
  induction written with
  | null => exact reads_cons (by decide) fun _ _ _ _ => by rw [readValue]; rfl
  | yes => exact reads_cons (by decide) fun _ _ _ _ => by rw [readValue]; rfl
  | no => exact reads_cons (by decide) fun _ _ _ _ => by rw [readValue]; rfl
  | number isNumber => exact reads_number isNumber
  | string cs => exact reads_string cs
  | array spaces spaced written reads => exact reads_array spaces spaced written reads
  | object spaces spaced _ reads => exact reads_object spaces spaced reads

/-- A text of a value is read as the value. -/
theorem parse_of_written {j : Json} {cs : List Char} (written : Written j cs) :
    parse (String.ofList cs) = some j := by
  have read := written.reads (2 * cs.length + 2) [] [] (by simp [Spaces]) (by simp [EndsValue])
    (by omega)
  rw [List.nil_append, List.append_nil] at read
  rw [parse, String.toList_ofList, ofChars, read]
  rfl

/-! ### Writing -/

/-- Numbers have the shape of numbers, and strings and keys are escaped texts. -/
inductive Proper : Json → Prop where
  | null : Proper .null
  | bool (b : Bool) : Proper (.bool b)
  | number {lexeme : List Char} (isNumber : IsNumber lexeme) : Proper (.number lexeme)
  | string (cs : List Char) : Proper (.string (escape cs))
  | array {items : List Json} (proper : ∀ j ∈ items, Proper j) : Proper (.array items)
  | object {members : List (String × Json)} (proper : ∀ m ∈ members, Proper m.2) :
      Proper (ofMembers members)

theorem spaces_nil : Spaces [] := fun _ mem => absurd mem List.not_mem_nil

theorem spaces_newLine (level : Nat) : Spaces (newLine level) := by
  intro c mem
  rcases List.mem_cons.1 mem with rfl | blank
  · decide
  · rw [List.eq_of_mem_replicate blank]
    decide

section

variable {gap before beforeKey : List Char} (text : Json → List Char)

/-- An array is written with blanks in front of its items. -/
theorem written_array {items : List Json} (spaces : Spaces gap) (spaced : Spaces before)
    (written : ∀ j ∈ items, Written j (text j)) :
    Written (.array items)
      ('[' :: ([','].intercalate (items.map fun j => before ++ text j) ++ (gap ++ [']']))) := by
  have all := @Written.array (items.map fun j => ⟨before, j, text j⟩) gap spaces
    (List.forall_mem_map.2 fun _ _ => spaced) (List.forall_mem_map.2 written)
  rwa [List.map_map, List.map_map, show (·.value) ∘ (fun j => Item.mk before j (text j)) = id from rfl,
    List.map_id] at all

/-- An object is written with blanks in front of its keys and values. -/
theorem written_object {members : List (String × Json)} (spaces : Spaces gap)
    (spacedKey : Spaces beforeKey) (spaced : Spaces before)
    (written : ∀ m ∈ members, Written m.2 (text m.2)) :
    Written (ofMembers members)
      ('{' :: ([','].intercalate (members.map fun m =>
        beforeKey ++ (quoted (escape m.1.toList) ++ ':' :: (before ++ text m.2))) ++
          (gap ++ ['}']))) := by
  have all := @Written.object (members.map fun m => ⟨⟨before, m.2, text m.2⟩, beforeKey, m.1.toList⟩)
    gap spaces (List.forall_mem_map.2 fun _ _ => ⟨spacedKey, spaced⟩) (List.forall_mem_map.2 written)
  rwa [List.map_map, List.map_map] at all

end

/-- Parts written one behind the other with commas between them. -/
theorem eq_intercalate {α : Type} {f : List α → List Char} {g : α → List Char} (none : f [] = [])
    (last : ∀ x, f [x] = g x) (next : ∀ x y l, f (x :: y :: l) = g x ++ ',' :: f (y :: l))
    (l : List α) : f l = [','].intercalate (l.map g) := by
  induction l with
  | nil => exact none
  | cons x l ih =>
    cases l with
    | nil => rw [last, List.map_cons, List.map_nil, List.intercalate_singleton]
    | cons y l =>
      rw [next, ih, List.map_cons, List.map_cons, List.map_cons, List.intercalate_cons_cons,
        List.append_assoc, List.singleton_append]

theorem renderItems_eq (items : List Json) :
    renderItems items = [','].intercalate (items.map render) :=
  eq_intercalate rfl (fun _ => rfl) (fun _ _ _ => rfl) items

theorem renderMembers_eq (members : List (List Char × Json)) :
    renderMembers members = [','].intercalate (members.map fun m => quoted m.1 ++ ':' :: m.2.render) :=
  eq_intercalate rfl (fun _ => rfl) (fun _ _ _ => rfl) members

theorem prettyItems_eq (level : Nat) (items : List Json) :
    prettyItems level items =
      [','].intercalate (items.map fun j => newLine level ++ prettyAt level j) :=
  eq_intercalate rfl (fun _ => rfl) (fun _ _ _ => rfl) items

theorem prettyMembers_eq (level : Nat) (members : List (List Char × Json)) :
    prettyMembers level members = [','].intercalate (members.map fun m =>
      newLine level ++ (quoted m.1 ++ ':' :: ([' '] ++ prettyAt level m.2))) :=
  eq_intercalate (f := prettyMembers level) rfl (fun _ => List.append_assoc _ _ _)
    (fun _ _ _ => congrArg (· ++ _) (List.append_assoc _ _ _)) members

/-- The text without blanks is one of the value, by induction on the value. -/
theorem written_render {j : Json} (proper : j.Proper) : Written j j.render := by
  induction proper with
  | null => exact .null
  | bool b => cases b; exacts [.no, .yes]
  | number isNumber => exact .number isNumber
  | string cs => exact .string cs
  | array _ written =>
    rw [render, renderItems_eq]
    exact written_array render spaces_nil spaces_nil written
  | object _ written =>
    rw [ofMembers, render, renderMembers_eq, List.map_map]
    simp only [Function.comp_def]
    exact written_object render spaces_nil spaces_nil spaces_nil written

/-- So is the text with line breaks, at any level. Empty arrays and objects have none. -/
theorem written_prettyAt {j : Json} (proper : j.Proper) (level : Nat) :
    Written j (prettyAt level j) := by
  induction proper generalizing level with
  | null => exact .null
  | bool b => cases b; exacts [.no, .yes]
  | number isNumber => exact .number isNumber
  | string cs => exact .string cs
  | @array items _ written =>
    cases items with
    | nil => exact written_array (prettyAt level) spaces_nil spaces_nil fun k mem => written k mem level
    | cons j items =>
      rw [prettyAt, prettyItems_eq, List.cons_append, List.cons_append, List.append_assoc]
      · exact written_array (prettyAt (level + 1)) (spaces_newLine level) (spaces_newLine (level + 1))
          fun k mem => written k mem (level + 1)
      · exact List.cons_ne_nil _ _
  | @object members _ written =>
    cases members with
    | nil =>
      exact written_object (prettyAt level) spaces_nil spaces_nil spaces_nil fun k mem => written k mem level
    | cons m members =>
      have blank : Spaces [' '] := by simp [Spaces, isSpace]
      rw [ofMembers, prettyAt, prettyMembers_eq, List.cons_append, List.cons_append,
        List.append_assoc, List.map_map]
      · simp only [Function.comp_def]
        exact written_object (prettyAt (level + 1)) (spaces_newLine level) (spaces_newLine (level + 1)) blank
          fun k mem => written k mem (level + 1)
      · exact List.cons_ne_nil _ _

theorem parse_compactText {j : Json} (proper : j.Proper) : parse j.compactText = some j :=
  parse_of_written (written_render proper)

theorem parse_prettyText {j : Json} (proper : j.Proper) : parse j.prettyText = some j :=
  parse_of_written (written_prettyAt proper 0)

end SheetCompiler.Json
