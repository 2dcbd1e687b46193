import SheetCompiler.Text.Split

/-!
# Lines

A line feed ends a line of a Python module, and so does a carriage return, unless a line feed
follows it, which then ends the line for both. A text without either takes one line (`OneLine`). A
text is cut into its lines by `pythonLines`, and what ends in a line feed can be cut by itself
(`pythonLines_append`).
-/

namespace SheetCompiler.Text

/-- No line ends within the text. -/
def OneLine (cs : List Char) : Prop := '\n' ∉ cs ∧ '\r' ∉ cs

instance (cs : List Char) : Decidable (OneLine cs) := inferInstanceAs (Decidable (_ ∧ _))

variable {cs left right : List Char}

@[simp] theorem oneLine_nil : OneLine [] := by simp [OneLine]

@[simp] theorem oneLine_cons {c : Char} :
    OneLine (c :: cs) ↔ (c ≠ '\n' ∧ c ≠ '\r') ∧ OneLine cs := by
  simp only [OneLine, List.mem_cons, not_or, ne_eq, eq_comm]
  exact and_and_and_comm

@[simp] theorem oneLine_append : OneLine (left ++ right) ↔ OneLine left ∧ OneLine right := by
  simp only [OneLine, List.mem_append, not_or]
  exact and_and_and_comm

theorem oneLine_toList_append {s t : String} :
    OneLine (s ++ t).toList ↔ OneLine s.toList ∧ OneLine t.toList := by
  rw [String.toList_append, oneLine_append]

/-- Characters of a class without line ends take one line. -/
theorem oneLine_of_class {f : Char → Bool} (feed : f '\n' = false) (carriage : f '\r' = false)
    (h : ∀ c ∈ cs, f c) : OneLine cs :=
  ⟨fun mem => absurd (h _ mem) (by simp [feed]), fun mem => absurd (h _ mem) (by simp [carriage])⟩

/-- Characters of two texts on one line take one line. -/
theorem oneLine_of_subset (h : ∀ c ∈ cs, c ∈ left ∨ c ∈ right) (first : OneLine left)
    (second : OneLine right) : OneLine cs :=
  ⟨fun mem => (h _ mem).elim first.1 second.1, fun mem => (h _ mem).elim first.2 second.2⟩

/-- Parts that take one line do so one behind the other. -/
theorem oneLine_flatMap {α : Type} {f : α → List Char} {xs : List α}
    (h : ∀ x ∈ xs, OneLine (f x)) : OneLine (xs.flatMap f) := by
  induction xs with
  | nil => simp
  | cons x xs ih =>
    rw [List.flatMap_cons, oneLine_append]
    exact ⟨h x List.mem_cons_self, ih fun y mem => h y (List.mem_cons_of_mem x mem)⟩

/-- Parts that take one line do so with a separator between them. -/
theorem oneLine_joined {separator : String} (apart : OneLine separator.toList) {parts : List String}
    (h : ∀ part ∈ parts, OneLine part.toList) : OneLine (joined separator parts).toList := by
  have written : (joined separator parts).toList =
      separator.toList.intercalate (parts.map String.toList) := by simp [joined]
  rw [written]
  induction parts with
  | nil => simp
  | cons part parts ih =>
    have first := h part List.mem_cons_self
    have others := ih (fun other mem => h other (List.mem_cons_of_mem part mem)) (by simp [joined])
    cases parts with
    | nil => simpa [List.intercalate_singleton] using first
    | cons next parts =>
      rw [List.map_cons, List.map_cons, List.intercalate_cons_cons, oneLine_append, oneLine_append]
      exact ⟨⟨first, apart⟩, others⟩

/-! ### Cutting a text -/

/-- The lines of a text as Python reads it. The last one need not be ended. -/
def pythonLines : List Char → List (List Char)
  | [] => []
  | c :: cs =>
    if c = '\r' ∧ cs.head? = some '\n' then pythonLines cs
    else if c = '\n' ∨ c = '\r' then [] :: pythonLines cs
    else
      match pythonLines cs with
      | [] => [[c]]
      | line :: lines => (c :: line) :: lines

/-- Every text that is not empty has a line. -/
theorem pythonLines_ne_nil (nonempty : cs ≠ []) : pythonLines cs ≠ [] := by
  induction cs with
  | nil => exact absurd rfl nonempty
  | cons c cs ih =>
    unfold pythonLines
    split
    next both =>
      refine ih fun empty => ?_
      rw [empty] at both
      cases both.2
    next =>
      split
      · nofun
      · split <;> nofun

/-- A text that takes one line is the beginning of the first line of whatever follows it. -/
theorem pythonLines_oneLine_append (nonempty : left ≠ []) (oneLine : OneLine left)
    (right : List Char) :
    pythonLines (left ++ right) =
      (left ++ (pythonLines right).headD []) :: (pythonLines right).tail := by
  induction left with
  | nil => exact absurd rfl nonempty
  | cons c left ih =>
    obtain ⟨⟨feed, carriage⟩, oneLine⟩ := oneLine_cons.1 oneLine
    have first : pythonLines (c :: (left ++ right)) =
        (c :: (pythonLines (left ++ right)).headD []) :: (pythonLines (left ++ right)).tail := by
      rw [pythonLines, if_neg (by simp [carriage]), if_neg (by simp [feed, carriage])]
      cases pythonLines (left ++ right) <;> rfl
    rw [List.cons_append, first]
    cases left with
    | nil => rfl
    | cons d left =>
      rw [ih (List.cons_ne_nil d left) oneLine, List.headD_cons, List.tail_cons]
      rfl

/-- One line and its end are one line. -/
theorem pythonLines_oneLine (nonempty : left ≠ []) (oneLine : OneLine left) :
    pythonLines (left ++ ['\n']) = [left] := by
  have feed : pythonLines ['\n'] = [[]] := by decide
  rw [pythonLines_oneLine_append nonempty oneLine, feed, List.headD_cons, List.append_nil]
  rfl

/-- A line feed ends a line, whatever follows. -/
theorem pythonLines_append (left right : List Char) :
    pythonLines (left ++ '\n' :: right) = pythonLines (left ++ ['\n']) ++ pythonLines right := by
  induction left with
  | nil => rfl
  | cons c left ih =>
    have next : (left ++ '\n' :: right).head? = (left ++ ['\n']).head? := by cases left <;> rfl
    have ended : pythonLines (left ++ ['\n']) ≠ [] := pythonLines_ne_nil (by simp)
    rw [List.cons_append, List.cons_append, pythonLines, pythonLines, next, ih]
    split
    · rfl
    · split
      · rfl
      · obtain ⟨line, lines, eq⟩ := List.exists_cons_of_ne_nil ended
        rw [eq]
        rfl

end SheetCompiler.Text
