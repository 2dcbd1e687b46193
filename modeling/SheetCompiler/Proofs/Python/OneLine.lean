import SheetCompiler.Proofs.Python.StringLiterals
import SheetCompiler.Proofs.Python.Substitution
import SheetCompiler.Proofs.Text.Lines

/-!
# Expressions take one line

Texts are escaped, numbers and punctuation have characters of their own, and a name that stands in a
formula is a word. What is left are the identifiers of the alias table: where these take one line
(`AliasTable.OneLine`), so does every translation (`Scope.oneLine_formula`). Parameters that are put
in for inputs must take one line too (`oneLine_substituteInputs`).
-/

namespace SheetCompiler

open Text

/-- The identifiers of the table take one line. -/
structure AliasTable.OneLine (t : AliasTable) : Prop where
  bound : ∀ key b, t.binding? key = some b → Text.OneLine b.identifier.toList
  renamed : ∀ name identifier, Assoc.find? name t.renames = some identifier →
    Text.OneLine identifier.toList

theorem AliasTable.oneLine_fresh (t : AliasTable) (key : String) :
    Text.OneLine (t.fresh (identifierOfKey key)).toList :=
  oneLine_of_class (f := isIdentifierChar) (by decide) (by decide)
    fun _ => isIdentifierChar_of_mem_fresh

namespace AliasTable.OneLine

variable {t : AliasTable} (oneLine : t.OneLine)

include oneLine

/-- Renaming puts in an identifier of the table, or nothing. -/
theorem rename {name : String} (h : Text.OneLine name.toList) :
    Text.OneLine (t.rename name).toList := by
  unfold AliasTable.rename
  cases found : Assoc.find? name t.renames with
  | none => exact h
  | some identifier => exact oneLine.renamed name identifier found

/-- The step: what is resolved takes one line, and so do the identifiers afterwards. -/
theorem resolve (r : Reference) (current : Option String) :
    Text.OneLine (t.resolve r current).1.toList ∧ (t.resolve r current).2.OneLine := by
  obtain ⟨b, bound, eq⟩ | ⟨-, eq⟩ := t.resolve_cases r current
  · rw [eq]
    exact ⟨oneLine.bound _ b bound, oneLine⟩
  · rw [eq]
    refine ⟨t.oneLine_fresh _, fun key b h => ?_, fun name identifier h => ?_⟩
    · rw [binding?_synthesize] at h
      split at h
      · cases h
        exact t.oneLine_fresh _
      · exact oneLine.bound key b h
    · rw [renames_synthesize] at h
      exact oneLine.renamed name identifier h

/-- The run over all references. -/
theorem resolveAll (refs : List (Reference × Option String)) :
    (∀ identifier ∈ (AliasTable.resolveAll refs t).1, Text.OneLine identifier.toList) ∧
      (AliasTable.resolveAll refs t).2.OneLine := by
  induction refs generalizing t with
  | nil => exact ⟨nofun, oneLine⟩
  | cons x refs ih =>
    obtain ⟨first, table⟩ := oneLine.resolve x.1 x.2
    obtain ⟨others, after⟩ := ih table
    exact ⟨List.forall_mem_cons.2 ⟨first, others⟩, after⟩

end AliasTable.OneLine

namespace Python

/-! ### Literals -/

/-- Line ends in a text are escaped. -/
theorem oneLine_stringLiteral (s : String) : OneLine (stringLiteral s).toList := by
  obtain ⟨q, suits, eq⟩ := stringChars_eq s.toList
  have quote : OneLine [q] := by
    rcases suits.quote with rfl | rfl <;> decide
  have inside : OneLine (s.toList.flatMap (escapeFor q)) := notMem_inside suits
  rw [stringLiteral, String.toList_ofList, eq, ← List.singleton_append, oneLine_append,
    oneLine_append]
  exact ⟨⟨quote, inside⟩, quote⟩

theorem oneLine_of_numeric {cs : List Char} (h : Number.Numeric cs) : OneLine cs :=
  oneLine_of_class (f := Number.isNumeric) (by decide) (by decide) h

theorem oneLine_floatLiteral (x : Float) : OneLine (floatLiteral x).toList := by
  unfold floatLiteral
  split
  · decide
  · split
    · split <;> decide
    · exact oneLine_of_numeric (by simpa [Number.Layout.text] using Number.Numeric.layout _ x)

/-- Whatever a cell holds, its literal takes one line. -/
theorem oneLine_valueLiteral (asDate : Bool) (v : CellValue) :
    OneLine (valueLiteral asDate v).toList := by
  have date : ∀ x, OneLine ("ex_datetime(" ++ floatLiteral x ++ ")").toList := by
    intro x
    rw [oneLine_toList_append, oneLine_toList_append]
    exact ⟨⟨by decide, oneLine_floatLiteral x⟩, by decide⟩
  have words : OneLine "None".toList ∧ OneLine "True".toList ∧ OneLine "False".toList := by decide
  cases v with
  | empty | error => exact words.1
  | boolean b =>
    cases b with
    | true => exact words.2.1
    | false => exact words.2.2
  | number x =>
    cases asDate with
    | true => exact date x
    | false => exact oneLine_floatLiteral x
  | date t => exact date _
  | string s => exact oneLine_stringLiteral s

theorem oneLine_tuple {items : List String} (h : ∀ item ∈ items, OneLine item.toList) :
    OneLine (tuple items).toList := by
  have many : OneLine (joined ", " items).toList := oneLine_joined (by decide) h
  unfold tuple
  split
  next item =>
    rw [oneLine_toList_append, oneLine_toList_append]
    exact ⟨⟨by decide, h item (List.mem_singleton_self item)⟩, by decide⟩
  next =>
    rw [oneLine_toList_append, oneLine_toList_append]
    exact ⟨⟨by decide, many⟩, by decide⟩

/-! ### Formulas -/

theorem Symbols.oneLine_qualify (s : Symbols) {identifier : String}
    (h : OneLine identifier.toList) : OneLine (s.qualify identifier).toList := by
  unfold qualify
  split
  · exact h
  · rw [oneLine_toList_append]
    exact ⟨by decide, h⟩

/-- A name that can stand in a formula. -/
theorem oneLine_word {word : List Char} (h : Scan.isSheetWord word ∨ Scan.IsCell word) :
    OneLine word := by
  rcases h with name | cell
  · cases word with
    | nil => exact oneLine_nil
    | cons c cs =>
      simp only [Scan.isSheetWord, Bool.and_eq_true, List.all_eq_true] at name
      refine oneLine_cons.2 ⟨⟨?_, ?_⟩, ?_⟩
      · rintro rfl
        exact absurd name.1 (by decide)
      · rintro rfl
        exact absurd name.1 (by decide)
      · exact oneLine_of_class (f := fun c => isIdentifierChar c || c == '.') (by decide)
          (by decide) name.2
  · obtain ⟨colMark, letters, rowMark, digits, rfl, ⟨-, upper⟩, -, digit⟩ := cell
    have marked : ∀ fixed : Bool, OneLine (Address.mark fixed) := by decide
    simp only [oneLine_append]
    exact ⟨marked _, oneLine_of_class (by decide) (by decide) upper, marked _,
      oneLine_of_class (by decide) (by decide) digit⟩

theorem oneLine_of_isSign {c : Char} (h : isSign c) : OneLine [c] :=
  oneLine_of_class (f := isSign) (by decide) (by decide) fun d mem => by
    rwa [List.mem_singleton.1 mem]

/-- The piece takes one line; of punctuation this is known elsewhere. -/
def Piece.OneLine : Piece → Prop
  | .sign _ => True
  | p => Text.OneLine p.chars

theorem Piece.oneLine_of_chars {p : Piece} (h : Text.OneLine p.chars) : p.OneLine := by
  cases p with
  | sign => trivial
  | code | member | text => exact h

/-- A word, or the identifier that it is renamed to. -/
theorem Scope.oneLine_name (scope : Scope) {t : AliasTable} (h : t.OneLine) {n : String}
    (word : OneLine n.toList) : OneLine (scope.name t n).toList := by
  unfold Scope.name
  dsimp only
  split
  · exact word
  · split
    · decide
    · split
      · decide
      · exact scope.symbols.oneLine_qualify (h.rename word)

/-- Each kind of piece takes one line. -/
theorem Scope.writes_oneLine (scope : Scope) :
    scope.Writes AliasTable.OneLine Piece.OneLine where
  resolve t r h := (h.resolve r scope.sheet).2
  sign _ := trivial
  text content := by
    have literal := oneLine_stringLiteral content
    rwa [stringLiteral, String.toList_ofList] at literal
  relation := Piece.oneLine_of_chars (by decide)
  null := Piece.oneLine_of_chars (by decide)
  number digits percent h := oneLine_of_numeric (Number.Numeric.numberLiteral h percent)
  name t n h word := by
    refine Piece.oneLine_of_chars ?_
    rw [chars_namePiece]
    exact scope.oneLine_name h (oneLine_word word)
  range t r h := by
    refine Piece.oneLine_of_chars ?_
    rw [chars_symbolsPiece]
    exact scope.symbols.oneLine_qualify (h.resolve r scope.sheet).1

/-- A formula takes one line if the identifiers of the table do. -/
theorem Scope.oneLine_formula (scope : Scope) {f : Formula} (wf : f.WellFormed) {t : AliasTable}
    (h : t.OneLine) : OneLine (scope.formula f t).1.toList := by
  rw [← scope.write_formulaPieces]
  refine oneLine_flatMap fun p mem => ?_
  have piece := scope.writes_oneLine.formula wf h p mem
  cases p with
  | sign c => exact oneLine_of_isSign ((scope.spaced_formulaPieces f t).isSign_of_mem mem)
  | code | member | text => exact piece

/-! ### Inputs -/

/-- The run over all tokens: what is put in for them takes one line. -/
theorem oneLine_replaceAll {steps : List (List Char × List Char)} {cs : List Char}
    (tokens : ∀ step ∈ steps, step.1 ≠ [] ∧ OneLine step.2) (h : OneLine cs) :
    OneLine (replaceAll steps cs) := by
  induction steps generalizing cs with
  | nil => exact h
  | cons step steps ih =>
    obtain ⟨nonempty, replacement⟩ := tokens step List.mem_cons_self
    refine ih (fun other mem => tokens other (List.mem_cons_of_mem step mem)) ?_
    exact oneLine_of_subset (fun c => mem_replaceToken nonempty) h replacement

/-- Putting in inputs whose parameters take one line leaves the expression on its line. -/
theorem oneLine_substituteInputs (t : AliasTable) {inputs : List (String × String)}
    (keys : ∀ input ∈ inputs, input.1 ≠ "")
    (parameters : ∀ input ∈ inputs, OneLine input.2.toList) {s : String} (h : OneLine s.toList) :
    OneLine (substituteInputs t inputs s).toList := by
  rw [substituteInputs_eq]
  refine oneLine_replaceAll (fun step mem => ?_) h
  obtain ⟨input, hinput, replacement, token⟩ := mem_replacements mem
  refine ⟨?_, ?_⟩
  · rcases token with suggested | key
    · rw [suggested]
      exact (isToken_suggested input.1).ne_nil
    · rw [key]
      exact fun empty => keys input hinput (String.toList_eq_nil_iff.1 empty)
  · rw [replacement, oneLine_append]
    exact ⟨by decide, parameters input hinput⟩

end Python

end SheetCompiler
