import SheetCompiler.Proofs.Block.Soundness
import SheetCompiler.Proofs.Python.Retranslation

/-!
# What loop variables capture

In the body of a comprehension a loop variable is a name among the names of the formula, told from
them by its spelling. Where no name of the formulas has that spelling, the body is the translation
of the first formula with loop variables in the places of the cells that move
(`Scope.enter_formulaParts`). Names may begin with an underscore, though, and one that is spelled
like a loop variable is taken for it. `Block.names_kept_iff` says which names these are.
-/

namespace SheetCompiler

/-! ### The words of a formula -/

mutual

/-- The plain names of a term and the functions that it calls, in written order. -/
def Term.words : Term → List String
  | .name n => [n]
  | .call function arguments => function :: Expression.wordsOf arguments
  | .group items => Expression.wordsOf items
  | .negate operand => operand.words
  | .number .. | .text _ | .range _ | .null => []

def Expression.words : Expression → List String
  | .last t => t.words
  | .link t _ rest => t.words ++ rest.words

def Expression.wordsOf : List Expression → List String
  | [] => []
  | e :: es => e.words ++ Expression.wordsOf es

end

/-- The plain names of a formula and the functions that it calls, in written order. -/
def Formula.words (f : Formula) : List String := Expression.wordsOf f.expressions

mutual

/-- Only cells are blanked out of a shape, so its words are those of the term. -/
theorem Term.words_shape (sheet : String) (t : Term) : (t.shape sheet).words = t.words := by
  match t with
  | .number .. | .text _ | .name _ | .range _ | .null => simp [Term.shape, Term.words]
  | .call function arguments =>
    simp [Term.shape, Term.words, Expression.wordsOf_shape sheet arguments]
  | .group items => simp [Term.shape, Term.words, Expression.wordsOf_shape sheet items]
  | .negate operand => simp [Term.shape, Term.words, operand.words_shape sheet]

theorem Expression.words_shape (sheet : String) (e : Expression) :
    (e.shape sheet).words = e.words := by
  match e with
  | .last t => simp [Expression.shape, Expression.words, t.words_shape sheet]
  | .link t op rest =>
    simp [Expression.shape, Expression.words, t.words_shape sheet, rest.words_shape sheet]

theorem Expression.wordsOf_shape (sheet : String) (es : List Expression) :
    Expression.wordsOf (Expression.shapeOfList sheet es) = Expression.wordsOf es := by
  match es with
  | [] => rfl
  | e :: es =>
    simp [Expression.shapeOfList, Expression.wordsOf, e.words_shape sheet,
      Expression.wordsOf_shape sheet es]

end

/-- Formulas of one shape have the same words. -/
theorem Formula.words_eq_of_shape_eq {sheet : String} {f g : Formula}
    (shape : f.shape sheet = g.shape sheet) : f.words = g.words := by
  have words := congrArg Formula.words shape
  simpa [Formula.words, Formula.shape, Expression.wordsOf_shape] using words

/-- The choices that are left over are some of those that were given. -/
theorem Term.mem_of_mem_fill {t : Term} {choices : List (Option String)} {choice : Option String}
    (mem : choice ∈ (t.fill choices).2) : choice ∈ choices := by
  rw [@Term.fill_snd "" t choices] at mem
  exact List.mem_of_mem_drop mem

theorem Expression.mem_of_mem_fill {e : Expression} {choices : List (Option String)}
    {choice : Option String} (mem : choice ∈ (e.fill choices).2) : choice ∈ choices := by
  rw [@Expression.fill_snd "" e choices] at mem
  exact List.mem_of_mem_drop mem

/-- There is one identifier for each reference. -/
theorem AliasTable.length_resolveAll (refs : List (Reference × Option String)) (t : AliasTable) :
    (resolveAll refs t).1.length = refs.length := by
  induction refs generalizing t with
  | nil => rfl
  | cons x refs ih => simp [resolveAll, ih]

namespace Python

/-! ### Loop variables in the places of cells -/

namespace Part

/-- Takes one choice for the place of a single cell: a variable to write there, or none to leave
it. -/
def enterOne : Part → List (Option String) → Part × List (Option String)
  | piece p, choices => (piece p, choices)
  | mention x, choices =>
    if x.1.isMultiCell then (mention x, choices)
    else
      match choices with
      | some name :: rest => (piece (.code name.toList), rest)
      | none :: rest => (mention x, rest)
      | [] => (mention x, [])

/-- Writes variables in the places of single cells. The choices left over come back. -/
def enter : List Part → List (Option String) → List Part × List (Option String)
  | [], choices => ([], choices)
  | part :: parts, choices =>
    let (part, choices) := part.enterOne choices
    let (parts, choices) := enter parts choices
    (part :: parts, choices)

/-- Writes variables in several texts, one after the other. -/
def enterAll : List (List Part) → List (Option String) → List (List Part) × List (Option String)
  | [], choices => ([], choices)
  | item :: items, choices =>
    let (item, choices) := enter item choices
    let (items, choices) := enterAll items choices
    (item :: items, choices)

@[simp] theorem enter_nil (choices : List (Option String)) : enter [] choices = ([], choices) := rfl

@[simp] theorem enter_cons_piece (p : Piece) (parts : List Part) (choices : List (Option String)) :
    enter (piece p :: parts) choices =
      (piece p :: (enter parts choices).1, (enter parts choices).2) := rfl

theorem enter_pieces (ps : List Piece) (choices : List (Option String)) :
    enter (ps.map piece) choices = (ps.map piece, choices) := by
  induction ps with
  | nil => rfl
  | cons p ps ih => rw [List.map_cons, enter_cons_piece, ih]

/-- The second text gets the choices that the first one leaves. -/
theorem enter_append (parts parts' : List Part) (choices : List (Option String)) :
    enter (parts ++ parts') choices =
      ((enter parts choices).1 ++ (enter parts' (enter parts choices).2).1,
        (enter parts' (enter parts choices).2).2) := by
  induction parts generalizing choices with
  | nil => rfl
  | cons part parts ih => simp [enter, ih]

/-- Separators take no choice. -/
theorem enter_join (separator : String) (items : List (List Part))
    (choices : List (Option String)) :
    enter (join separator items) choices =
      (join separator (enterAll items choices).1, (enterAll items choices).2) := by
  unfold join
  induction items generalizing choices with
  | nil => rfl
  | cons item items ih =>
    cases items with
    | nil => simp [enterAll, List.intercalate_singleton]
    | cons next items =>
      rw [List.intercalate_cons_cons, enter_append, enter_append, enter_pieces, ih]
      simp only [enterAll]
      rw [List.intercalate_cons_cons]

end Part

namespace Scope

variable {inside outside : Scope} {t : AliasTable}

mutual

/-- A filled term is written as the term is written elsewhere, with variables in the places of the
cells that are filled. -/
theorem enter_termParts (sheet : inside.sheet = outside.sheet) (e : Term)
    (choices : List (Option String))
    (names : ∀ n ∈ e.words, inside.namePiece t n = outside.namePiece t n)
    (locals : ∀ n, some n ∈ choices → inside.namePiece t n = .code n.toList) :
    Part.enter (outside.termParts t e) choices =
      (inside.termParts t (e.fill choices).1, (e.fill choices).2) := by
  match e with
  | .number .. | .text _ | .null => simp [termParts, termPieces, Term.fill]
  | .name n =>
    have same := names n (by simp [Term.words])
    simp [termParts, termPieces, Term.fill, same]
  | .range r =>
    -- Only single cells have a choice, and only a choice puts in a variable.
    by_cases multi : r.isMultiCell
    · simp [termParts, Term.fill, Part.enter, Part.enterOne, multi, sheet]
    · cases choices with
      | nil => simp [termParts, Term.fill, Part.enter, Part.enterOne, multi, sheet]
      | cons choice rest =>
        cases choice with
        | none => simp [termParts, Term.fill, Part.enter, Part.enterOne, multi, sheet]
        | some n =>
          have written := locals n (by simp)
          simp [termParts, termPieces, Term.fill, Part.enter, Part.enterOne, multi, written]
  | .call function [] =>
    have same := names function (by simp [Term.words])
    simp [termParts, termPieces, Term.fill, Expression.fillList, Part.enter_pieces, same]
  | .call function (e :: es) =>
    have same := names function (by simp [Term.words])
    have items := enter_listParts sheet (e :: es) choices
      (fun n mem => names n (List.mem_cons_of_mem _ mem)) locals
    simp only [Expression.fillList] at items
    simp [termParts, Term.fill, Expression.fillList, Part.enter_append, Part.enter_join, items,
      same]
  | .group items =>
    have written := enter_listParts sheet items choices names locals
    simp [termParts, Term.fill, Part.enter_append, Part.enter_join, written]
  | .negate operand =>
    have written := enter_termParts sheet operand choices names locals
    simp [termParts, Term.fill, written]

/-- Operands take their choices from left to right, as filling does. -/
theorem enter_expressionParts (sheet : inside.sheet = outside.sheet) (e : Expression)
    (choices : List (Option String))
    (names : ∀ n ∈ e.words, inside.namePiece t n = outside.namePiece t n)
    (locals : ∀ n, some n ∈ choices → inside.namePiece t n = .code n.toList) :
    Part.enter (outside.expressionParts t e) choices =
      (inside.expressionParts t (e.fill choices).1, (e.fill choices).2) := by
  match e with
  | .last operand =>
    have written := enter_termParts sheet operand choices names locals
    simpa [expressionParts, Expression.fill] using written
  | .link operand op rest =>
    have first := enter_termParts sheet operand choices
      (fun n mem => names n (List.mem_append_left _ mem)) locals
    have others := enter_expressionParts sheet rest (operand.fill choices).2
      (fun n mem => names n (List.mem_append_right _ mem))
      (fun n mem => locals n (Term.mem_of_mem_fill mem))
    simp [expressionParts, Expression.fill, Part.enter_append, Part.enter_pieces, first, others]

/-- Arguments take their choices one after the other. -/
theorem enter_listParts (sheet : inside.sheet = outside.sheet) (es : List Expression)
    (choices : List (Option String))
    (names : ∀ n ∈ Expression.wordsOf es, inside.namePiece t n = outside.namePiece t n)
    (locals : ∀ n, some n ∈ choices → inside.namePiece t n = .code n.toList) :
    Part.enterAll (outside.listParts t es) choices =
      (inside.listParts t (Expression.fillList es choices).1,
        (Expression.fillList es choices).2) := by
  match es with
  | [] => rfl
  | e :: es =>
    have first := enter_expressionParts sheet e choices
      (fun n mem => names n (List.mem_append_left _ mem)) locals
    have others := enter_listParts sheet es (e.fill choices).2
      (fun n mem => names n (List.mem_append_right _ mem))
      (fun n mem => locals n (Expression.mem_of_mem_fill mem))
    simp [listParts, Expression.fillList, Part.enterAll, first, others]

end

/-- A filled formula is written as the formula is written elsewhere, with variables in the places of
the cells that are filled. -/
theorem enter_formulaParts (sheet : inside.sheet = outside.sheet) (f : Formula)
    (choices : List (Option String))
    (names : ∀ n ∈ f.words, inside.namePiece t n = outside.namePiece t n)
    (locals : ∀ n, some n ∈ choices → inside.namePiece t n = .code n.toList) :
    inside.formulaParts t (f.fill choices) =
      (Part.enter (outside.formulaParts t f) choices).1 := by
  rw [formulaParts, formulaParts, Part.enter_join,
    enter_listParts sheet f.expressions choices names locals]
  rfl

/-! ### Names that a scope takes for its own -/

variable (scope : Scope) {n : String}

theorem namePiece_of_mem (own : n ∈ scope.locals) : scope.namePiece t n = .code n.toList := by
  simp [namePiece, own]

/-- A name that is no local is written as if there were none. -/
theorem namePiece_of_notMem (other : n ∉ scope.locals) :
    scope.namePiece t n = ({ scope with locals := [] } : Scope).namePiece t n := by
  simp only [namePiece, List.contains_eq_mem, other, List.not_mem_nil]

theorem name_of_mem (own : n ∈ scope.locals) : scope.name t n = n := by
  simp [name, own]

theorem name_of_notMem (other : n ∉ scope.locals) :
    scope.name t n = ({ scope with locals := [] } : Scope).name t n := by
  simp only [name, List.contains_eq_mem, other, List.not_mem_nil]

end Scope

/-- Only a global is written in a way that begins with an underscore. -/
theorem Symbols.qualify_eq_iff {symbols : Symbols} {v identifier : String} {cs : List Char}
    (underscore : v.toList = '_' :: cs) :
    symbols.qualify identifier = v ↔ symbols.contains identifier ∧ identifier = v := by
  unfold qualify
  split
  next global => simp [global]
  next member =>
    simp only [member, Bool.false_eq_true, false_and, iff_false]
    intro eq
    rw [← eq, String.toList_append] at underscore
    exact absurd (List.cons.inj underscore).1 (by decide)

/-- A name that is no local is written with a leading underscore only if it has been renamed to such
a global. -/
theorem Scope.name_eq_iff {scope : Scope} {t : AliasTable} {n v : String} {cs : List Char}
    (other : n ∉ scope.locals) (underscore : v.toList = '_' :: cs) :
    scope.name t n = v ↔ scope.symbols.contains (t.rename n) ∧ t.rename n = v := by
  -- the truth values, as they are read and as they are written, do not begin like this
  have plain : ∀ word ∈ ["TRUE", "FALSE", "True", "False"], word ≠ v := by
    rintro word mem rfl
    simp only [List.mem_cons, List.not_mem_nil, or_false] at mem
    rcases mem with rfl | rfl | rfl | rfl <;> simp at underscore
  simp only [Scope.name, List.contains_eq_mem, other, decide_false, Bool.false_eq_true, if_false]
  split
  next eq =>
    rw [eq]
    exact iff_of_false (plain "True" (by simp)) fun h => plain "TRUE" (by simp) h.2
  next =>
    split
    next eq =>
      rw [eq]
      exact iff_of_false (plain "False" (by simp)) fun h => plain "FALSE" (by simp) h.2
    next => exact Symbols.qualify_eq_iff underscore

end Python

namespace Block

open Python

/-- The variables of a comprehension over some number of ranges, for their cells and their rows. -/
def boundNames (n : Nat) : List String := (List.range n).map loopName ++ (List.range n).map rowName

/-- All variables of a comprehension begin with an underscore. -/
theorem underscore_of_mem_boundNames {n : Nat} {v : String} (mem : v ∈ boundNames n) :
    ∃ cs, v.toList = '_' :: cs := by
  simp only [boundNames, List.mem_append, List.mem_map] at mem
  rcases mem with ⟨g, -, rfl⟩ | ⟨g, -, rfl⟩
  · exact ⟨'v' :: Nat.toDigits 10 g, by simp [loopName]⟩
  · exact ⟨'r' :: Nat.toDigits 10 g, by simp [rowName]⟩

/-- A name is written like a variable if it has been renamed to a global that is spelled so. -/
theorem name_mem_boundNames_iff {scope : Scope} {t : AliasTable} {n : String} {k : Nat}
    (other : n ∉ scope.locals) :
    scope.name t n ∈ boundNames k ↔
      scope.symbols.contains (t.rename n) ∧ t.rename n ∈ boundNames k := by
  constructor
  · intro mem
    obtain ⟨cs, underscore⟩ := underscore_of_mem_boundNames mem
    obtain ⟨global, eq⟩ := (Scope.name_eq_iff other underscore).1 rfl
    exact ⟨global, eq ▸ mem⟩
  · rintro ⟨global, mem⟩
    obtain ⟨cs, underscore⟩ := underscore_of_mem_boundNames mem
    rw [(Scope.name_eq_iff other underscore).2 ⟨global, rfl⟩]
    exact mem

/-- Inside a comprehension a name is written as it is elsewhere, and not like a variable, unless it
is a loop variable or has been renamed to a global that is spelled like a variable. -/
theorem name_kept_iff (scope : Scope) (t : AliasTable) (n : String) {k : Nat}
    (locals : scope.locals = (List.range k).map loopName) :
    scope.name t n = ({ scope with locals := [] } : Scope).name t n ∧
        scope.name t n ∉ boundNames k ↔
      n ∉ scope.locals ∧
        ¬ (scope.symbols.contains (t.rename n) ∧ t.rename n ∈ boundNames k) := by
  by_cases own : n ∈ scope.locals
  · have bound : n ∈ boundNames k := List.mem_append_left _ (locals ▸ own)
    have written := scope.name_of_mem (t := t) own
    simp [written, own, bound]
  · have written := scope.name_of_notMem (t := t) own
    rw [← name_mem_boundNames_iff own, and_iff_right written, and_iff_right own]

/-- The names that are filled in are loop variables. -/
theorem mem_locals_of_mem_choices {p : Pattern} {n : String} (mem : some n ∈ p.choices) :
    n ∈ (List.range p.groups.length).map loopName := by
  obtain ⟨offset, hoffset, hname⟩ := List.mem_map.1 mem
  obtain ⟨o, rfl, rfl⟩ := Option.map_eq_some_iff.1 hname
  have group : o ∈ p.groups := by simpa [Pattern.groups] using hoffset
  exact List.mem_map.2 ⟨_, List.mem_range.2 (List.idxOf_lt_length_iff.2 group), rfl⟩

/-- **Which names a comprehension captures.** All formulas of the block have the same words. One of
them is written inside as it is outside, and not read as a variable there, if and only if it is no
loop variable itself, and has not been renamed to a global that is spelled like a variable. Where no
word is a loop variable, the body is the first formula's translation with loop variables in the
places of the cells that move. -/
theorem names_kept_iff {b : Block} {symbols : Symbols} {t t' : AliasTable} {python : String}
    (h : b.comprehension symbols t = (.ok python, t')) :
    ∃ p body ranges, b.pattern = .ok p ∧ python = loop body ranges ∧
      ranges.length = p.groups.length ∧
      (∀ i j text, b.cell? i j = some text →
        ∃ f, Formula.parseSingle text = .ok f ∧ f.words = p.formula.words) ∧
      let locals := (List.range p.groups.length).map loopName
      let inside : Scope := { symbols, sheet := some b.sheet, locals }
      let outside : Scope := { symbols, sheet := some b.sheet }
      let last := (outside.formula p.formula t').2
      (∀ n ∈ p.formula.words,
        inside.name t n = outside.name t n ∧ inside.name t n ∉ boundNames p.groups.length ↔
        n ∉ locals ∧ ¬ (symbols.contains (t.rename n) ∧ t.rename n ∈ boundNames p.groups.length)) ∧
      Written symbols last (outside.formulaParts last p.formula) (outside.formula p.formula t').1 ∧
      Written symbols last (inside.formulaParts last p.body) body ∧
      ((∀ n ∈ p.formula.words, n ∉ locals) → inside.formulaParts last p.body =
        (Part.enter (outside.formulaParts last p.formula) p.choices).1) := by
  simp only [comprehension] at h
  split at h
  next => simp at h
  next p hp =>
    split at h
    next => simp at h
    next ranges t₁ hiter =>
      obtain ⟨refs, parallel, hranges, -⟩ := iterables_eq_ok hiter
      simp only [Prod.mk.injEq, Except.ok.injEq] at h
      obtain ⟨rfl, rfl⟩ := h
      refine ⟨p, _, ranges, hp, rfl, ?_, fun i j text cell => ?_, ?_⟩
      · rw [hranges, List.length_map, AliasTable.length_resolveAll, List.length_map,
          parallel.length_eq]
      · obtain ⟨f, hf, shape, -⟩ := pattern_cell hp (mem_cells cell)
        exact ⟨f, hf, Formula.words_eq_of_shape_eq shape⟩
      · intro locals inside outside last
        refine ⟨fun n _ => ?_, ?_, ?_, fun free => ?_⟩
        · exact name_kept_iff inside t n rfl
        · exact outside.written_formula p.formula (AliasTable.after_refl _)
        · exact inside.written_formula p.body (outside.after_formula p.formula _)
        · have sheet : inside.sheet = outside.sheet := rfl
          exact Scope.enter_formulaParts sheet p.formula p.choices
            (fun n mem => inside.namePiece_of_notMem (free n mem))
            (fun n mem => inside.namePiece_of_mem (mem_locals_of_mem_choices mem))

/-- A column of sizes, with a name for the rate. -/
def rates : Block where
  sheet := "Calc"
  origin := { row := 0, col := 2 }
  rows := [["=ABS(B1)*Rate"], ["=ABS(B2)*Rate"]]

/-- The function and the renamed name are kept beside a loop variable. -/
theorem names_kept_iff_rates :
    let t : AliasTable := { renames := [("Rate", "Yearly")] }
    let inside : Scope := { sheet := some "Calc", locals := ["_v0"] }
    let outside : Scope := { sheet := some "Calc" }
    (rates.comprehension {} t).1 = .ok
      "tuple(tuple(ABS(_v0)*self.Yearly for _v0 in _r0) for _r0 in self.CalcB1B2)" ∧
    ∃ p, rates.pattern = .ok p ∧ p.formula.words = ["ABS", "Rate"] ∧
      (∀ n ∈ ["ABS", "Rate"],
        inside.name t n = outside.name t n ∧ inside.name t n ∉ ["_v0", "_r0"]) ∧
      ∃ last, inside.formulaParts last p.body =
        (Part.enter (outside.formulaParts last p.formula) p.choices).1 := by
  intro t inside outside
  have run : (rates.comprehension {} t).1 = .ok
      "tuple(tuple(ABS(_v0)*self.Yearly for _v0 in _r0) for _r0 in self.CalcB1B2)" :=
    Fallible.toOption_eq_some_iff.1 (by decide +kernel)
  have seen : rates.pattern.toOption.map (fun p => (p.formula.words, p.groups.length)) =
      some (["ABS", "Rate"], 1) := by decide +kernel
  have pair : ∀ x : Except BlockError String × AliasTable, ∀ python, x.1 = .ok python →
      x = (.ok python, x.2) := fun x python h => by rw [← h]
  obtain ⟨p, -, -, hp, -, -, -, kept, -, -, body⟩ := names_kept_iff (pair _ _ run)
  obtain ⟨words, one⟩ : p.formula.words = ["ABS", "Rate"] ∧ p.groups.length = 1 := by
    simpa [hp, Except.toOption] using seen
  have locals : (List.range 1).map loopName = ["_v0"] := by decide +kernel
  have bound : boundNames 1 = ["_v0", "_r0"] := by decide +kernel
  have apart : ∀ n ∈ ["ABS", "Rate"], n ∉ ["_v0"] ∧ t.rename n ∉ ["_v0", "_r0"] := by
    decide +kernel
  rw [words, one, locals] at kept body
  rw [bound] at kept
  refine ⟨run, p, hp, words, fun n mem => (kept n mem).2 ⟨(apart n mem).1, fun h => ?_⟩, _,
    body fun n mem => (apart n mem).1⟩
  exact (apart n mem).2 h.2

/-- A column of products whose second factor has the name of a loop variable. -/
def captured : Block where
  sheet := "Calc"
  origin := { row := 0, col := 2 }
  rows := [["=B1*_v0"], ["=B2*_v0"]]

/-- The second factor is written as an attribute elsewhere, and is the first factor here. -/
theorem name_captured :
    captured.Rectangular ∧
    (captured.comprehension {} {}).1 = .ok
      "tuple(tuple(_v0*_v0 for _v0 in _r0) for _r0 in self.CalcB1B2)" ∧
    (Scope.formulaText { sheet := some "Calc" } "=B1*_v0" {}).toOption.map (·.1) =
      some "self.CalcB1*self._v0" ∧
    ∃ p, captured.pattern = .ok p ∧ "_v0" ∈ p.formula.words ∧
      let locals := (List.range p.groups.length).map loopName
      ({ sheet := some "Calc", locals } : Scope).name {} "_v0" ≠
        ({ sheet := some "Calc" } : Scope).name {} "_v0" := by
  have seen : captured.pattern.toOption.map (fun p => (p.formula.words, p.groups.length)) =
      some (["_v0"], 1) := by decide +kernel
  obtain ⟨p, hp, eq⟩ := Option.map_eq_some_iff.1 seen
  obtain ⟨words, one⟩ := Prod.mk.inj eq
  refine ⟨⟨1, by decide, by decide⟩, Fallible.toOption_eq_some_iff.1 (by decide +kernel),
    by decide +kernel, p, Fallible.toOption_eq_some_iff.1 hp, by simp [words], ?_⟩
  rw [one]
  decide +kernel

end Block

end SheetCompiler
