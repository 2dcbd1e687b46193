import SheetCompiler.Proofs.Python.Pieces

/-!
# Where references stand

While a formula is translated the table grows, and so each reference is resolved in a table of its
own. What is written for it can be told from any later table, though, since bindings stay
(`AliasTable.After.resolve_fst`). So a translation is a text with a place for every reference
(`Part`), and one table fills all the places (`Scope.written_formula`).
-/

namespace SheetCompiler

namespace AliasTable

/-- The table has all bindings of an earlier one, and the same sheets and renames. -/
structure After (t' t : AliasTable) : Prop where
  bindings : t'.Extends t
  sheets : t'.sheets = t.sheets
  renames : t'.renames = t.renames

variable {t t' t'' : AliasTable}

theorem after_refl (t : AliasTable) : t.After t := ⟨t.extends_refl, rfl, rfl⟩

theorem After.trans (h : t''.After t') (h' : t'.After t) : t''.After t :=
  ⟨h.bindings.trans h'.bindings, h.sheets.trans h'.sheets, h.renames.trans h'.renames⟩

/-- Resolving a reference makes a later table. -/
theorem after_resolve (t : AliasTable) (r : Reference) (current : Option String) :
    (t.resolve r current).2.After t := by
  refine ⟨t.extends_resolve r current, sheets_resolve r current, ?_⟩
  obtain ⟨b, -, eq⟩ | ⟨-, eq⟩ := t.resolve_cases r current <;> simp [eq]

theorem after_resolveAll (refs : List (Reference × Option String)) (t : AliasTable) :
    (resolveAll refs t).2.After t :=
  resolveAll_induction (P := fun t' => t'.After t) t.after_refl
    fun t' x _ h => (t'.after_resolve x.1 x.2).trans h

/-- A later table gives a reference the identifier that it got. -/
theorem After.resolve_fst {r : Reference} {current : Option String}
    (after : t'.After (t.resolve r current).2) :
    (t'.resolve r current).1 = (t.resolve r current).1 := by
  have key : t'.key r current = t.key r current := by
    rw [key_congr after.sheets, key_congr (sheets_resolve r current)]
  obtain ⟨b, bound, eq⟩ | ⟨unbound, eq⟩ := t.resolve_cases r current
  · rw [eq] at after ⊢
    rw [resolve_of_bound (key ▸ after.bindings _ b bound)]
  · rw [eq] at after ⊢
    have new : (t.synthesize (t.key r current)).2.binding? (t.key r current) =
        some ⟨t.fresh (identifierOfKey (t.key r current)), .synthesized⟩ := by simp
    have bound := after.bindings _ _ new
    rw [← key] at bound
    rw [resolve_of_bound bound, key, synthesize_fst]

theorem After.rename (after : t'.After t) (name : String) : t'.rename name = t.rename name := by
  rw [AliasTable.rename, AliasTable.rename, after.renames]

end AliasTable

namespace Python

open AliasTable
open Piece (write signs)

/-- A piece of an expression, or the place of a reference that is seen from a sheet. -/
inductive Part where
  | piece (p : Piece)
  | mention (x : Reference × Option String)
deriving DecidableEq, Repr

namespace Part

variable (symbols : Symbols) (t : AliasTable)

/-- The reference that has its place here. -/
def mention? : Part → Option (Reference × Option String)
  | piece _ => none
  | mention x => some x

/-- The identifiers of a table in the places of references. -/
def fill : Part → Piece
  | piece p => p
  | mention x => symbols.piece (t.resolve x.1 x.2).1

/-- What parts are as a text. -/
def text (parts : List Part) : List Char := write (parts.map (fill symbols t))

/-- Lists of parts with a separator between them. -/
def join (separator : String) (items : List (List Part)) : List Part :=
  ((signs separator).map piece).intercalate items

/-- Expressions as a tuple. -/
def tuple : List (List Part) → List Part
  | [item] => piece (.sign '(') :: (item ++ [piece (.sign ','), piece (.sign ')')])
  | items => piece (.sign '(') :: (join ", " items ++ [piece (.sign ')')])

@[simp] theorem fill_piece (p : Piece) : (piece p).fill symbols t = p := rfl

@[simp] theorem fill_comp_piece : fill symbols t ∘ piece = id := rfl

theorem map_fill_piece (ps : List Piece) : (ps.map piece).map (fill symbols t) = ps := by simp

@[simp] theorem mention?_piece (p : Piece) : (piece p).mention? = none := rfl

@[simp] theorem mentions_cons_piece (p : Piece) (parts : List Part) :
    (piece p :: parts).filterMap mention? = parts.filterMap mention? := rfl

@[simp] theorem mentions_cons_mention (x : Reference × Option String) (parts : List Part) :
    (mention x :: parts).filterMap mention? = x :: parts.filterMap mention? := rfl

theorem mentions_piece (ps : List Piece) : (ps.map piece).filterMap mention? = [] := by simp

/-- Joined parts are filled one by one. -/
@[simp] theorem map_fill_join (separator : String) (items : List (List Part)) :
    (join separator items).map (fill symbols t) =
      Piece.join separator (items.map (·.map (fill symbols t))) := by
  unfold join Piece.join
  induction items with
  | nil => rfl
  | cons item items ih =>
    cases items with
    | nil => simp [List.intercalate_singleton]
    | cons next items =>
      rw [List.intercalate_cons_cons, List.map_append, List.map_append, ih, map_fill_piece,
        List.map_cons, List.map_cons, List.map_cons, List.intercalate_cons_cons]

/-- Separators hold no references. -/
@[simp] theorem mentions_join (separator : String) (items : List (List Part)) :
    (join separator items).filterMap mention? = items.flatMap (·.filterMap mention?) := by
  unfold join
  induction items with
  | nil => rfl
  | cons item items ih =>
    cases items with
    | nil => simp [List.intercalate_singleton]
    | cons next items =>
      rw [List.intercalate_cons_cons, List.filterMap_append, List.filterMap_append, ih,
        mentions_piece, List.append_nil, ← List.flatMap_cons]

theorem mentions_tuple (items : List (List Part)) :
    (tuple items).filterMap mention? = items.flatMap (·.filterMap mention?) := by
  unfold tuple
  split <;> simp

end Part

/-! ### The parts of a translation -/

namespace Scope

mutual

/-- A term with the places of its references. The table says which names have been renamed. -/
def termParts (scope : Scope) (t : AliasTable) : Term → List Part
  | .range r => [.mention (r, scope.sheet)]
  | .call function (e :: es) =>
    .piece (scope.namePiece t function) :: .piece (.sign '(') ::
      (Part.join ", " (scope.listParts t (e :: es)) ++ [.piece (.sign ')')])
  | .group items =>
    .piece (.sign '(') :: (Part.join ", " (scope.listParts t items) ++ [.piece (.sign ')')])
  | .negate operand => .piece (.sign '-') :: scope.termParts t operand
  | e => (scope.termPieces e t).map .piece

def expressionParts (scope : Scope) (t : AliasTable) : Expression → List Part
  | .last operand => scope.termParts t operand
  | .link operand op rest =>
    scope.termParts t operand ++
      ((operatorPieces op).map .piece ++ scope.expressionParts t rest)

def listParts (scope : Scope) (t : AliasTable) : List Expression → List (List Part)
  | [] => []
  | e :: es => scope.expressionParts t e :: scope.listParts t es

end

/-- A formula with the places of its references. -/
def formulaParts (scope : Scope) (t : AliasTable) (f : Formula) : List Part :=
  Part.join " " (scope.listParts t f.expressions)

variable (scope : Scope) (t : AliasTable)

mutual

/-- The references of a term have their places in written order, by induction on the syntax. -/
theorem mentions_termParts (e : Term) :
    (scope.termParts t e).filterMap Part.mention? = e.references.map (·, scope.sheet) := by
  match e with
  | .number .. | .text _ | .name _ | .null => simp [termParts, Term.references]
  | .range r => simp [termParts, Term.references]
  | .call function [] => simp [termParts, Term.references, Expression.referencesOfList]
  | .call function (e :: es) =>
    have items := mentions_listParts (e :: es)
    simpa [termParts, Term.references] using items
  | .group items =>
    have mentions := mentions_listParts items
    simpa [termParts, Term.references] using mentions
  | .negate operand =>
    have mentions := mentions_termParts operand
    simpa [termParts, Term.references] using mentions

theorem mentions_expressionParts (e : Expression) :
    (scope.expressionParts t e).filterMap Part.mention? = e.references.map (·, scope.sheet) := by
  match e with
  | .last operand => exact mentions_termParts operand
  | .link operand op rest =>
    have first := mentions_termParts operand
    have others := mentions_expressionParts rest
    simp [expressionParts, Expression.references, first, others]

theorem mentions_listParts (es : List Expression) :
    (scope.listParts t es).flatMap (·.filterMap Part.mention?) =
      (Expression.referencesOfList es).map (·, scope.sheet) := by
  match es with
  | [] => rfl
  | e :: es =>
    have first := mentions_expressionParts e
    have others := mentions_listParts es
    simp [listParts, Expression.referencesOfList, first, others]

end

/-- The references of a formula have their places in the order in which they are written. -/
theorem mentions_formulaParts (f : Formula) :
    (scope.formulaParts t f).filterMap Part.mention? = f.references.map (·, scope.sheet) := by
  rw [formulaParts, Part.mentions_join]
  exact scope.mentions_listParts t f.expressions

variable {t} {t' : AliasTable}

/-- Renames do not change, so names are written as before. -/
theorem namePiece_of_after (after : t'.After t) (name : String) :
    scope.namePiece t' name = scope.namePiece t name := by
  simp only [namePiece, after.rename]

mutual

/-- A later table fills a term as it was translated, though each reference was resolved in a table
of its own. By induction on the syntax: the table after a part is earlier than the one after the
whole. -/
theorem fill_termParts (e : Term) {t : AliasTable} (after : t'.After (scope.term e t).2) :
    (scope.termParts t' e).map (Part.fill scope.symbols t') = scope.termPieces e t := by
  have names : t'.After t := after.trans (by rw [term_snd]; exact after_resolveAll _ t)
  match e with
  | .number .. | .text _ | .null => simp [termParts, termPieces]
  | .name n => simp [termParts, termPieces, scope.namePiece_of_after names]
  | .range r =>
    have resolved : (t'.resolve r scope.sheet).1 = (t.resolve r scope.sheet).1 :=
      AliasTable.After.resolve_fst after
    simp [termParts, termPieces, Part.fill, resolved]
  | .call function [] => simp [termParts, termPieces, scope.namePiece_of_after names]
  | .call function (e :: es) =>
    have items := fill_listParts (e :: es) after
    simp [termParts, termPieces, items, scope.namePiece_of_after names]
  | .group items =>
    have filled := fill_listParts items after
    simp [termParts, termPieces, filled]
  | .negate operand =>
    have filled := fill_termParts operand after
    simp [termParts, termPieces, filled]

/-- The rest of an expression is translated with the table after its first operand. -/
theorem fill_expressionParts (e : Expression) {t : AliasTable}
    (after : t'.After (scope.expression e t).2) :
    (scope.expressionParts t' e).map (Part.fill scope.symbols t') = scope.expressionPieces e t := by
  match e with
  | .last operand => exact fill_termParts operand after
  | .link operand op rest =>
    have later : (scope.expression rest (scope.term operand t).2).2.After (scope.term operand t).2 := by
      rw [expression_snd]
      exact after_resolveAll _ _
    have first := fill_termParts operand (AliasTable.After.trans after later)
    have others := fill_expressionParts rest after
    simp [expressionParts, expressionPieces, first, others]

/-- So is the rest of a list. -/
theorem fill_listParts (es : List Expression) {t : AliasTable}
    (after : t'.After (scope.list es t).2) :
    (scope.listParts t' es).map (·.map (Part.fill scope.symbols t')) = scope.listPieces es t := by
  match es with
  | [] => rfl
  | e :: es =>
    have later : (scope.list es (scope.expression e t).2).2.After (scope.expression e t).2 := by
      rw [list_snd]
      exact after_resolveAll _ _
    have first := fill_expressionParts e (AliasTable.After.trans after later)
    have others := fill_listParts es after
    simp [listParts, listPieces, first, others]

end

/-- A later table fills all places as they have been filled. -/
theorem fill_formulaParts (f : Formula) (after : t'.After (scope.formula f t).2) :
    (scope.formulaParts t' f).map (Part.fill scope.symbols t') = scope.formulaPieces f t := by
  rw [formulaParts, Part.map_fill_join, scope.fill_listParts f.expressions after, formulaPieces]

end Scope

/-! ### What parts are written as -/

/-- With the identifiers of a table the parts make up the text, and there is punctuation between any
two of them. -/
structure Written (symbols : Symbols) (t : AliasTable) (parts : List Part) (s : String) : Prop where
  spaced : Spaced (parts.map (Part.fill symbols t))
  text : Part.text symbols t parts = s.toList

/-- A later table writes the formula as it was translated. -/
theorem Scope.written_formula (scope : Scope) (f : Formula) {t t' : AliasTable}
    (after : t'.After (scope.formula f t).2) :
    Written scope.symbols t' (scope.formulaParts t' f) (scope.formula f t).1 := by
  have filled := scope.fill_formulaParts f after
  refine ⟨?_, ?_⟩
  · rw [filled]
    exact scope.spaced_formulaPieces f t
  · rw [Part.text, filled, scope.write_formulaPieces]

namespace Written

variable {symbols : Symbols} {t : AliasTable}

theorem code (cs : String) : Written symbols t [.piece (.code cs.toList)] cs :=
  ⟨.last nofun, by simp [Part.text]⟩

theorem mention (x : Reference × Option String) :
    Written symbols t [.mention x] (symbols.qualify (t.resolve x.1 x.2).1) :=
  ⟨.last (Scope.solid_symbolsPiece _ _), by simp [Part.text, Part.fill, chars_symbolsPiece]⟩

variable {items : List (List Part)} {texts : List String}

theorem spaced_of_forall₂ (written : List.Forall₂ (Written symbols t) items texts) :
    ∀ item ∈ items.map (·.map (Part.fill symbols t)), Spaced item := by
  induction written with
  | nil => nofun
  | cons first _ ih => exact List.forall_mem_cons.2 ⟨first.spaced, ih⟩

/-- Items are filled one by one. -/
theorem text_of_forall₂ (written : List.Forall₂ (Written symbols t) items texts) :
    (items.map (·.map (Part.fill symbols t))).map write = texts.map String.toList := by
  induction written with
  | nil => rfl
  | cons first _ ih => exact congrArg₂ List.cons first.text ih

/-- Items in parentheses. -/
theorem parenthesized (written : List.Forall₂ (Written symbols t) items texts) :
    Written symbols t (.piece (.sign '(') :: (Part.join ", " items ++ [.piece (.sign ')')]))
      ("(" ++ Text.joined ", " texts ++ ")") := by
  refine ⟨?_, ?_⟩
  · simp only [List.map_cons, List.map_append, Part.fill_piece, Part.map_fill_join, List.map_nil]
    exact .sign (by decide) (Scope.spaced_parenthesized (spaced_of_forall₂ written))
  · have texts := text_of_forall₂ written
    simp [Part.text, Piece.write_join, Text.joined, texts]

/-- A tuple of written items is written; one with a single item has a comma behind it. -/
theorem tuple (written : List.Forall₂ (Written symbols t) items texts) :
    Written symbols t (Part.tuple items) (Python.tuple texts) := by
  have several := parenthesized written
  cases written with
  | nil => exact several
  | cons first rest =>
    cases rest with
    | cons => exact several
    | nil =>
      refine ⟨?_, ?_⟩
      · simp only [Part.tuple, List.map_cons, List.map_append, Part.fill_piece, List.map_nil]
        exact .sign (by decide) (first.spaced.append_sign (by decide) (.sign (by decide) .nil))
      · have text := first.text
        simp only [Part.text] at text
        simp [Part.tuple, Python.tuple, Part.text, text]

end Written

end Python

end SheetCompiler
