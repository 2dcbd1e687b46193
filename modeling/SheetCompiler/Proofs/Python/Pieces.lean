import SheetCompiler.Proofs.Alias.Resolution
import SheetCompiler.Proofs.Python.Replacement
import SheetCompiler.Python.Expression

/-!
# The pieces of a translated formula

A translated formula is a list of pieces (`Scope.write_formulaPieces`): attributes, texts, other
code, and the punctuation that stands between any two of those (`Spaced`). What holds no punctuation
itself stands within one piece (`Spaced.exists_piece`). A fact about all pieces is shown kind by kind
(`Scope.Writes`).
-/

namespace SheetCompiler

/-! ### Texts of a formula -/

mutual

/-- The text constants in written order. -/
def Term.texts : Term → List String
  | .text content => [content]
  | .call _ arguments => Expression.textsOf arguments
  | .group items => Expression.textsOf items
  | .negate operand => operand.texts
  | .number .. | .range _ | .name _ | .null => []

def Expression.texts : Expression → List String
  | .last operand => operand.texts
  | .link operand _ rest => operand.texts ++ rest.texts

def Expression.textsOf : List Expression → List String
  | [] => []
  | e :: es => e.texts ++ Expression.textsOf es

end

/-- The text constants of a formula in written order. -/
def Formula.texts (f : Formula) : List String := Expression.textsOf f.expressions

namespace Python

/-- A part of an expression that is written without a break. -/
inductive Piece where
  /-- Punctuation. -/
  | sign (c : Char)
  /-- A number, a bare name or a relation. -/
  | code (cs : List Char)
  /-- An attribute of the instance. -/
  | member (cs : List Char)
  /-- A text constant. -/
  | text (content : String)
deriving DecidableEq, Repr

namespace Piece

def chars : Piece → List Char
  | sign c => [c]
  | code cs | member cs => cs
  | text content => stringChars content.toList

/-- The content of a text constant. -/
def text? : Piece → Option String
  | text content => some content
  | _ => none

@[simp] theorem chars_sign (c : Char) : (sign c).chars = [c] := rfl

@[simp] theorem chars_code (cs : List Char) : (code cs).chars = cs := rfl

@[simp] theorem chars_text (content : String) :
    (text content).chars = stringChars content.toList := rfl

@[simp] theorem text?_sign (c : Char) : (sign c).text? = none := rfl

@[simp] theorem text?_code (cs : List Char) : (code cs).text? = none := rfl

@[simp] theorem text?_text (content : String) : (text content).text? = some content := rfl

/-- Rewrites an attribute, and nothing else. -/
def rewrite (f : List Char → List Char) : Piece → Piece
  | member cs => member (f cs)
  | p => p

/-- The pieces one after the other. -/
def write (ps : List Piece) : List Char := ps.flatMap chars

@[simp] theorem write_nil : write [] = [] := rfl

@[simp] theorem write_cons (p : Piece) (ps : List Piece) :
    write (p :: ps) = p.chars ++ write ps := rfl

@[simp] theorem write_append (ps qs : List Piece) : write (ps ++ qs) = write ps ++ write qs :=
  List.flatMap_append

theorem chars_stand {ps : List Piece} {p : Piece} (mem : p ∈ ps) : p.chars <:+: write ps := by
  obtain ⟨before, after, rfl⟩ := List.append_of_mem mem
  rw [write_append, write_cons]
  exact ⟨write before, write after, by simp⟩

/-- A text of punctuation only. -/
def signs (s : String) : List Piece := s.toList.map sign

@[simp] theorem write_signs (s : String) : write (signs s) = s.toList := by
  simp [write, signs, List.flatMap_map]

@[simp] theorem filterMap_cons_sign (c : Char) (ps : List Piece) :
    (sign c :: ps).filterMap text? = ps.filterMap text? := rfl

@[simp] theorem filterMap_signs (s : String) : (signs s).filterMap text? = [] := by
  simp [signs, List.filterMap_map, Function.comp_def]

/-- Lists of pieces with a separator between them. -/
def join (separator : String) (items : List (List Piece)) : List Piece :=
  (signs separator).intercalate items

/-- Joined lists are written with the separator between them. -/
theorem write_join (separator : String) (items : List (List Piece)) :
    write (join separator items) = separator.toList.intercalate (items.map write) := by
  unfold join
  induction items with
  | nil => rfl
  | cons item items ih =>
    cases items with
    | nil => simp [List.intercalate_singleton]
    | cons next items =>
      rw [List.intercalate_cons_cons, List.map_cons, List.map_cons, List.intercalate_cons_cons,
        write_append, write_append, ih, write_signs, List.map_cons]

/-- Separators are no texts. -/
theorem filterMap_join (separator : String) (items : List (List Piece)) :
    (join separator items).filterMap text? = items.flatMap (·.filterMap text?) := by
  unfold join
  induction items with
  | nil => rfl
  | cons item items ih =>
    cases items with
    | nil => simp [List.intercalate_singleton]
    | cons next items =>
      rw [List.intercalate_cons_cons, List.filterMap_append, List.filterMap_append, ih,
        filterMap_signs, List.append_nil, List.flatMap_cons]
      rfl

/-- A piece of joined lists is one of the separator or of a list. -/
theorem mem_join {separator : String} {items : List (List Piece)} {p : Piece}
    (h : p ∈ join separator items) : p ∈ signs separator ∨ ∃ item ∈ items, p ∈ item := by
  unfold join at h
  induction items with
  | nil => simp at h
  | cons item items ih =>
    cases items with
    | nil => exact .inr ⟨item, by simp, by simpa [List.intercalate_singleton] using h⟩
    | cons next items =>
      rw [List.intercalate_cons_cons, List.mem_append, List.mem_append] at h
      rcases h with (here | separates) | later
      · exact .inr ⟨item, by simp, here⟩
      · exact .inl separates
      · refine (ih later).imp_right fun ⟨item', mem, h⟩ => ⟨item', ?_, h⟩
        exact List.mem_cons_of_mem item mem

end Piece

open Piece (write signs join)

/-! ### The pieces of a translation -/

/-- The operator as Python writes it. -/
def operatorPieces : Operator → List Piece
  | .notEqual => [.sign ' ', .code ['!', '='], .sign ' ']
  | op => signs op.python

/-- An identifier as it stands in a method. -/
def Symbols.piece (s : Symbols) (identifier : String) : Piece :=
  if s.contains identifier then .code identifier.toList
  else .member ("self.".toList ++ identifier.toList)

namespace Scope

def namePiece (scope : Scope) (t : AliasTable) (name : String) : Piece :=
  if scope.locals.contains name then .code name.toList
  else
    let renamed := t.rename name
    if renamed = "TRUE" then .code "True".toList
    else if renamed = "FALSE" then .code "False".toList
    else scope.symbols.piece renamed

mutual

/-- The pieces of a term, in the order in which they are written. -/
def termPieces (scope : Scope) : Term → AliasTable → List Piece
  | .number digits percent, _ => [.code (numberLiteral digits percent).toList]
  | .text content, _ => [.text content]
  | .name n, t => [scope.namePiece t n]
  | .range r, t => [scope.symbols.piece (t.resolve r scope.sheet).1]
  | .call function [], t =>
    if function = "TRUE" ∨ function = "FALSE" then [scope.namePiece t function]
    else scope.namePiece t function :: signs "()"
  | .call function arguments, t =>
    scope.namePiece t function :: .sign '(' ::
      (join ", " (scope.listPieces arguments t) ++ [.sign ')'])
  | .group items, t => .sign '(' :: (join ", " (scope.listPieces items t) ++ [.sign ')'])
  | .null, _ => [.code "None".toList]
  | .negate operand, t => .sign '-' :: scope.termPieces operand t

def expressionPieces (scope : Scope) : Expression → AliasTable → List Piece
  | .last operand, t => scope.termPieces operand t
  | .link operand op rest, t =>
    scope.termPieces operand t ++ (operatorPieces op ++
      scope.expressionPieces rest (scope.term operand t).2)

def listPieces (scope : Scope) : List Expression → AliasTable → List (List Piece)
  | [], _ => []
  | e :: es, t => scope.expressionPieces e t :: scope.listPieces es (scope.expression e t).2

end

/-- The pieces of a formula. -/
def formulaPieces (scope : Scope) (f : Formula) (t : AliasTable) : List Piece :=
  join " " (scope.listPieces f.expressions t)

end Scope

theorem write_operatorPieces (op : Operator) : write (operatorPieces op) = op.python.toList := by
  cases op <;> rfl

/-- An identifier is written bare or as an attribute. -/
theorem chars_symbolsPiece (s : Symbols) (identifier : String) :
    (s.piece identifier).chars = (s.qualify identifier).toList := by
  unfold Symbols.piece Symbols.qualify
  split
  · rfl
  · rw [String.toList_append]
    rfl

namespace Scope

variable (scope : Scope)

/-- A name is written as its translation. -/
theorem chars_namePiece (t : AliasTable) (name : String) :
    (scope.namePiece t name).chars = (scope.name t name).toList := by
  unfold namePiece Scope.name
  dsimp only
  split
  · rfl
  · split
    · rfl
    · split
      · rfl
      · exact chars_symbolsPiece _ _

mutual

/-- The pieces of a term are its translation, by induction on the syntax. Calls without arguments
are cases of their own. -/
theorem write_termPieces (e : Term) (t : AliasTable) :
    write (scope.termPieces e t) = (scope.term e t).1.toList := by
  match e with
  | .number .. | .null => simp [termPieces, term]
  | .text content => simp [termPieces, term, stringLiteral]
  | .name n => simp [termPieces, term, chars_namePiece]
  | .range r => simp [termPieces, term, chars_symbolsPiece]
  | .call function [] =>
    rw [termPieces, term]
    split
    · simp [chars_namePiece]
    · simp [chars_namePiece]
  | .call function (e :: es) =>
    have items := write_listPieces (e :: es) t
    simp [termPieces, term, Piece.write_join, chars_namePiece, Text.joined, items]
  | .group items =>
    have written := write_listPieces items t
    simp [termPieces, term, Piece.write_join, Text.joined, written]
  | .negate operand =>
    have written := write_termPieces operand t
    simp [termPieces, term, written]

theorem write_expressionPieces (e : Expression) (t : AliasTable) :
    write (scope.expressionPieces e t) = (scope.expression e t).1.toList := by
  match e with
  | .last operand => exact write_termPieces operand t
  | .link operand op rest =>
    have first := write_termPieces operand t
    have others := write_expressionPieces rest (scope.term operand t).2
    simp [expressionPieces, expression, write_operatorPieces, first, others]

theorem write_listPieces (es : List Expression) (t : AliasTable) :
    (scope.listPieces es t).map write = (scope.list es t).1.map String.toList := by
  match es with
  | [] => rfl
  | e :: es =>
    have first := write_expressionPieces e t
    have others := write_listPieces es (scope.expression e t).2
    simp [listPieces, list, first, others]

end

/-- The pieces of a formula are its translation. -/
theorem write_formulaPieces (f : Formula) (t : AliasTable) :
    write (scope.formulaPieces f t) = (scope.formula f t).1.toList := by
  simp [formulaPieces, formula, Piece.write_join, Text.joined, write_listPieces]

theorem text?_symbolsPiece (s : Symbols) (identifier : String) :
    (s.piece identifier).text? = none := by
  unfold Symbols.piece
  split <;> rfl

theorem text?_namePiece (t : AliasTable) (name : String) :
    (scope.namePiece t name).text? = none := by
  unfold namePiece
  dsimp only
  split
  · rfl
  · split
    · rfl
    · split
      · rfl
      · exact text?_symbolsPiece _ _

theorem texts_operatorPieces (op : Operator) : (operatorPieces op).filterMap Piece.text? = [] := by
  cases op <;> rfl

mutual

/-- The texts among the pieces of a term are its own, in order. -/
theorem texts_termPieces (e : Term) (t : AliasTable) :
    (scope.termPieces e t).filterMap Piece.text? = e.texts := by
  match e with
  | .number .. | .null | .text content => simp [termPieces, Term.texts]
  | .name n => simp [termPieces, Term.texts, text?_namePiece]
  | .range r => simp [termPieces, Term.texts, text?_symbolsPiece]
  | .call function [] =>
    rw [termPieces]
    split <;> simp [Term.texts, Expression.textsOf, text?_namePiece]
  | .call function (e :: es) =>
    have items := texts_listPieces (e :: es) t
    simp [termPieces, Term.texts, Piece.filterMap_join, text?_namePiece, items]
  | .group items =>
    have texts := texts_listPieces items t
    simp [termPieces, Term.texts, Piece.filterMap_join, texts]
  | .negate operand =>
    have texts := texts_termPieces operand t
    simp [termPieces, Term.texts, texts]

theorem texts_expressionPieces (e : Expression) (t : AliasTable) :
    (scope.expressionPieces e t).filterMap Piece.text? = e.texts := by
  match e with
  | .last operand => exact texts_termPieces operand t
  | .link operand op rest =>
    have first := texts_termPieces operand t
    have others := texts_expressionPieces rest (scope.term operand t).2
    simp [expressionPieces, Expression.texts, texts_operatorPieces, first, others]

theorem texts_listPieces (es : List Expression) (t : AliasTable) :
    (scope.listPieces es t).flatMap (·.filterMap Piece.text?) = Expression.textsOf es := by
  match es with
  | [] => rfl
  | e :: es =>
    have first := texts_expressionPieces e t
    have others := texts_listPieces es (scope.expression e t).2
    simp [listPieces, Expression.textsOf, first, others]

end

/-- The texts among the pieces are those of the formula. -/
theorem texts_formulaPieces (f : Formula) (t : AliasTable) :
    (scope.formulaPieces f t).filterMap Piece.text? = f.texts := by
  rw [formulaPieces, Piece.filterMap_join, texts_listPieces, Formula.texts]

/-- The literal of a text constant stands in a formula whose attributes are rewritten. -/
theorem literal_stands {f : Formula} {s : String} (h : s ∈ f.texts) (t : AliasTable)
    (rewriting : List Char → List Char) :
    (stringLiteral s).toList <:+: write ((scope.formulaPieces f t).map (Piece.rewrite rewriting)) := by
  rw [← scope.texts_formulaPieces f t] at h
  obtain ⟨piece, mem, eq⟩ := List.mem_filterMap.1 h
  obtain rfl : piece = .text s := by
    cases piece with
    | text content => exact congrArg Piece.text (Option.some.inj eq)
    | sign | code | member => cases eq
  have same : Piece.text s ∈ (scope.formulaPieces f t).map (Piece.rewrite rewriting) :=
    List.mem_map.2 ⟨_, mem, rfl⟩
  have stands := Piece.chars_stand same
  rwa [Piece.chars_text, ← String.toList_ofList (l := stringChars s.toList)] at stands

end Scope

/-! ### Punctuation between the pieces -/

/-- Between any two pieces that are not punctuation there is some. -/
inductive Spaced : List Piece → Prop
  | nil : Spaced []
  | sign {c : Char} {ps : List Piece} (h : isSign c) (rest : Spaced ps) : Spaced (.sign c :: ps)
  | last {p : Piece} (solid : ∀ c, p ≠ .sign c) : Spaced [p]
  | next {p : Piece} {c : Char} {ps : List Piece} (solid : ∀ c, p ≠ .sign c) (h : isSign c)
    (rest : Spaced ps) : Spaced (p :: .sign c :: ps)

namespace Spaced

variable {ps qs : List Piece}

theorem append_sign (first : Spaced ps) {c : Char} (h : isSign c) (others : Spaced qs) :
    Spaced (ps ++ .sign c :: qs) := by
  induction first with
  | nil => exact .sign h others
  | sign h' _ ih => exact .sign h' ih
  | last solid => exact .next solid h others
  | next solid h' _ ih => exact .next solid h' ih

/-- Punctuation between two lists keeps their pieces apart. -/
theorem append_signs (first : Spaced ps) {s : String} (nonempty : s ≠ "")
    (h : s.toList.all isSign) (others : Spaced qs) : Spaced (ps ++ (signs s ++ qs)) := by
  replace h := List.all_eq_true.1 h
  unfold Piece.signs
  cases eq : s.toList with
  | nil => exact absurd (String.toList_eq_nil_iff.1 eq) nonempty
  | cons c cs =>
    rw [eq] at h
    refine first.append_sign (h c List.mem_cons_self) ?_
    have rest : ∀ d ∈ cs, isSign d := fun d mem => h d (List.mem_cons_of_mem c mem)
    clear eq h
    induction cs with
    | nil => exact others
    | cons d cs ih =>
      exact .sign (rest d List.mem_cons_self) (ih fun x mem => rest x (List.mem_cons_of_mem d mem))

/-- So does a separator between many. -/
theorem join {separator : String} (nonempty : separator ≠ "")
    (h : separator.toList.all isSign) {items : List (List Piece)}
    (spaced : ∀ item ∈ items, Spaced item) : Spaced (Piece.join separator items) := by
  unfold Piece.join
  induction items with
  | nil => exact .nil
  | cons item items ih =>
    have first := spaced item List.mem_cons_self
    cases items with
    | nil => simpa [List.intercalate_singleton] using first
    | cons next items =>
      rw [List.intercalate_cons_cons, List.append_assoc]
      exact first.append_signs nonempty h (ih fun i mem => spaced i (List.mem_cons_of_mem item mem))

/-- So does an operator, also one that is a relation between two blanks. -/
theorem operator (first : Spaced ps) (op : Operator) (others : Spaced qs) :
    Spaced (ps ++ (operatorPieces op ++ qs)) := by
  have relation : ∀ c, Piece.code ['!', '='] ≠ .sign c := nofun
  cases op with
  | notEqual => exact first.append_sign (by decide) (.next relation (by decide) others)
  | _ => exact first.append_signs (by decide) (by decide) others

/-- Rewriting attributes moves nothing. -/
theorem rewrite (f : List Char → List Char) (spaced : Spaced ps) :
    Spaced (ps.map (Piece.rewrite f)) := by
  have solid : ∀ p : Piece, (∀ c, p ≠ .sign c) → ∀ c, p.rewrite f ≠ .sign c := by
    intro p h c
    cases p with
    | sign d => exact absurd rfl (h d)
    | code | member | text => nofun
  induction spaced with
  | nil => exact .nil
  | sign h _ ih => exact .sign h ih
  | last h => exact .last (solid _ h)
  | next h sign _ ih => exact .next (solid _ h) sign ih

/-- What counts as punctuation among the pieces is punctuation. -/
theorem isSign_of_mem (spaced : Spaced ps) {c : Char} (mem : .sign c ∈ ps) : isSign c := by
  induction spaced with
  | nil => simp at mem
  | sign h _ ih =>
    rcases List.mem_cons.1 mem with eq | later
    · cases eq
      exact h
    · exact ih later
  | last solid => exact absurd (List.mem_singleton.1 mem).symm (solid c)
  | next solid h _ ih =>
    rcases List.mem_cons.1 mem with eq | mem
    · exact absurd eq.symm (solid c)
    · rcases List.mem_cons.1 mem with eq | later
      · cases eq
        exact h
      · exact ih later

/-- What holds no punctuation stands within one piece. -/
theorem exists_piece (spaced : Spaced ps) {part : List Char} (nonempty : part ≠ [])
    (unbroken : Unbroken part) (h : part <:+: write ps) : ∃ p ∈ ps, part <:+: p.chars := by
  induction spaced with
  | nil => exact absurd (List.infix_nil.1 h) nonempty
  | @sign c ps sign _ ih =>
    have sides : part <:+: [] ∨ part <:+: write ps :=
      Text.infix_left_or_right (unbroken.notMem sign) h
    rcases sides with none | later
    · exact absurd (List.infix_nil.1 none) nonempty
    · obtain ⟨p, mem, h⟩ := ih later
      exact ⟨p, List.mem_cons_of_mem _ mem, h⟩
  | @last p _ => exact ⟨p, List.mem_cons_self, by simpa using h⟩
  | @next p c ps _ sign _ ih =>
    have sides : part <:+: p.chars ∨ part <:+: write ps :=
      Text.infix_left_or_right (unbroken.notMem sign) h
    rcases sides with here | later
    · exact ⟨p, List.mem_cons_self, here⟩
    · obtain ⟨q, mem, h⟩ := ih later
      exact ⟨q, List.mem_cons_of_mem _ (List.mem_cons_of_mem _ mem), h⟩

end Spaced

namespace Scope

variable (scope : Scope)

theorem solid_symbolsPiece (s : Symbols) (identifier : String) (c : Char) :
    s.piece identifier ≠ .sign c := by
  unfold Symbols.piece
  split <;> nofun

/-- A name is no punctuation. -/
theorem solid_namePiece (t : AliasTable) (name : String) (c : Char) :
    scope.namePiece t name ≠ .sign c := by
  unfold namePiece
  dsimp only
  split
  · nofun
  · split
    · nofun
    · split
      · nofun
      · exact solid_symbolsPiece _ _ c

theorem spaced_parenthesized {items : List (List Piece)} (spaced : ∀ item ∈ items, Spaced item) :
    Spaced (join ", " items ++ [.sign ')']) :=
  (Spaced.join (by decide) (by decide) spaced).append_sign (by decide) .nil

mutual

/-- Between the pieces of a term there is punctuation, by induction on the syntax. -/
theorem spaced_termPieces (e : Term) (t : AliasTable) : Spaced (scope.termPieces e t) := by
  match e with
  | .number .. | .null | .text content => exact .last nofun
  | .name n => exact .last (scope.solid_namePiece t n)
  | .range r => exact .last (solid_symbolsPiece _ _)
  | .call function [] =>
    rw [termPieces]
    split
    · exact .last (scope.solid_namePiece t function)
    · exact .next (scope.solid_namePiece t function) (by decide) (.sign (by decide) .nil)
  | .call function (e :: es) =>
    exact .next (scope.solid_namePiece t function) (by decide)
      (spaced_parenthesized (spaced_listPieces (e :: es) t))
  | .group items => exact .sign (by decide) (spaced_parenthesized (spaced_listPieces items t))
  | .negate operand => exact .sign (by decide) (spaced_termPieces operand t)

theorem spaced_expressionPieces (e : Expression) (t : AliasTable) :
    Spaced (scope.expressionPieces e t) := by
  match e with
  | .last operand => exact spaced_termPieces operand t
  | .link operand op rest =>
    exact (spaced_termPieces operand t).operator op
      (spaced_expressionPieces rest (scope.term operand t).2)

theorem spaced_listPieces (es : List Expression) (t : AliasTable) :
    ∀ item ∈ scope.listPieces es t, Spaced item := by
  match es with
  | [] => exact nofun
  | e :: es =>
    intro item mem
    rcases List.mem_cons.1 mem with rfl | later
    · exact spaced_expressionPieces e t
    · exact spaced_listPieces es (scope.expression e t).2 item later

end

theorem spaced_formulaPieces (f : Formula) (t : AliasTable) : Spaced (scope.formulaPieces f t) :=
  Spaced.join (by decide) (by decide) (scope.spaced_listPieces f.expressions t)

/-! ### Kinds of pieces -/

/-- What holds of the pieces of each kind, where tables are as they should be. -/
structure Writes (scope : Scope) (I : AliasTable → Prop) (P : Piece → Prop) : Prop where
  resolve : ∀ t r, I t → I (t.resolve r scope.sheet).2
  sign : ∀ c, P (.sign c)
  text : ∀ content, P (.text content)
  relation : P (.code ['!', '='])
  null : P (.code "None".toList)
  number : ∀ digits percent, Scan.IsNumber digits.toList →
    P (.code (numberLiteral digits percent).toList)
  name : ∀ t n, I t → Scan.isSheetWord n.toList ∨ Scan.IsCell n.toList → P (scope.namePiece t n)
  range : ∀ t r, I t → P (scope.symbols.piece (t.resolve r scope.sheet).1)

namespace Writes

variable {scope} {I : AliasTable → Prop} {P : Piece → Prop} (writes : scope.Writes I P)

include writes

theorem signs {s : String} {p : Piece} (mem : p ∈ Piece.signs s) : P p := by
  obtain ⟨c, -, rfl⟩ := List.mem_map.1 mem
  exact writes.sign c

/-- Parentheses and commas around what is known are known. -/
theorem parenthesized {items : List (List Piece)} (all : ∀ item ∈ items, ∀ p ∈ item, P p)
    {p : Piece} (mem : p ∈ Piece.sign '(' :: (join ", " items ++ [.sign ')'])) : P p := by
  simp only [List.mem_cons, List.mem_append, List.not_mem_nil, or_false] at mem
  rcases mem with rfl | inside | rfl
  · exact writes.sign _
  · rcases Piece.mem_join inside with separates | ⟨item, hitem, mem⟩
    · exact writes.signs separates
    · exact all item hitem p mem
  · exact writes.sign _

/-- An operator is punctuation, or a relation between blanks. -/
theorem operator (op : Operator) {p : Piece} (mem : p ∈ operatorPieces op) : P p := by
  cases op with
  | notEqual =>
    simp only [operatorPieces, List.mem_cons, List.not_mem_nil, or_false] at mem
    rcases mem with rfl | rfl | rfl
    · exact writes.sign _
    · exact writes.relation
    · exact writes.sign _
  | _ => exact writes.signs mem

/-- Resolving references one by one keeps the table as it should be. -/
theorem table (refs : List Reference) {t : AliasTable} (h : I t) :
    I (AliasTable.resolveAll (refs.map (·, scope.sheet)) t).2 := by
  refine AliasTable.resolveAll_induction h fun t x mem ht => ?_
  obtain ⟨r, -, rfl⟩ := List.mem_map.1 mem
  exact writes.resolve t r ht

mutual

/-- What holds of each kind holds of all pieces of a term. By induction on the syntax; the table
that a later part sees has resolved the earlier ones. -/
theorem term {e : Term} (wf : e.WellFormed) {t : AliasTable} (h : I t) :
    ∀ p ∈ scope.termPieces e t, P p := by
  match e with
  | .number digits percent => simpa [termPieces] using writes.number digits percent wf
  | .text content => simpa [termPieces] using writes.text content
  | .null => simpa [termPieces] using writes.null
  | .name n => simpa [termPieces] using writes.name t n h (.inl wf.1)
  | .range r => simpa [termPieces] using writes.range t r h
  | .call function [] =>
    have called := writes.name t function h wf.1
    intro p mem
    rw [termPieces] at mem
    split at mem
    · rw [List.mem_singleton.1 mem]
      exact called
    · rcases List.mem_cons.1 mem with rfl | inside
      · exact called
      · exact writes.signs inside
  | .call function (e :: es) =>
    intro p mem
    rcases List.mem_cons.1 mem with rfl | inside
    · exact writes.name t function h wf.1
    · exact writes.parenthesized (list wf.2 h) inside
  | .group items => exact fun p mem => writes.parenthesized (list wf h) mem
  | .negate operand =>
    intro p mem
    rcases List.mem_cons.1 mem with rfl | inside
    · exact writes.sign _
    · exact term (e := operand) wf h p inside

/-- The rest of an expression is written with the table after its first operand. -/
theorem expression {e : Expression} (wf : e.WellFormed) {t : AliasTable} (h : I t) :
    ∀ p ∈ scope.expressionPieces e t, P p := by
  match e with
  | .last operand => exact term (e := operand) wf h
  | .link operand op rest =>
    have later : I (scope.term operand t).2 := term_snd scope operand t ▸ writes.table _ h
    intro p mem
    rcases List.mem_append.1 mem with first | mem
    · exact term wf.1 h p first
    · rcases List.mem_append.1 mem with between | others
      · exact writes.operator op between
      · exact expression wf.2 later p others

theorem list {es : List Expression} (wf : Expression.AllWellFormed es) {t : AliasTable} (h : I t) :
    ∀ item ∈ scope.listPieces es t, ∀ p ∈ item, P p := by
  match es with
  | [] => exact nofun
  | e :: es =>
    have later : I (scope.expression e t).2 := expression_snd scope e t ▸ writes.table _ h
    intro item mem
    rcases List.mem_cons.1 mem with rfl | others
    · exact expression wf.1 h
    · exact list wf.2 later item others

end

/-- What holds of the pieces of each kind holds of all pieces of a formula. -/
theorem formula {f : Formula} (wf : f.WellFormed) {t : AliasTable} (h : I t) :
    ∀ p ∈ scope.formulaPieces f t, P p := by
  obtain ⟨e, single, wf⟩ := wf
  have all : Expression.AllWellFormed f.expressions := by
    rw [single]
    exact ⟨wf, trivial⟩
  intro p mem
  rcases Piece.mem_join mem with separates | ⟨item, hitem, mem⟩
  · exact writes.signs separates
  · exact writes.list all h item hitem p mem

end Writes

end Scope

end Python

end SheetCompiler
