import SheetCompiler.Proofs.Compile.Reads
import SheetCompiler.Proofs.Python.Mentions

/-!
# Where references stand in a body

The body of a property with a place for each of its references (`Content.parts`). Which places there
are depends on what the workbook holds only (`Content.mentions`); the table after the body fills them
with what was written (`Run.written_body`). A comprehension has places for the references that all
formulas of the block share and for the ranges it loops over. A reference that moves with its cell
has none: a loop variable is written for it.
-/

namespace SheetCompiler

open AliasTable
open Python (Part Piece Written)

/-! ### Bodies with the places of references -/

/-- A formula given as text with the places of its references; nothing if it cannot be read. -/
def Python.Scope.partsOfText (scope : Scope) (t : AliasTable) (text : String) : List Part :=
  match Formula.parseSingle text with
  | .ok f => scope.formulaParts t f
  | .error _ => []

/-- The places of a formula are its references, in order. -/
theorem Python.Scope.mentions_partsOfText (scope : Scope) (t : AliasTable) (text : String) :
    (scope.partsOfText t text).filterMap Part.mention? = Formula.readsOfText scope.sheet text := by
  unfold partsOfText Formula.readsOfText
  cases Formula.parseSingle text with
  | ok f => exact scope.mentions_formulaParts t f
  | error e => rfl

namespace Block

/-- A range alone, or several packed together. -/
def zippedParts : List (List Part) → List Part
  | [item] => item
  | items =>
    .piece (.code "zip".toList) :: .piece (.sign '(') ::
      (Part.join ", " items ++ [.piece (.sign ')')])

/-- What stands between the body of a comprehension and its ranges. -/
def loopHeads (n : Nat) : String :=
  let names := (List.range n).map loopName
  let rows := (List.range n).map rowName
  "for " ++ Text.joined ", " names ++ " in " ++ zipped rows ++ ") for " ++ Text.joined ", " rows ++
    " in"

def loopParts (body : List Part) (ranges : List (List Part)) : List Part :=
  .piece (.code "tuple(tuple".toList) :: .piece (.sign '(') ::
    (body ++ .piece (.sign ' ') :: .piece (.code (loopHeads ranges.length).toList) ::
      .piece (.sign ' ') :: (zippedParts ranges ++ [.piece (.sign ')')]))

/-- The references that stand in a comprehension: those that all formulas share, then the ranges. -/
def mentions (b : Block) : Reads :=
  match b.pattern with
  | .ok p => p.body.references.map (·, some b.sheet) ++ b.parallels p.groups
  | .error _ => []

/-- The comprehension with the places of its references. -/
def parts (b : Block) (symbols : Python.Symbols) (t : AliasTable) : List Part :=
  match b.pattern with
  | .ok p =>
    let locals := (List.range p.groups.length).map loopName
    loopParts (Python.Scope.formulaParts { symbols, sheet := some b.sheet, locals } t p.body)
      ((b.parallels p.groups).map fun x => [.mention x])
  | .error _ => []

theorem mentions_zippedParts (items : List (List Part)) :
    (zippedParts items).filterMap Part.mention? = items.flatMap (·.filterMap Part.mention?) := by
  unfold zippedParts
  split <;> simp

/-- The places of a comprehension are those of its body, then one for each range. -/
theorem mentions_parts (b : Block) (symbols : Python.Symbols) (t : AliasTable) :
    (b.parts symbols t).filterMap Part.mention? = b.mentions := by
  unfold parts mentions
  cases b.pattern with
  | error e => rfl
  | ok p =>
    have places : ∀ reads : Reads,
        (reads.map fun x => [Part.mention x]).flatMap (·.filterMap Part.mention?) = reads := by
      intro reads
      induction reads with
      | nil => rfl
      | cons x reads ih => exact congrArg (x :: ·) ih
    simp [loopParts, mentions_zippedParts, places, Python.Scope.mentions_formulaParts]

variable {symbols : Python.Symbols} {t : AliasTable}

/-- Ranges that are written each at its place are written together, one or several. -/
theorem written_zipped {items : List (List Part)} {texts : List String}
    (written : List.Forall₂ (Written symbols t) items texts) :
    Written symbols t (zippedParts items) (zipped texts) := by
  have called : Written symbols t (.piece (.code "zip".toList) :: .piece (.sign '(') ::
      (Part.join ", " items ++ [.piece (.sign ')')])) ("zip(" ++ Text.joined ", " texts ++ ")") := by
    refine ⟨?_, ?_⟩
    · simp only [List.map_cons, List.map_append, Part.fill_piece, Part.map_fill_join, List.map_nil]
      exact .next nofun (by decide)
        (Python.Scope.spaced_parenthesized (Written.spaced_of_forall₂ written))
    · have texts := Written.text_of_forall₂ written
      simp [Part.text, Piece.write_join, Text.joined, texts]
  cases written with
  | nil => exact called
  | cons first rest =>
    cases rest with
    | nil => exact first
    | cons => exact called

/-- The text of a loop, cut where its body and its ranges stand. -/
theorem loop_eq (body : String) (ranges : List String) :
    loop body ranges =
      "tuple(tuple" ++ "(" ++ body ++ " " ++ loopHeads ranges.length ++ " " ++ zipped ranges ++ ")" := by
  have opening : "tuple(tuple(" = "tuple(tuple" ++ "(" := by decide
  have first : " for " = " " ++ "for " := by decide
  have last : " in " = " in" ++ " " := by decide
  unfold loop loopHeads
  dsimp only
  rw [opening, first, last]
  simp only [String.append_assoc]

/-- A loop is written once its body and its ranges are. -/
theorem written_loop {body : List Part} {text : String} {ranges : List (List Part)}
    {texts : List String} (hbody : Written symbols t body text)
    (written : List.Forall₂ (Written symbols t) ranges texts) :
    Written symbols t (loopParts body ranges) (loop text texts) := by
  have zipped := written_zipped written
  have same : ranges.length = texts.length := written.length_eq
  refine ⟨?_, ?_⟩
  · simp only [loopParts, List.map_cons, List.map_append, Part.fill_piece, List.map_nil]
    refine .next nofun (by decide) (hbody.spaced.append_sign (by decide) ?_)
    exact .next nofun (by decide) (zipped.spaced.append_sign (by decide) .nil)
  · have hbody := hbody.text
    have zipped := zipped.text
    simp only [Part.text] at hbody zipped
    rw [loop_eq, ← same]
    simp [Part.text, loopParts, hbody, zipped]

/-- Each range of a loop is written at its place, by induction on the offsets. The table at hand may
be a later one, since identifiers stay. -/
theorem written_iterables {b : Block} {first : Address} {os : List Offset} {t t' : AliasTable}
    {texts : List String} (h : (b.iterables symbols first os t).1 = .ok texts)
    (after : t'.After (b.iterables symbols first os t).2) :
    List.Forall₂ (Written symbols t') ((b.parallels os).map fun x => [.mention x]) texts := by
  induction os generalizing t texts with
  | nil =>
    cases h
    exact .nil
  | cons o os ih =>
    cases parallel : b.parallel o with
    | none =>
      rw [iterables, parallel] at h
      cases h
    | some r =>
      simp only [iterables, parallels, parallel] at h after ⊢
      obtain ⟨rest, hrest, rfl⟩ := Fallible.map_eq_ok_iff.1 h
      have later := b.iterables_snd symbols first os (t.resolve r none).2
      have resolved : t'.After (t.resolve r none).2 :=
        after.trans (later ▸ after_resolveAll _ _)
      refine .cons ?_ (ih hrest after)
      rw [← resolved.resolve_fst]
      exact .mention (r, none)

/-- The comprehension is its parts, filled from any later table: the ranges are resolved first and
the body after them, and both are found again. -/
theorem written_comprehension {b : Block} {t t' : AliasTable} {text : String}
    (h : (b.comprehension symbols t).1 = .ok text)
    (after : t'.After (b.comprehension symbols t).2) :
    Written symbols t' (b.parts symbols t') text := by
  unfold comprehension at h after
  unfold parts
  cases found : b.pattern with
  | error e =>
    rw [found] at h
    cases h
  | ok p =>
    rw [found] at h after
    dsimp only at h after ⊢
    have ranges : ∀ texts, (b.iterables symbols p.first p.groups t).1 = .ok texts →
        t'.After (b.iterables symbols p.first p.groups t).2 →
        List.Forall₂ (Written symbols t') ((b.parallels p.groups).map fun x => [.mention x]) texts :=
      fun _ => written_iterables
    generalize b.iterables symbols p.first p.groups t = looped at h after ranges
    rcases looped with ⟨e | texts, t₁⟩
    · cases h
    · cases h
      have later : t'.After t₁ := after.trans (by
        rw [Python.Scope.formula_snd]
        exact after_resolveAll _ t₁)
      exact written_loop (Python.Scope.written_formula _ p.body after) (ranges texts rfl later)

end Block

namespace RegionCell

/-- The formula of a cell with the places of its references, or else its value. -/
def parts (literal : RegionCell → String) (symbols : Python.Symbols) (t : AliasTable)
    (sheet : String) (cell : RegionCell) : List Part :=
  match cell.formula with
  | some text => Python.Scope.partsOfText { symbols, sheet := some sheet } t text
  | none => [.piece (.code (literal cell).toList)]

theorem mentions_parts (literal : RegionCell → String) (symbols : Python.Symbols) (t : AliasTable)
    (sheet : String) (cell : RegionCell) :
    (cell.parts literal symbols t sheet).filterMap Part.mention? = cell.reads sheet := by
  unfold parts reads
  cases cell.formula with
  | some text => exact Python.Scope.mentions_partsOfText _ t text
  | none => rfl

end RegionCell

namespace Region

/-- The block that is written as a comprehension. -/
def loop? (g : Region) : Option Block := g.block?.filter (·.generalizes)

/-- The references that stand in the body of several cells. -/
def mentionsOfBlock (g : Region) : Reads :=
  match g.loop? with
  | some b => b.mentions
  | none => g.rows.flatMap (·.flatMap (·.reads g.sheet))

/-- The references that stand in the body of a region, in written order. -/
def mentions (g : Region) : Reads :=
  match g.rows with
  | [[only]] => only.reads g.sheet
  | _ => g.mentionsOfBlock

section

variable (c : Config) (symbols : Python.Symbols) (t : AliasTable) (g : Region)

/-- The cells one by one with the places of their references. -/
def partsOfCells : List Part :=
  Part.tuple (g.rows.map fun row => Part.tuple (row.map (·.parts (·.literal c) symbols t g.sheet)))

/-- The body of several cells with the places of its references. -/
def partsOfBlock : List Part :=
  match g.loop? with
  | some b => b.parts symbols t
  | none => g.partsOfCells c symbols t

/-- The body of a region with the places of its references. -/
def parts : List Part :=
  match g.rows with
  | [[only]] => only.parts (·.plainLiteral) symbols t g.sheet
  | _ => g.partsOfBlock c symbols t

end

theorem mentions_parts (c : Config) (symbols : Python.Symbols) (t : AliasTable) (g : Region) :
    (g.parts c symbols t).filterMap Part.mention? = g.mentions := by
  unfold parts mentions
  split
  · exact RegionCell.mentions_parts _ symbols t g.sheet _
  · unfold partsOfBlock mentionsOfBlock
    split
    · exact Block.mentions_parts _ symbols t
    · simp [partsOfCells, Part.mentions_tuple, List.flatMap_map, RegionCell.mentions_parts]

end Region

namespace Body

variable {c : Config} {symbols : Python.Symbols} {name sheet : String} {t t' : AliasTable}

/-- A formula is its parts, filled from any later table. -/
theorem written_formula {scope : Python.Scope} {location text python : String}
    (h : (formula scope name location text t).1 = .ok python)
    (after : t'.After (formula scope name location text t).2) :
    Written scope.symbols t' (scope.partsOfText t' text) python := by
  unfold formula at h after
  unfold Python.Scope.partsOfText
  cases parsed : Formula.parseSingle text with
  | error e =>
    rw [parsed] at h
    cases h
  | ok f =>
    rw [parsed] at h after
    cases h
    exact scope.written_formula f after

/-- A cell is its formula or its literal. -/
theorem written_cell {literal : RegionCell → String} {cell : RegionCell} {python : String}
    (h : (Body.cell symbols name literal sheet cell t).1 = .ok python)
    (after : t'.After (Body.cell symbols name literal sheet cell t).2) :
    Written symbols t' (cell.parts literal symbols t' sheet) python := by
  unfold Body.cell at h after
  unfold RegionCell.parts
  cases formula : cell.formula with
  | some text =>
    rw [formula] at h after
    exact written_formula h after
  | none =>
    rw [formula] at h
    cases h
    exact .code _

/-- A row is its cells, by induction; the table after a cell is earlier than the one at hand. -/
theorem written_items {cells : List RegionCell} {texts : List String}
    (h : (items c symbols name sheet cells t).1 = .ok texts)
    (after : t'.After (items c symbols name sheet cells t).2) :
    List.Forall₂ (Written symbols t') (cells.map (·.parts (·.literal c) symbols t' sheet))
      texts := by
  induction cells generalizing t texts with
  | nil =>
    cases h
    exact .nil
  | cons first rest ih =>
    have written : ∀ python, (Body.cell symbols name (·.literal c) sheet first t).1 = .ok python →
        t'.After (Body.cell symbols name (·.literal c) sheet first t).2 →
        Written symbols t' (first.parts (·.literal c) symbols t' sheet) python :=
      fun _ => written_cell
    unfold items at h after
    generalize Body.cell symbols name (·.literal c) sheet first t = cell at h after written
    rcases cell with ⟨e | python, t₁⟩
    · cases h
    · obtain ⟨others, hothers, rfl⟩ := Fallible.map_eq_ok_iff.1 h
      have later : t'.After t₁ := after.trans (by
        rw [items_snd]
        exact after_resolveAll _ t₁)
      exact .cons (written python rfl later) (ih hothers after)

/-- Rows are tuples of their cells. -/
theorem written_rows {cells : List (List RegionCell)} {texts : List String}
    (h : (rows c symbols name sheet cells t).1 = .ok texts)
    (after : t'.After (rows c symbols name sheet cells t).2) :
    List.Forall₂ (Written symbols t')
      (cells.map fun row => Part.tuple (row.map (·.parts (·.literal c) symbols t' sheet)))
      texts := by
  induction cells generalizing t texts with
  | nil =>
    cases h
    exact .nil
  | cons first rest ih =>
    have written : ∀ row, (items c symbols name sheet first t).1 = .ok row →
        t'.After (items c symbols name sheet first t).2 →
        List.Forall₂ (Written symbols t')
          (first.map (·.parts (·.literal c) symbols t' sheet)) row :=
      fun _ => written_items
    unfold rows at h after
    generalize items c symbols name sheet first t = row at h after written
    rcases row with ⟨e | row, t₁⟩
    · cases h
    · obtain ⟨others, hothers, rfl⟩ := Fallible.map_eq_ok_iff.1 h
      have later : t'.After t₁ := after.trans (by
        rw [rows_snd]
        exact after_resolveAll _ t₁)
      exact .cons (.tuple (written row rfl later)) (ih hothers after)

/-- A region is its parts, whichever way it is written: one cell, a comprehension, or tuples of
cells where no comprehension was found. -/
theorem written_region {g : Region} {python : String}
    (h : (region c symbols name g t).1 = .ok python)
    (after : t'.After (region c symbols name g t).2.1) :
    Written symbols t' (g.parts c symbols t') python := by
  by_cases single : ∃ only, g.rows = [[only]]
  · obtain ⟨only, single⟩ := single
    simp only [region, Region.parts, single] at h after ⊢
    exact written_cell h after
  · have several : ∀ only, g.rows ≠ [[only]] := fun only h => single ⟨only, h⟩
    have parts : g.parts c symbols t' = g.partsOfBlock c symbols t' := by
      unfold Region.parts
      split
      next only h => exact absurd h (several only)
      next => rfl
    have cellByCell : ∀ {t : AliasTable},
        (rows c symbols name g.sheet g.rows t).1.map Python.tuple = .ok python →
        t'.After (rows c symbols name g.sheet g.rows t).2 →
        Written symbols t' (g.partsOfCells c symbols t') python := by
      intro t h after
      obtain ⟨texts, hrows, rfl⟩ := Fallible.map_eq_ok_iff.1 h
      exact .tuple (written_rows hrows after)
    rw [region_of_several c symbols name g t several, comprehension?_eq] at h after
    rw [parts, Region.partsOfBlock, Region.loop?]
    cases found : g.block? with
    | none =>
      rw [found] at h after
      exact cellByCell h after
    | some b =>
      have fst := b.comprehension_fst symbols t
      have written : ∀ text, (b.comprehension symbols t).1 = .ok text →
          t'.After (b.comprehension symbols t).2 → Written symbols t' (b.parts symbols t') text :=
        fun _ => Block.written_comprehension
      rw [found] at h after
      dsimp only at h after
      rw [Option.filter_some, ← fst]
      generalize b.comprehension symbols t = looped at h after written
      -- A block without a pattern is written cell by cell, with what it has resolved.
      rcases looped with ⟨e | text, t₁⟩
      · exact cellByCell h after
      · cases h
        exact written _ rfl after

end Body

namespace Content

/-- The references that stand in the body of a property, in written order. Those that move with the
cells of a block are not among them where the block is written as a comprehension: their ranges are. -/
def mentions : Content → Reads
  | .region g => g.mentions
  | .formula text sheet => Formula.readsOfText sheet text
  | .nothing => []

/-- The body of a property with the places of its references. -/
def parts (p : Plan) (t : AliasTable) : Content → List Part
  | .region g => g.parts p.config p.symbols t
  | .formula text sheet => Python.Scope.partsOfText { symbols := p.symbols, sheet } t text
  | .nothing => [.piece (.code "None".toList)]

theorem mentions_parts (p : Plan) (t : AliasTable) (content : Content) :
    (content.parts p t).filterMap Part.mention? = content.mentions := by
  cases content with
  | region g => exact g.mentions_parts p.config p.symbols t
  | formula text sheet => exact Python.Scope.mentions_partsOfText _ t text
  | nothing => rfl

end Content

/-- A body is its parts, filled from the table after it or any later one. -/
theorem Run.written_body {p : Plan} {candidate : Candidate} {t t' : AliasTable} {content : Content}
    {python : String} (h : (body p candidate t content).1 = .ok python)
    (after : t'.After (body p candidate t content).2.1) :
    Written p.symbols t' (content.parts p t') python := by
  cases content with
  | region g => exact Body.written_region h after
  | formula text sheet =>
    rw [body_formula] at h after
    exact Body.written_formula h after
  | nothing =>
    cases h
    exact .code "None"

end SheetCompiler
