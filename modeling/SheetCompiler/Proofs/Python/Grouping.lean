import Mathlib.Data.List.TakeWhile
import SheetCompiler.Proofs.Number.Sign
import SheetCompiler.Python.Expression

/-!
# Grouping

A chain is written out as it stands, so its operands are grouped twice: by the precedence of the
spreadsheet when the formula is computed, and by that of Python when the text is. A `Precedence` says
which of two operators takes the operand between them, and `Precedence.grouping` builds the tree of a
chain from left to right: the next operator goes down the right edge of the tree so far as long as
it takes what stands there.

The two precedences differ in three places: a power takes its left operand from another power and
from a sign in Python only, and a sum takes its left operand from a concatenation in the spreadsheet
only. So, signs before powers apart, exactly the chains that are `Regrouped` change their tree
(`grouping_eq_iff`).
-/

namespace SheetCompiler

/-! ### Chains and their trees -/

/-- The operators of a chain in written order. -/
def Expression.operators (e : Expression) : List Operator := e.links.filterMap (·.2)

/-- The operand is written with a sign. -/
def Term.isSigned : Term → Bool
  | .negate _ => true
  | .number digits _ => digits.toList.head?.any fun c => c = '+' || c = '-'
  | _ => false

namespace Operator

def isComparison : Operator → Bool
  | greaterEqual | lessEqual | notEqual | equal | greater | less => true
  | _ => false

def isAdditive : Operator → Bool
  | add | subtract => true
  | _ => false

end Operator

namespace Python

/-- An operand of a chain: some signs and what they stand before. -/
structure Operand where
  signs : List Char
  body : String
deriving DecidableEq

/-- Operands with operators between them, which grows at its end. -/
inductive Chain (ω : Type) where
  | single (first : Operand)
  | extend (earlier : Chain ω) (op : ω) (last : Operand)

/-- A chain with its operands grouped. -/
inductive Grouping (ω : Type) where
  | leaf (body : String)
  | signed (sign : Char) (operand : Grouping ω)
  | binary (op : ω) (left right : Grouping ω)
deriving DecidableEq

/-- Which operators bind more tightly than others. -/
structure Precedence (ω : Type) where
  /-- The later of two operators takes the operand between them. -/
  takes : (earlier later : ω) → Bool
  /-- The operator takes the operand before it from a sign. -/
  takesSigned : ω → Bool

variable {ω ω' : Type}

namespace Operand

def text (o : Operand) : String := String.ofList o.signs ++ o.body

def grouping (o : Operand) : Grouping ω := o.signs.foldr .signed (.leaf o.body)

/-- Signs at the front of a text stand before the rest of it. -/
def ofText (text : String) : Operand :=
  ⟨text.toList.takeWhile fun c => c = '+' || c = '-',
    String.ofList (text.toList.dropWhile fun c => c = '+' || c = '-')⟩

end Operand

namespace Chain

def ops : Chain ω → List ω
  | single _ => []
  | extend earlier op _ => earlier.ops ++ [op]

def last : Chain ω → Operand
  | single first => first
  | extend _ _ last => last

def map (f : ω → ω') : Chain ω → Chain ω'
  | single first => .single first
  | extend earlier op last => .extend (earlier.map f) (f op) last

def text : Chain String → String
  | single first => first.text
  | extend earlier op last => earlier.text ++ op ++ last.text

end Chain

namespace Grouping

def map (f : ω → ω') : Grouping ω → Grouping ω'
  | leaf body => .leaf body
  | signed sign operand => .signed sign (operand.map f)
  | binary op left right => .binary (f op) (left.map f) (right.map f)

def text : Grouping String → String
  | leaf body => body
  | signed sign operand => String.ofList [sign] ++ operand.text
  | binary op left right => left.text ++ op ++ right.text

end Grouping

namespace Precedence

/-- The tree of a chain with one more operator and operand at its end. -/
def attach (g : Precedence ω) (op : ω) (last : Operand) : Grouping ω → Grouping ω
  | .leaf body => .binary op (.leaf body) last.grouping
  | .signed sign operand =>
    if g.takesSigned op then .signed sign (g.attach op last operand)
    else .binary op (.signed sign operand) last.grouping
  | .binary earlier left right =>
    if g.takes earlier op then .binary earlier left (g.attach op last right)
    else .binary op (.binary earlier left right) last.grouping

/-- The tree that the precedence gives to a chain. -/
def grouping (g : Precedence ω) : Chain ω → Grouping ω
  | .single first => first.grouping
  | .extend earlier op last => g.attach op last (g.grouping earlier)

end Precedence

/-! ### The two precedences -/

/-- How loosely the operators of a spreadsheet bind. -/
def looseness : Operator → Nat
  | .power => 0
  | .multiply | .divide => 1
  | .add | .subtract => 2
  | .concat => 3
  | .equal | .notEqual | .less | .greater | .lessEqual | .greaterEqual => 4

/-- In a spreadsheet a sign binds most tightly, and operators that bind alike group to the left. -/
def spreadsheet : Precedence Operator where
  takes earlier later := looseness later < looseness earlier
  takesSigned _ := false

/-- How loosely the operators of Python bind. -/
def pythonLooseness : String → Nat
  | "**" => 0
  | "*" | "/" => 1
  | "+" | "-" | " + " => 2
  | _ => 3

/-- In Python a power binds more tightly than a sign before it, and powers group to the right. -/
def python : Precedence String where
  takes earlier later :=
    pythonLooseness later < pythonLooseness earlier || (later == "**" && earlier == "**")
  takesSigned later := later == "**"

/-- The tree that Python gives to a chain. Two comparisons in a row are no tree of two operators but
one condition on three operands. -/
def pythonGrouping? (c : Chain String) : Option (Grouping String) :=
  if c.ops.countP (pythonLooseness · = 3) ≤ 1 then some (python.grouping c) else none

/-- Two powers in a row, or a sum after a concatenation with no comparison in between. -/
def Regrouped (ops : List Operator) : Prop :=
  [.power, .power] <:+: ops ∨
    ∃ between op, .concat :: (between ++ [op]) <:+: ops ∧ op.isAdditive ∧
      ∀ other ∈ between, ¬other.isComparison

/-! ### The text of a tree -/

theorem Operand.text_ofText (text : String) : (ofText text).text = text := by
  rw [ofText, Operand.text, ← String.ofList_append, List.takeWhile_append_dropWhile,
    String.ofList_toList]

theorem Operand.text_grouping (o : Operand) : (o.grouping : Grouping String).text = o.text := by
  obtain ⟨signs, body⟩ := o
  induction signs with
  | nil => exact (String.empty_append).symm
  | cons sign signs ih =>
    change String.ofList [sign] ++ (Operand.grouping ⟨signs, body⟩ : Grouping String).text = _
    rw [ih, Operand.text, Operand.text, ← String.append_assoc, ← String.ofList_append]
    rfl

namespace Precedence

/-- The step: an operator and an operand are written behind the tree, wherever they are attached. -/
theorem text_attach (g : Precedence String) (op : String) (last : Operand) (t : Grouping String) :
    (g.attach op last t).text = t.text ++ op ++ last.text := by
  induction t with
  | leaf body => simp only [attach, Grouping.text, Operand.text_grouping]
  | signed sign operand ih =>
    unfold attach
    split
    · simp only [Grouping.text, ih, String.append_assoc]
    · simp only [Grouping.text, Operand.text_grouping]
  | binary earlier left right _ ih =>
    unfold attach
    split
    · simp only [Grouping.text, ih, String.append_assoc]
    · simp only [Grouping.text, Operand.text_grouping]

/-- Whatever the precedence, the tree spells the chain. -/
theorem text_grouping (g : Precedence String) (c : Chain String) : (g.grouping c).text = c.text := by
  induction c with
  | single first => exact first.text_grouping
  | extend earlier op last ih => rw [grouping, text_attach, ih, Chain.text]

end Precedence

/-! ### Renaming operators -/

theorem Operand.map_grouping (o : Operand) (f : ω → ω') : o.grouping.map f = o.grouping := by
  obtain ⟨signs, body⟩ := o
  induction signs with
  | nil => rfl
  | cons sign signs ih => exact congrArg (Grouping.signed sign) ih

/-- Renaming operators apart keeps trees apart. -/
theorem Grouping.map_injective {f : ω → ω'} (h : f.Injective) : (Grouping.map f).Injective := by
  intro s
  induction s with
  | leaf body =>
    intro t eq
    cases t <;> cases eq
    rfl
  | signed sign operand ih =>
    intro t eq
    cases t <;> simp only [map, reduceCtorEq, signed.injEq] at eq
    obtain ⟨rfl, eq⟩ := eq
    rw [ih eq]
  | binary op left right ihl ihr =>
    intro t eq
    cases t <;> simp only [map, reduceCtorEq, binary.injEq] at eq
    obtain ⟨eq, eql, eqr⟩ := eq
    rw [h eq, ihl eql, ihr eqr]

theorem Chain.ops_map (f : ω → ω') (c : Chain ω) : (c.map f).ops = c.ops.map f := by
  induction c with
  | single first => rfl
  | extend earlier op last ih => simp [map, ops, ih]

namespace Precedence

/-- Operators that bind like those they are renamed to. -/
def comap (f : ω → ω') (g : Precedence ω') : Precedence ω where
  takes earlier later := g.takes (f earlier) (f later)
  takesSigned later := g.takesSigned (f later)

/-- The step: attaching by the precedence of the new names is attaching by that of the old ones. -/
theorem map_attach (f : ω → ω') (g : Precedence ω') (op : ω) (last : Operand) (t : Grouping ω) :
    ((g.comap f).attach op last t).map f = g.attach (f op) last (t.map f) := by
  induction t with
  | leaf body => simp only [attach, Grouping.map, Operand.map_grouping]
  | signed sign operand ih =>
    by_cases h : g.takesSigned (f op)
    · have h' : (g.comap f).takesSigned op := h
      simp only [attach, h, h', if_true, Grouping.map, ih]
    · have h' : ¬(g.comap f).takesSigned op := h
      simp only [attach, h, h', if_false, Grouping.map, Operand.map_grouping, Bool.false_eq_true]
  | binary earlier left right _ ih =>
    by_cases h : g.takes (f earlier) (f op)
    · have h' : (g.comap f).takes earlier op := h
      simp only [attach, h, h', if_true, Grouping.map, ih]
    · have h' : ¬(g.comap f).takes earlier op := h
      simp only [attach, h, h', if_false, Grouping.map, Operand.map_grouping, Bool.false_eq_true]

/-- The run over a chain. -/
theorem map_grouping (f : ω → ω') (g : Precedence ω') (c : Chain ω) :
    ((g.comap f).grouping c).map f = g.grouping (c.map f) := by
  induction c with
  | single first => exact first.map_grouping f
  | extend earlier op last ih => rw [grouping, map_attach, ih, Chain.map, grouping]

end Precedence

/-! ### Where two precedences agree -/

namespace Grouping

def isOperand : Grouping ω → Bool
  | leaf _ => true
  | signed _ operand => operand.isOperand
  | binary .. => false

/-- Takes the lowest operator of the right edge away, with its right operand. -/
def detach : Grouping ω → Grouping ω
  | leaf body => .leaf body
  | signed sign operand => .signed sign operand.detach
  | binary op left right => if right.isOperand then left else .binary op left right.detach

end Grouping

theorem Operand.isOperand_grouping (o : Operand) : (o.grouping : Grouping ω).isOperand := by
  obtain ⟨signs, body⟩ := o
  induction signs with
  | nil => rfl
  | cons sign signs ih => exact ih

namespace Precedence

variable (g : Precedence ω) (op : ω) (last : Operand)

/-- What an operator was attached to is no operand. -/
theorem isOperand_attach (t : Grouping ω) : (g.attach op last t).isOperand = false := by
  induction t with
  | leaf body => rfl
  | signed sign operand ih =>
    unfold attach
    split
    · exact ih
    · rfl
  | binary earlier left right =>
    unfold attach
    split <;> rfl

/-- Detaching undoes attaching, so the tree before can be told from the tree after. -/
theorem detach_attach (t : Grouping ω) : (g.attach op last t).detach = t := by
  induction t with
  | leaf body => rw [attach, Grouping.detach, if_pos last.isOperand_grouping]
  | signed sign operand ih =>
    unfold attach
    split
    · rw [Grouping.detach, ih]
    · rw [Grouping.detach, if_pos last.isOperand_grouping]
  | binary earlier left right _ ih =>
    unfold attach
    split
    · rw [Grouping.detach, isOperand_attach, if_neg (by decide), ih]
    · rw [Grouping.detach, if_pos last.isOperand_grouping]

end Precedence

/-- The operators on the right edge of a tree, from the root on, and the operand at its end. -/
def Grouping.Edge (o : Operand) : List ω → Grouping ω → Prop
  | [], t => t = o.grouping
  | op :: ops, t => ∃ left right, t = .binary op left right ∧ Edge o ops right

/-- The operators on the right edge of the tree of a chain, if no sign is taken from. -/
def Precedence.edge (g : Precedence ω) : Chain ω → List ω
  | .single _ => []
  | .extend earlier op _ => (g.edge earlier).takeWhile (g.takes · op) ++ [op]

namespace Precedence

variable {g g' : Precedence ω} {op : ω} {last o : Operand}

/-- Behind an operand, an operator takes it as a whole, unless it takes it from a sign. -/
theorem attach_operand (kept : g.takesSigned op = false ∨ o.signs = []) :
    g.attach op last o.grouping = .binary op o.grouping last.grouping := by
  obtain ⟨signs, body⟩ := o
  cases signs with
  | nil => rfl
  | cons sign signs =>
    have kept : g.takesSigned op = false := kept.resolve_right (List.cons_ne_nil _ _)
    exact if_neg (Bool.eq_false_iff.1 kept)

/-- The step: the operators that are not taken leave the edge, and the new one ends it. -/
theorem edge_attach (kept : g.takesSigned op = false) {edge : List ω} {t : Grouping ω}
    (h : t.Edge o edge) : (g.attach op last t).Edge last (edge.takeWhile (g.takes · op) ++ [op]) := by
  induction edge generalizing t with
  | nil =>
    cases h
    rw [attach_operand (.inl kept)]
    exact ⟨_, _, rfl, rfl⟩
  | cons earlier edge ih =>
    obtain ⟨left, right, rfl, h⟩ := h
    by_cases taken : g.takes earlier op
    · rw [attach, if_pos taken, List.takeWhile_cons, taken, if_pos rfl]
      exact ⟨_, _, rfl, ih h⟩
    · rw [attach, if_neg taken, List.takeWhile_cons, if_neg taken]
      exact ⟨_, _, rfl, rfl⟩

/-- The run over a chain. -/
theorem edge_grouping (kept : ∀ op, g.takesSigned op = false) (c : Chain ω) :
    (g.grouping c).Edge c.last (g.edge c) := by
  induction c with
  | single first => rfl
  | extend earlier op last ih => exact edge_attach (kept op) ih

/-- Two precedences attach an operator in the same place exactly if it takes equally many operators of
the right edge. -/
theorem attach_eq_iff (last : Operand) (kept : g.takesSigned op = false ∨ o.signs = [])
    (kept' : g'.takesSigned op = false ∨ o.signs = []) {edge : List ω} {t : Grouping ω}
    (h : t.Edge o edge) : g.attach op last t = g'.attach op last t ↔
      edge.takeWhile (g.takes · op) = edge.takeWhile (g'.takes · op) := by
  induction edge generalizing t with
  | nil =>
    cases h
    rw [attach_operand kept, attach_operand kept']
    simp
  | cons earlier edge ih =>
    obtain ⟨left, right, rfl, h⟩ := h
    have deeper : left ≠ .binary earlier left right := fun same => by
      have := congrArg sizeOf same
      simp only [Grouping.binary.sizeOf_spec] at this
      omega
    by_cases taken : g.takes earlier op <;> by_cases taken' : g'.takes earlier op
    · simp [attach, taken, taken', ih h]
    · simp [attach, taken, taken', deeper]
    · simp [attach, taken, taken', deeper.symm]
    · simp [attach, taken, taken']

end Precedence

/-! ### The chains that change their tree -/

/-- For operators as a spreadsheet writes them the two precedences differ in two pairs. -/
theorem takes_eq_iff (earlier later : Operator) :
    (python.comap Operator.python).takes earlier later = spreadsheet.takes earlier later ↔
      ¬(earlier = .power ∧ later = .power) ∧ ¬(earlier = .concat ∧ later.isAdditive) := by
  cases earlier <;> cases later <;> decide

theorem spreadsheet_takes_iff {earlier later : Operator} :
    spreadsheet.takes earlier later ↔ looseness later < looseness earlier :=
  decide_eq_true_iff

/-- Each operator on the edge binds more tightly than those above it. -/
theorem edge_sorted (c : Chain Operator) :
    (spreadsheet.edge c).Pairwise fun above below => looseness below < looseness above := by
  induction c with
  | single first => exact .nil
  | extend earlier op last ih =>
    refine List.pairwise_append.2 ⟨ih.sublist (List.takeWhile_sublist _), List.pairwise_singleton .., ?_⟩
    intro above mem below single
    cases List.mem_singleton.1 single
    have taken := List.mem_takeWhile_imp mem
    exact spreadsheet_takes_iff.1 taken

/-- What stands above an operator on a sorted edge is taken if the operator is. -/
theorem mem_takeWhile_of_sorted {edge : List Operator} {op e : Operator}
    (sorted : edge.Pairwise fun above below => looseness below < looseness above)
    (taken : spreadsheet.takes e op) (mem : e ∈ edge) :
    e ∈ edge.takeWhile (spreadsheet.takes · op) := by
  induction edge with
  | nil => cases mem
  | cons above edge ih =>
    obtain ⟨looser, sorted⟩ := List.pairwise_cons.1 sorted
    have here : spreadsheet.takes above op := by
      rcases List.mem_cons.1 mem with rfl | mem
      · exact taken
      · have := spreadsheet_takes_iff.1 taken
        exact spreadsheet_takes_iff.2 (Nat.lt_trans this (looser e mem))
    rw [List.takeWhile_cons, here, if_pos rfl]
    rcases List.mem_cons.1 mem with rfl | mem
    · exact List.mem_cons_self
    · exact List.mem_cons_of_mem _ (ih sorted mem)

/-- An operator is attached in the same place unless it and one on the edge are such a pair. -/
theorem takeWhile_eq_iff {edge : List Operator} (op : Operator)
    (sorted : edge.Pairwise fun above below => looseness below < looseness above) :
    edge.takeWhile ((python.comap Operator.python).takes · op) =
        edge.takeWhile (spreadsheet.takes · op) ↔
      ¬(op = .power ∧ .power ∈ edge) ∧ ¬(op.isAdditive ∧ .concat ∈ edge) := by
  constructor
  · intro same
    constructor
    · rintro ⟨rfl, mem⟩
      have all : ∀ e ∈ edge, (python.comap Operator.python).takes e .power := fun e _ => by
        cases e <;> rfl
      rw [List.takeWhile_eq_self_iff.2 all] at same
      rw [same] at mem
      exact absurd (List.mem_takeWhile_imp mem) (by decide)
    · rintro ⟨additive, mem⟩
      -- The spreadsheet takes the concatenation, and Python would have to.
      have taken : spreadsheet.takes .concat op := by
        cases op <;> first | rfl | cases additive
      have taken' := mem_takeWhile_of_sorted sorted taken mem
      rw [← same] at taken'
      have pair := (takes_eq_iff .concat op).1 ((List.mem_takeWhile_imp taken').trans taken.symm)
      exact pair.2 ⟨rfl, additive⟩
  · rintro ⟨power, additive⟩
    have alike : ∀ e ∈ edge, (python.comap Operator.python).takes e op = spreadsheet.takes e op := by
      intro e mem
      rw [takes_eq_iff]
      constructor
      · rintro ⟨rfl, rfl⟩
        exact power ⟨rfl, mem⟩
      · rintro ⟨rfl, h⟩
        exact additive ⟨h, mem⟩
    clear sorted power additive
    induction edge with
    | nil => rfl
    | cons e edge ih =>
      rw [List.takeWhile_cons, List.takeWhile_cons, alike e List.mem_cons_self,
        ih fun e mem => alike e (List.mem_cons_of_mem _ mem)]

/-- There is a concatenation after the last comparison. -/
def EndsInConcat (ops : List Operator) : Prop :=
  ∃ after, .concat :: after <:+ ops ∧ ∀ other ∈ after, ¬other.isComparison

/-- A concatenation ends the operators, or stands in them and no comparison is added. -/
theorem endsInConcat_concat (ops : List Operator) (op : Operator) :
    EndsInConcat (ops ++ [op]) ↔ op = .concat ∨ EndsInConcat ops ∧ ¬op.isComparison := by
  simp only [EndsInConcat, List.suffix_concat_iff]
  constructor
  · rintro ⟨after, empty | ⟨before, eq, suffix⟩, quiet⟩
    · cases empty
    · cases before with
      | nil =>
        cases eq
        exact .inl rfl
      | cons first before =>
        cases eq
        refine .inr ⟨⟨before, suffix, fun other mem => quiet other ?_⟩, quiet op ?_⟩
        · exact List.mem_append_left _ mem
        · exact List.mem_append_right _ List.mem_cons_self
  · rintro (rfl | ⟨⟨after, suffix, quiet⟩, comparison⟩)
    · exact ⟨[], .inr ⟨[], rfl, List.nil_suffix⟩, by simp⟩
    · refine ⟨after ++ [op], .inr ⟨.concat :: after, rfl, suffix⟩, fun other mem => ?_⟩
      rcases List.mem_append.1 mem with mem | mem
      · exact quiet other mem
      · cases List.mem_singleton.1 mem
        exact comparison

/-- One more operator is regrouped if it is a power behind a power, or a sum behind a concatenation.
-/
theorem regrouped_concat (ops : List Operator) (op : Operator) :
    Regrouped (ops ++ [op]) ↔ Regrouped ops ∨ (op = .power ∧ ops.getLast? = some .power) ∨
      (op.isAdditive ∧ EndsInConcat ops) := by
  have power : [.power, .power] <:+ ops ++ [op] ↔ op = .power ∧ ops.getLast? = some .power := by
    have front : [Operator.power] <:+ ops ↔ ops.getLast? = some .power :=
      List.singleton_suffix_iff_getLast?_eq_some
    have := @List.suffix_append_inj_of_length_eq _ [Operator.power] ops [.power] [op] rfl
    rw [List.singleton_append, front, List.singleton_inj, and_comm, eq_comm] at this
    exact this
  have sum (between : List Operator) (next : Operator) :
      .concat :: (between ++ [next]) <:+ ops ++ [op] ↔ next = op ∧ .concat :: between <:+ ops := by
    have := @List.suffix_append_inj_of_length_eq _ (.concat :: between) ops [next] [op] rfl
    rw [List.cons_append, List.singleton_inj, and_comm] at this
    exact this
  simp only [Regrouped, List.infix_concat_iff, power, sum, EndsInConcat]
  constructor
  · rintro ((power | power) | ⟨between, next, ⟨rfl, suffix⟩ | inside, additive, quiet⟩)
    · exact .inr (.inl power)
    · exact .inl (.inl power)
    · exact .inr (.inr ⟨additive, between, suffix, quiet⟩)
    · exact .inl (.inr ⟨between, next, inside, additive, quiet⟩)
  · rintro ((power | ⟨between, next, inside, additive, quiet⟩) | power | ⟨additive, between, suffix, quiet⟩)
    · exact .inl (.inr power)
    · exact .inr ⟨between, next, .inr inside, additive, quiet⟩
    · exact .inl (.inl power)
    · exact .inr ⟨between, op, .inl ⟨rfl, suffix⟩, additive, quiet⟩

theorem regrouped_nil : ¬Regrouped [] := by simp [Regrouped]

/-- A power is on the edge exactly if it came last, as every other operator takes it off. -/
theorem power_mem_edge (c : Chain Operator) :
    .power ∈ spreadsheet.edge c ↔ c.ops.getLast? = some .power := by
  cases c with
  | single first => simp [Precedence.edge, Chain.ops]
  | extend earlier op last =>
    have not : .power ∉ (spreadsheet.edge earlier).takeWhile (spreadsheet.takes · op) := by
      intro mem
      have := List.mem_takeWhile_imp mem
      exact absurd (spreadsheet_takes_iff.1 this) (Nat.not_lt_zero _)
    simp [Precedence.edge, Chain.ops, not, eq_comm]

/-- A concatenation is on the edge until a comparison comes. -/
theorem concat_mem_edge (c : Chain Operator) : .concat ∈ spreadsheet.edge c ↔ EndsInConcat c.ops := by
  induction c with
  | single first => simp [Precedence.edge, Chain.ops, EndsInConcat]
  | extend earlier op last ih =>
    rw [Precedence.edge, Chain.ops, endsInConcat_concat, ← ih, List.mem_append, List.mem_singleton]
    have tighter : spreadsheet.takes .concat op ↔ op ≠ .concat ∧ ¬op.isComparison := by
      cases op <;> decide
    have kept : .concat ∈ (spreadsheet.edge earlier).takeWhile (spreadsheet.takes · op) ↔
        .concat ∈ spreadsheet.edge earlier ∧ op ≠ .concat ∧ ¬op.isComparison := by
      rw [← tighter]
      constructor
      · intro mem
        have taken := List.mem_takeWhile_imp mem
        exact ⟨(List.takeWhile_sublist _).mem mem, taken⟩
      · exact fun ⟨mem, taken⟩ => mem_takeWhile_of_sorted (edge_sorted earlier) taken mem
    rw [kept]
    by_cases same : op = .concat
    · simp [same]
    · simp [same, Ne.symm same]

/-- No power follows an operand with a sign. -/
def Chain.Plain : Chain Operator → Prop
  | .single _ => True
  | .extend earlier op _ => earlier.Plain ∧ (op = .power → earlier.last.signs = [])

/-- Without signs before powers, exactly the regrouped chains change their tree. -/
theorem grouping_eq_iff {c : Chain Operator} (plain : c.Plain) :
    (python.comap Operator.python).grouping c = spreadsheet.grouping c ↔ ¬Regrouped c.ops := by
  induction c with
  | single first => simp [Precedence.grouping, Chain.ops, regrouped_nil]
  | extend earlier op last ih =>
    obtain ⟨plain, unsigned⟩ := plain
    have kept : (python.comap Operator.python).takesSigned op = false ∨ earlier.last.signs = [] := by
      by_cases h : op = .power
      · exact .inr (unsigned h)
      · left
        cases op <;> first | rfl | exact absurd rfl h
    have edge := Precedence.edge_grouping (g := spreadsheet) (fun _ => rfl) earlier
    have here := Precedence.attach_eq_iff last kept (.inl (rfl : spreadsheet.takesSigned op = false))
      edge
    rw [takeWhile_eq_iff op (edge_sorted earlier), power_mem_edge, concat_mem_edge] at here
    rw [Chain.ops, regrouped_concat, not_or, not_or, ← ih plain, ← here]
    -- the trees of the longer chain determine those of the shorter one
    constructor
    · intro same
      have shorter := congrArg Grouping.detach same
      simp only [Precedence.grouping, Precedence.detach_attach] at shorter
      refine ⟨shorter, ?_⟩
      simpa only [Precedence.grouping, shorter] using same
    · rintro ⟨shorter, same⟩
      rw [Precedence.grouping, Precedence.grouping, shorter, same]

/-! ### The chain that is written for an expression -/

namespace Scope

/-- An operand as it is written out. -/
def operand (scope : Scope) : Term → AliasTable → Operand
  | .negate operand, t =>
    let o := scope.operand operand t
    { o with signs := '-' :: o.signs }
  | .number digits percent, _ => .ofText (numberLiteral digits percent)
  | operand, t => ⟨[], (scope.term operand t).1⟩

/-- A chain with an operator and an expression after it. -/
def extendChain (scope : Scope) (earlier : Chain Operator) (op : Operator) :
    Expression → AliasTable → Chain Operator
  | .last operand, t => .extend earlier op (scope.operand operand t)
  | .link operand next rest, t =>
    scope.extendChain (.extend earlier op (scope.operand operand t)) next rest
      (scope.term operand t).2

/-- The chain of an expression, its operands as they are written out. -/
def chain (scope : Scope) : Expression → AliasTable → Chain Operator
  | .last operand, t => .single (scope.operand operand t)
  | .link operand op rest, t =>
    scope.extendChain (.single (scope.operand operand t)) op rest (scope.term operand t).2

variable (scope : Scope)

/-- An operand is spelled as it is written out, with its signs. -/
theorem text_operand (e : Term) (t : AliasTable) : (scope.operand e t).text = (scope.term e t).1 := by
  cases e with
  | number digits percent =>
    rw [operand, Operand.text_ofText, term]
  | text _ | name _ | null | range _ | call _ _ | group _ =>
    simp [operand, Operand.text]
  | negate operand =>
    have ih := text_operand operand t
    rw [Scope.operand, term]
    dsimp only
    rw [← ih, Operand.text, Operand.text, ← String.append_assoc, String.ofList_cons]
    rfl

/-- The run over the rest of an expression: its operators and operands are written one behind the
other. -/
theorem text_extendChain (earlier : Chain Operator) (op : Operator) (e : Expression)
    (t : AliasTable) : ((scope.extendChain earlier op e t).map Operator.python).text =
      (earlier.map Operator.python).text ++ op.python ++ (scope.expression e t).1 := by
  cases e with
  | last operand => simp only [extendChain, Chain.map, Chain.text, expression, text_operand]
  | link operand next rest =>
    have ih := text_extendChain (.extend earlier op (scope.operand operand t)) next rest
      (scope.term operand t).2
    simp only [extendChain, ih, Chain.map, Chain.text, expression, text_operand, String.append_assoc]

/-- The chain spells what is written for the expression. -/
theorem text_chain (e : Expression) (t : AliasTable) :
    ((scope.chain e t).map Operator.python).text = (scope.expression e t).1 := by
  cases e with
  | last operand => exact scope.text_operand operand t
  | link operand op rest =>
    rw [chain, text_extendChain]
    simp only [Chain.map, Chain.text, text_operand, expression]

/-- The run over the rest of an expression: its operators come in written order. -/
theorem ops_extendChain (earlier : Chain Operator) (op : Operator) (e : Expression)
    (t : AliasTable) : (scope.extendChain earlier op e t).ops = earlier.ops ++ op :: e.operators := by
  cases e with
  | last operand => rfl
  | link operand next rest =>
    have ih := ops_extendChain (.extend earlier op (scope.operand operand t)) next rest
      (scope.term operand t).2
    rw [extendChain, ih, Chain.ops, List.append_assoc]
    rfl

theorem ops_chain (e : Expression) (t : AliasTable) : (scope.chain e t).ops = e.operators := by
  cases e with
  | last operand => rfl
  | link operand op rest => exact scope.ops_extendChain _ op rest _

/-- An operand that is written without a sign in the formula is written out without one. -/
theorem signs_operand {e : Term} (unsigned : e.isSigned = false)
    (t : AliasTable) : (scope.operand e t).signs = [] := by
  cases e with
  | negate operand => cases unsigned
  | number digits percent =>
    have written : Number.Unsigned digits.toList := by
      intro c first
      simpa [Term.isSigned, Option.mem_def.1 first] using unsigned
    have out := Number.unsigned_numberLiteral percent written
    rw [operand, Operand.ofText]
    cases eq : (numberLiteral digits percent).toList with
    | nil => rfl
    | cons c cs =>
      rw [eq] at out
      simp [out c rfl]
  | text _ | name _ | null | range _ | call _ _ | group _ => simp [operand]

/-- The run over the rest of an expression: no power follows a sign. -/
theorem plain_extendChain {earlier : Chain Operator} {op : Operator} {e : Expression}
    (unsigned : ∀ x ∈ e.links, x.2 = some .power → x.1.isSigned = false) (t : AliasTable)
    (plain : earlier.Plain) (first : op = .power → earlier.last.signs = []) :
    (scope.extendChain earlier op e t).Plain := by
  match e with
  | .last operand => exact ⟨plain, first⟩
  | .link operand next rest =>
    refine plain_extendChain (fun x mem => unsigned x (List.mem_cons_of_mem _ mem)) _
      ⟨plain, first⟩ fun power => ?_
    exact scope.signs_operand
      (unsigned _ List.mem_cons_self (congrArg some power)) t

/-- A chain in which no signed operand stands before a power is plain. -/
theorem plain_chain {e : Expression}
    (unsigned : ∀ x ∈ e.links, x.2 = some .power → x.1.isSigned = false) (t : AliasTable) :
    (scope.chain e t).Plain := by
  cases e with
  | last operand => trivial
  | link operand op rest =>
    refine scope.plain_extendChain
      (fun x mem => unsigned x (List.mem_cons_of_mem _ mem)) _ trivial fun power => ?_
    exact scope.signs_operand
      (unsigned _ List.mem_cons_self (congrArg some power)) t

end Scope

theorem python_injective : Operator.python.Injective := by
  intro a b same
  cases a <;> cases b <;> first | rfl | exact absurd same (by decide)

/-- Comparisons are those of the spreadsheet. -/
theorem countP_comparisons (ops : List Operator) :
    (ops.map Operator.python).countP (pythonLooseness · = 3) = ops.countP Operator.isComparison := by
  rw [List.countP_map]
  refine List.countP_congr fun op _ => ?_
  cases op <;> decide

/-- What is written for a chain has, by Python's precedence, the tree that the chain has by that of
the spreadsheet, unless two powers stand in a row or a sum follows a concatenation. This is for
chains with at most one comparison and no signed operand right before a power. -/
theorem grouping_kept_iff {e : Expression} (compared : e.operators.countP Operator.isComparison ≤ 1)
    (unsigned : ∀ x ∈ e.links, x.2 = some .power → x.1.isSigned = false) (scope : Scope)
    (t : AliasTable) :
    ∃ tree, pythonGrouping? ((scope.chain e t).map Operator.python) = some tree ∧
      tree.text = (scope.expression e t).1 ∧
      (tree = (spreadsheet.grouping (scope.chain e t)).map Operator.python ↔
        ¬Regrouped e.operators) := by
  have plain := scope.plain_chain unsigned t
  refine ⟨python.grouping ((scope.chain e t).map Operator.python), ?_, ?_, ?_⟩
  · rw [pythonGrouping?, Chain.ops_map, countP_comparisons, scope.ops_chain, if_pos compared]
  · rw [Precedence.text_grouping, scope.text_chain]
  · rw [← Precedence.map_grouping, (Grouping.map_injective python_injective).eq_iff,
      grouping_eq_iff plain, scope.ops_chain]

/-- `A1+-B1*C1^2<D1&"%"` -/
def fiveOperators : Expression :=
  let cell (col : Nat) : Term := .range ⟨none, .ofCorners ⟨0, col, false, false⟩ ⟨0, col, false, false⟩⟩
  .link (cell 0) .add (.link (.negate (cell 1)) .multiply (.link (cell 2) .power
    (.link (.number "2" false) .less (.link (cell 3) .concat (.last (.text "%"))))))

/-- Five operators, a sign and a comparison that keep their tree. -/
theorem grouping_kept_iff_five :
    pythonGrouping? ((({} : Scope).chain fiveOperators {}).map Operator.python) =
      some ((spreadsheet.grouping (({} : Scope).chain fiveOperators {})).map Operator.python) := by
  have compared : fiveOperators.operators.countP Operator.isComparison ≤ 1 := by decide
  have unsigned : ∀ x ∈ fiveOperators.links, x.2 = some .power → x.1.isSigned = false := by decide
  obtain ⟨tree, found, -, kept⟩ := grouping_kept_iff compared unsigned {} {}
  have ops : fiveOperators.operators = [] ++ [Operator.add] ++ [Operator.multiply] ++
      [Operator.power] ++ [Operator.less] ++ [Operator.concat] := rfl
  rw [found, kept.2]
  simp only [ops, regrouped_concat, regrouped_nil]
  simp [EndsInConcat, Operator.isAdditive]

/-- `A1^B1^C1` -/
def twoPowers : Expression :=
  let cell (col : Nat) : Term := .range ⟨none, .ofCorners ⟨0, col, false, false⟩ ⟨0, col, false, false⟩⟩
  .link (cell 0) .power (.link (cell 1) .power (.last (cell 2)))

/-- Powers in a row have neither comparisons nor signs, and their tree changes. -/
theorem twoPowers_regrouped : Formula.parseAny "=A1^B1^C1" = .ok ⟨[twoPowers]⟩ ∧
    twoPowers.operators.countP Operator.isComparison = 0 ∧
    (∀ x ∈ twoPowers.links, x.1.isSigned = false) ∧
    (({ sheet := some "Calc" } : Scope).expression twoPowers {}).1 =
      "self.CalcA1**self.CalcB1**self.CalcC1" ∧
    pythonGrouping? ((({ sheet := some "Calc" } : Scope).chain twoPowers {}).map Operator.python) =
      some (.binary "**" (.leaf "self.CalcA1")
        (.binary "**" (.leaf "self.CalcB1") (.leaf "self.CalcC1"))) ∧
    (spreadsheet.grouping (({ sheet := some "Calc" } : Scope).chain twoPowers {})).map
        Operator.python =
      .binary "**" (.binary "**" (.leaf "self.CalcA1") (.leaf "self.CalcB1"))
        (.leaf "self.CalcC1") := by
  decide +kernel

end Python

end SheetCompiler
