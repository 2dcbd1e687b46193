import SheetCompiler.Grid.Reference

/-!
# Formulas

A formula is a list of expressions, nearly always one. An expression is a flat chain of operands
and operators as they were written: reading applies no precedence, and what a chain means is left
to the language it is written out in. The operands nest through calls, groups and negation.
-/

namespace SheetCompiler

inductive Operator where
  | greaterEqual
  | lessEqual
  | notEqual
  | add
  | subtract
  | multiply
  | divide
  | power
  | equal
  | greater
  | less
  | concat
deriving DecidableEq, Repr

/-- The operator as written in a formula. -/
def Operator.symbol : Operator → String
  | greaterEqual => ">="
  | lessEqual => "<="
  | notEqual => "<>"
  | add => "+"
  | subtract => "-"
  | multiply => "*"
  | divide => "/"
  | power => "^"
  | equal => "="
  | greater => ">"
  | less => "<"
  | concat => "&"

mutual

/-- One operand of an expression. -/
inductive Term where
  /-- Digits with sign, point and exponent as written, and whether a percent sign follows. -/
  | number (digits : String) (percent : Bool)
  | text (content : String)
  | call (function : String) (arguments : List Expression)
  /-- Expressions in parentheses. -/
  | group (items : List Expression)
  | range (reference : Reference)
  /-- A defined name, a truth value, or a function used as a value. -/
  | name (name : String)
  | null
  | negate (operand : Term)

/-- Operands with operators between them. -/
inductive Expression where
  | last (term : Term)
  | link (term : Term) (op : Operator) (rest : Expression)

end

/-- The expressions of a formula in written order. -/
structure Formula where
  expressions : List Expression

mutual

def Term.decEq : (a b : Term) → Decidable (a = b)
  | .number d p, .number d' p' => decidable_of_iff (d = d' ∧ p = p') (by simp)
  | .text s, .text s' => decidable_of_iff (s = s') (by simp)
  | .call f as, .call f' as' =>
    match instDecidableEqString f f', Expression.decEqList as as' with
    | isTrue h, isTrue h' => isTrue (by rw [h, h'])
    | isFalse h, _ => isFalse (by simp [h])
    | _, isFalse h => isFalse (by simp [h])
  | .group as, .group as' =>
    match Expression.decEqList as as' with
    | isTrue h => isTrue (by rw [h])
    | isFalse h => isFalse (by simp [h])
  | .range r, .range r' => decidable_of_iff (r = r') (by simp)
  | .name n, .name n' => decidable_of_iff (n = n') (by simp)
  | .null, .null => isTrue rfl
  | .negate t, .negate t' =>
    match Term.decEq t t' with
    | isTrue h => isTrue (by rw [h])
    | isFalse h => isFalse (by simp [h])
  | .number .., .text .. | .number .., .call .. | .number .., .group .. | .number .., .range ..
  | .number .., .name .. | .number .., .null | .number .., .negate .. => isFalse nofun
  | .text .., .number .. | .text .., .call .. | .text .., .group .. | .text .., .range ..
  | .text .., .name .. | .text .., .null | .text .., .negate .. => isFalse nofun
  | .call .., .number .. | .call .., .text .. | .call .., .group .. | .call .., .range ..
  | .call .., .name .. | .call .., .null | .call .., .negate .. => isFalse nofun
  | .group .., .number .. | .group .., .text .. | .group .., .call .. | .group .., .range ..
  | .group .., .name .. | .group .., .null | .group .., .negate .. => isFalse nofun
  | .range .., .number .. | .range .., .text .. | .range .., .call .. | .range .., .group ..
  | .range .., .name .. | .range .., .null | .range .., .negate .. => isFalse nofun
  | .name .., .number .. | .name .., .text .. | .name .., .call .. | .name .., .group ..
  | .name .., .range .. | .name .., .null | .name .., .negate .. => isFalse nofun
  | .null, .number .. | .null, .text .. | .null, .call .. | .null, .group ..
  | .null, .range .. | .null, .name .. | .null, .negate .. => isFalse nofun
  | .negate .., .number .. | .negate .., .text .. | .negate .., .call .. | .negate .., .group ..
  | .negate .., .range .. | .negate .., .name .. | .negate .., .null => isFalse nofun

def Expression.decEq : (a b : Expression) → Decidable (a = b)
  | .last t, .last t' =>
    match Term.decEq t t' with
    | isTrue h => isTrue (by rw [h])
    | isFalse h => isFalse (by simp [h])
  | .link t op e, .link t' op' e' =>
    match Term.decEq t t', instDecidableEqOperator op op', Expression.decEq e e' with
    | isTrue h, isTrue h', isTrue h'' => isTrue (by rw [h, h', h''])
    | isFalse h, _, _ => isFalse (by simp [h])
    | _, isFalse h, _ => isFalse (by simp [h])
    | _, _, isFalse h => isFalse (by simp [h])
  | .last .., .link .. | .link .., .last .. => isFalse nofun

def Expression.decEqList : (as bs : List Expression) → Decidable (as = bs)
  | [], [] => isTrue rfl
  | e :: es, e' :: es' =>
    match Expression.decEq e e', Expression.decEqList es es' with
    | isTrue h, isTrue h' => isTrue (by rw [h, h'])
    | isFalse h, _ => isFalse (by simp [h])
    | _, isFalse h => isFalse (by simp [h])
  | [], _ :: _ | _ :: _, [] => isFalse nofun

end

instance : DecidableEq Term := Term.decEq

instance : DecidableEq Expression := Expression.decEq

instance : DecidableEq Formula := fun a b =>
  decidable_of_iff (a.expressions = b.expressions) (by cases a; cases b; simp)

namespace Expression

/-- Operands in written order, each with the operator after it. -/
def links : Expression → List (Term × Option Operator)
  | last t => [(t, none)]
  | link t op rest => (t, some op) :: rest.links

end Expression

end SheetCompiler
