import SheetCompiler.Formula.Token

/-!
# Reading formulas

    expression := term [operator expression]
    term       := number | text | sign term | group | range | call | name
    group      := ( [expression {, expression}] [,] )
    range      := [sheet] cell [: cell]

A sign right before the digits of a number belongs to the number. Reading goes from left to
right; each consumed token lets the next one be cut, so a fault in cutting comes before a
complaint about what follows.
-/

namespace SheetCompiler

/-- Why a text is no formula. -/
inductive FormulaError where
  | parse (error : ParseError)
  /-- A text without its leading `=`. -/
  | notFormula (text : String)
  /-- Several expressions where one is needed. -/
  | several (count : Nat)
deriving DecidableEq, Repr

def FormulaError.message : FormulaError → String
  | parse e => s!"Parse error at offset {e.position}: {e.cause.message}"
  | notFormula text => s!"Not a formula: '{text}'"
  | several count => s!"{count} top-level expressions where one is expected"

namespace Parser

/-- The complaint about the token at the front. -/
def unexpected {α : Type} (wanted : Expectation) : Tokens → Except ParseError α
  | .token token start _ _ => .error ⟨start, .unexpected wanted (some token)⟩
  | .done position => .error ⟨position, .unexpected wanted none⟩
  | .fault e => .error e

/-- The address that a token at `position` writes. -/
def address (text : String) (position : Nat) : Except ParseError Address :=
  (Address.parse text).mapError fun e => ⟨position, .badAddress text e⟩

/-- Reads the rest of a range after its first cell. -/
def range (sheet : Option String) (text : String) (position : Nat) (ts : Tokens) :
    Except ParseError (Term × Tokens) := do
  let first ← address text position
  match ts with
  | .token .colon _ _ rest =>
    match ← rest.checked with
    | .token (.cell text) position _ rest =>
      let ts ← rest.checked
      let last ← address text position
      return (.range ⟨sheet, .ofCorners first last⟩, ts)
    | ts => unexpected .cellAfterColon ts
  | ts => return (.range ⟨sheet, .ofCorners first first⟩, ts)

/-- The sign that a number carries as its first character. -/
def signSymbol (negative : Bool) : String := if negative then "-" else "+"

/-- A term after a sign. -/
def signed (negative : Bool) (operand : Term) : Term :=
  if negative then .negate operand else operand

mutual

/-- Reads a chain of terms; the first argument bounds the nesting. -/
def expression : Nat → Tokens → Except ParseError (Expression × Tokens)
  | 0, _ => .error ⟨0, .empty⟩
  | fuel + 1, ts => do
    let (t, ts) ← term fuel ts
    match ts with
    | .token (.operator op) _ _ rest =>
      let (e, ts) ← expression fuel (← rest.checked)
      return (.link t op e, ts)
    | ts => return (.last t, ts)

/-- Reads one term. -/
def term : Nat → Tokens → Except ParseError (Term × Tokens)
  | 0, _ => .error ⟨0, .empty⟩
  | fuel + 1, ts =>
    match ts with
    | .token (.number digits percent) _ _ rest => do return (.number digits percent, ← rest.checked)
    | .token (.text content) _ _ rest => do return (.text content, ← rest.checked)
    | .token (.operator .subtract) _ stop rest => signedTerm fuel true stop rest
    | .token (.operator .add) _ stop rest => signedTerm fuel false stop rest
    | .token .openParen _ _ rest => do
      let (items, ts) ← items fuel (← rest.checked)
      return (.group items, ts)
    | .token (.sheet sheet) _ _ rest => do
      match ← rest.checked with
      | .token (.cell text) position _ rest => range (some sheet) text position (← rest.checked)
      | ts => unexpected (.cellOfSheet sheet) ts
    | .token (.cell text) position _ rest => do
      match ← rest.checked with
      | .token .openParen _ _ rest =>
        let (arguments, ts) ← items fuel (← rest.checked)
        return (.call text arguments, ts)
      | ts => range none text position ts
    | .token (.name name) _ _ rest => do
      match ← rest.checked with
      | .token .openParen _ _ rest =>
        let (arguments, ts) ← items fuel (← rest.checked)
        return (.call name arguments, ts)
      | ts => return (if name = "None" then .null else .name name, ts)
    | ts => unexpected .value ts

/-- Reads the term after a sign that ends at byte `stop`. -/
def signedTerm : Nat → Bool → Nat → Tokens → Except ParseError (Term × Tokens)
  | 0, _, _, _ => .error ⟨0, .empty⟩
  | fuel + 1, negative, stop, rest => do
    let ts ← rest.checked
    match ts with
    | .token (.number digits percent) start _ rest =>
      if start = stop then return (.number (signSymbol negative ++ digits) percent, ← rest.checked)
      else
        let (operand, ts) ← term fuel ts
        return (signed negative operand, ts)
    | ts =>
      let (operand, ts) ← term fuel ts
      return (signed negative operand, ts)

/-- Reads expressions up to the closing parenthesis. -/
def items : Nat → Tokens → Except ParseError (List Expression × Tokens)
  | 0, _ => .error ⟨0, .empty⟩
  | fuel + 1, ts =>
    match ts with
    | .token .closeParen _ _ rest => do return ([], ← rest.checked)
    | ts => do
      let (e, ts) ← expression fuel ts
      match ts with
      | .token .comma _ _ rest =>
        let (es, ts) ← items fuel (← rest.checked)
        return (e :: es, ts)
      | .token .closeParen _ _ rest => return ([e], ← rest.checked)
      | ts => unexpected .separator ts

end

/-- A bound on the calls that reading so many tokens makes in a row. -/
def fuelFor (ts : Tokens) : Nat := 4 * ts.length + 4

/-- Reads expressions up to the end. -/
def expressions : Nat → Tokens → Except ParseError (List Expression)
  | 0, _ => .error ⟨0, .empty⟩
  | fuel + 1, ts =>
    match ts with
    | .done _ => .ok []
    | ts => do
      let (e, ts) ← expression (fuelFor ts) ts
      let es ← expressions fuel ts
      return e :: es

end Parser

namespace Formula

/-- Reads the expressions of a text without its `=`. -/
def ofPayload (cs : List Char) : Except ParseError Formula := do
  let ts ← (Tokens.scan cs).checked
  match ts with
  | .done _ => .error ⟨0, .empty⟩
  | ts => return ⟨← Parser.expressions (ts.length + 1) ts⟩

/-- Reads a text without its `=`. -/
def parseExpressions (s : String) : Except FormulaError Formula :=
  (ofPayload s.toList).mapError .parse

/-- Reads a text that starts with `=`. -/
def parse (s : String) : Except FormulaError Formula :=
  match Text.trim s.toList with
  | '=' :: payload => (ofPayload payload).mapError .parse
  | cs => .error (.notFormula (String.ofList cs))

/-- The payload of a text with or without its leading `=`. -/
def payload (s : String) : List Char := Text.dropMark '=' (Text.trim s.toList)

/-- Reads a text, with or without its `=`, that holds one expression. -/
def parseSingle (s : String) : Except FormulaError Formula := do
  let f ← (ofPayload (payload s)).mapError .parse
  if f.expressions.length = 1 then return f else throw (.several f.expressions.length)

/-- Reads a text of any number of expressions, with or without its `=`. -/
def parseAny (s : String) : Except FormulaError Formula :=
  (ofPayload (payload s)).mapError .parse

end Formula

end SheetCompiler
