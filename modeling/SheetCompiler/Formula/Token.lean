import SheetCompiler.Formula.Basic
import SheetCompiler.Text.Bytes

/-!
# Tokens of a formula

A formula text is cut into tokens with blanks between them. `scan` gives the tokens in order,
each with the byte offsets it stands between, and ends in the end of the text or in the fault at
which cutting stopped. A fault is reported only when reading gets to it.
-/

namespace SheetCompiler

inductive Token where
  | number (digits : String) (percent : Bool)
  | text (content : String)
  | name (name : String)
  /-- Letters and digits that look like a cell, with marks. -/
  | cell (text : String)
  /-- A sheet name with its `!`. -/
  | sheet (name : String)
  | operator (op : Operator)
  | colon
  | comma
  | openParen
  | closeParen
deriving DecidableEq, Repr

/-- A token in the words of an error message. -/
def Token.describe : Token → String
  | .number digits percent => s!"number {digits}" ++ if percent then "%" else ""
  | .text content => s!"text \"{content}\""
  | .name word => s!"name '{word}'"
  | .cell word => s!"cell '{word}'"
  | .sheet word => s!"sheet '{word}'"
  | .operator op => s!"operator '{op.symbol}'"
  | .colon => "':'"
  | .comma => "','"
  | .openParen => "'('"
  | .closeParen => "')'"

/-- What a formula should have gone on with. -/
inductive Expectation where
  | value
  | cellOfSheet (sheet : String)
  | cellAfterColon
  | separator
deriving DecidableEq, Repr

def Expectation.message : Expectation → String
  | value => "expected a value"
  | cellOfSheet sheet => s!"expected a cell reference after '{sheet}!'"
  | cellAfterColon => "expected a cell after ':'"
  | separator => "expected ',' or ')'"

/-- What is wrong with a formula text. -/
inductive ParseCause where
  | empty
  | badChar (c : Char)
  | openText
  | openSheet
  | emptySheet
  | noBang (sheet : String)
  | badSheet (text : String)
  | badCell (text : String)
  | badAddress (text : String) (cause : AddressError)
  /-- The token found, or the end of the formula. -/
  | unexpected (wanted : Expectation) (found : Option Token)
deriving DecidableEq, Repr

def ParseCause.message : ParseCause → String
  | empty => "empty formula"
  | badChar c => s!"unexpected character '{c}'"
  | openText => "unterminated text"
  | openSheet => "unterminated sheet name"
  | emptySheet => "empty sheet name"
  | noBang sheet => s!"expected '!' after sheet name '{sheet}'"
  | badSheet text => s!"invalid sheet name '{text}'"
  | badCell text => s!"invalid cell reference '{text}'"
  | badAddress text cause => s!"invalid cell reference '{text}': {cause.message}"
  | unexpected wanted found =>
    wanted.message ++ ", found " ++ ((found.map Token.describe).getD "end of formula")

/-- What is wrong with a formula text, and where: a byte offset. -/
structure ParseError where
  position : Nat
  cause : ParseCause
deriving DecidableEq, Repr

/-- The tokens of a text, up to its end or to the first fault. -/
inductive Tokens where
  | done (position : Nat)
  | fault (error : ParseError)
  | token (token : Token) (start stop : Nat) (rest : Tokens)
deriving DecidableEq, Repr

namespace Tokens

def length : Tokens → Nat
  | token _ _ _ rest => rest.length + 1
  | _ => 0

/-- The tokens to go on with, unless cutting stopped here. -/
def checked : Tokens → Except ParseError Tokens
  | fault e => .error e
  | ts => .ok ts

end Tokens

namespace Scan

/-- The offset of what is left of a text of `total` bytes. -/
def offset (total : Nat) (rest : List Char) : Nat := total - Text.byteSize rest

/-- Reads up to a closing quote; two in a row stand for one. -/
def takeQuoted (quote : Char) : List Char → Option (List Char × List Char)
  | [] => none
  | c :: cs =>
    if c = quote then
      match cs with
      | d :: ds =>
        if d = quote then (takeQuoted quote ds).map fun (s, rest) => (quote :: s, rest)
        else some ([], cs)
      | [] => some ([], [])
    else (takeQuoted quote cs).map fun (s, rest) => (c :: s, rest)

/-- Splits off the longest run of digits. -/
def takeDigits (cs : List Char) : List Char × List Char :=
  (cs.takeWhile Char.isDigit, cs.dropWhile Char.isDigit)

/-- Splits off a point and the digits after it. -/
def takeFraction : List Char → List Char × List Char
  | '.' :: cs => ('.' :: (takeDigits cs).1, (takeDigits cs).2)
  | cs => ([], cs)

/-- Splits off an exponent, if digits really follow its mark. -/
def takeExponent (cs : List Char) : List Char × List Char :=
  match cs with
  | e :: rest =>
    if e = 'e' ∨ e = 'E' then
      match rest with
      | s :: d :: _ =>
        if (s = '+' ∨ s = '-') ∧ d.isDigit then
          (e :: s :: (takeDigits rest.tail).1, (takeDigits rest.tail).2)
        else if s.isDigit then (e :: (takeDigits rest).1, (takeDigits rest).2)
        else ([], cs)
      | [d] => if d.isDigit then ([e, d], []) else ([], cs)
      | [] => ([], cs)
    else ([], cs)
  | [] => ([], [])

/-- Reads a number and a percent sign right after it. -/
def takeNumber (cs : List Char) : Token × List Char :=
  let (whole, cs) := takeDigits cs
  let (fraction, cs) := takeFraction cs
  let (exponent, cs) := takeExponent cs
  let digits := String.ofList (whole ++ fraction ++ exponent)
  match cs with
  | '%' :: cs => (.number digits true, cs)
  | cs => (.number digits false, cs)

/-- What names, cells and bare sheet names are made of. -/
def isWordChar (c : Char) : Bool := c.isAlphanum || c == '_' || c == '$' || c == '.'

/-- A sheet name that stands without quotes. -/
def isSheetWord : List Char → Bool
  | [] => false
  | c :: cs => Text.isIdentifierStart c && cs.all fun c => Text.isIdentifierChar c || c == '.'

/-- Capital letters and digits, each after an optional `$`. -/
def isCellWord (cs : List Char) : Bool :=
  let (_, cs) := Address.takeMark cs
  let (_, digits) := Address.takeMark (cs.dropWhile Char.isUpper)
  !(cs.takeWhile Char.isUpper).isEmpty && !digits.isEmpty && digits.all Char.isDigit

/-- Reads a word: a sheet name before `!`, a cell or a name. -/
def takeWord (total : Nat) (cs : List Char) : Except ParseError (Token × List Char) :=
  let word := cs.takeWhile isWordChar
  let rest := cs.dropWhile isWordChar
  let text := String.ofList word
  let error cause : Except ParseError (Token × List Char) := .error ⟨offset total cs, cause⟩
  match rest with
  | '!' :: after => if isSheetWord word then .ok (.sheet text, after) else error (.badSheet text)
  | _ =>
    if isCellWord word then .ok (.cell text, rest)
    else if word.contains '$' then error (.badCell text)
    else .ok (.name text, rest)

/-- Reads a sheet name in quotes; `cs` starts with the opening one. -/
def takeSheet (total : Nat) (cs : List Char) : Except ParseError (Token × List Char) :=
  match takeQuoted '\'' cs.tail with
  | none => .error ⟨offset total cs, .openSheet⟩
  | some ([], _) => .error ⟨offset total cs, .emptySheet⟩
  | some (name, '!' :: rest) => .ok (.sheet (String.ofList name), rest)
  | some (name, rest) => .error ⟨offset total rest, .noBang (String.ofList name)⟩

/-- Reads a text in quotes; `cs` starts with the opening one. -/
def takeText (total : Nat) (cs : List Char) : Except ParseError (Token × List Char) :=
  match takeQuoted '"' cs.tail with
  | none => .error ⟨offset total cs, .openText⟩
  | some (content, rest) => .ok (.text (String.ofList content), rest)

/-- Reads an operator of one or two characters, or punctuation. -/
def takeSymbol : List Char → Option (Token × List Char)
  | '<' :: '=' :: cs => some (.operator .lessEqual, cs)
  | '<' :: '>' :: cs => some (.operator .notEqual, cs)
  | '<' :: cs => some (.operator .less, cs)
  | '>' :: '=' :: cs => some (.operator .greaterEqual, cs)
  | '>' :: cs => some (.operator .greater, cs)
  | '+' :: cs => some (.operator .add, cs)
  | '-' :: cs => some (.operator .subtract, cs)
  | '*' :: cs => some (.operator .multiply, cs)
  | '/' :: cs => some (.operator .divide, cs)
  | '^' :: cs => some (.operator .power, cs)
  | '&' :: cs => some (.operator .concat, cs)
  | '=' :: cs => some (.operator .equal, cs)
  | ':' :: cs => some (.colon, cs)
  | ',' :: cs => some (.comma, cs)
  | '(' :: cs => some (.openParen, cs)
  | ')' :: cs => some (.closeParen, cs)
  | _ => none

/-- Reads the token that starts with the character `c`. -/
def takeToken (total : Nat) (c : Char) (cs : List Char) : Except ParseError (Token × List Char) :=
  match takeSymbol (c :: cs) with
  | some found => .ok found
  | none =>
    if c = '"' then takeText total (c :: cs)
    else if c = '\'' then takeSheet total (c :: cs)
    else if c.isDigit then .ok (takeNumber (c :: cs))
    else if c.isAlpha || c == '_' || c == '$' then takeWord total (c :: cs)
    else .error ⟨offset total (c :: cs), .badChar c⟩

/-- Cuts what is left of a text of `total` bytes; the second argument bounds the tokens. -/
def tokensOf (total : Nat) : Nat → List Char → Tokens
  | 0, _ => .done total
  | fuel + 1, cs =>
    match Text.trimLeft cs with
    | [] => .done total
    | c :: cs =>
      match takeToken total c cs with
      | .error e => .fault e
      | .ok (token, rest) =>
        .token token (offset total (c :: cs)) (offset total rest) (tokensOf total fuel rest)

end Scan

/-- Cuts a text into tokens. -/
def Tokens.scan (cs : List Char) : Tokens :=
  Scan.tokensOf (Text.byteSize cs) (cs.length + 1) cs

end SheetCompiler
