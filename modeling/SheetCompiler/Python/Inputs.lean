import SheetCompiler.AliasTable
import SheetCompiler.Text.Word

/-!
# Input parameters in Python texts

A constructor parameter stands for a cell. `substituteInputs` writes the parameter where a text
reads the cell: under its key, or as the attribute that the key suggests, as long as that
attribute means nothing else. A match ends at the end of a word and does not start inside a name.
-/

namespace SheetCompiler.Python

/-- A character that a name or an attribute goes on with. -/
def isAttributeChar (c : Char) : Bool := Text.isIdentifierChar c || c == '.'

/-- The token stands here and ends at the end of a word. -/
def tokenAt (token : List Char) (before : Option Char) (cs : List Char) : Bool :=
  token.isPrefixOf cs &&
    Text.isBoundary (token.getLast? <|> before) (cs.drop token.length).head?

/-- What is written in place of a match: the token itself where it continues a name. -/
def replacementAt (token replacement : List Char) (before : Option Char) : List Char :=
  if (before.map isAttributeChar).getD false then token else replacement

/-- Replaces the matches of a token, from left to right; `before` is the character in front. -/
def replaceToken (token replacement : List Char) (before : Option Char) (cs : List Char) :
    List Char :=
  if tokenAt token before cs then
    let written := replacementAt token replacement before
    match token, cs with
    | [], [] => written
    | [], c :: rest => written ++ c :: replaceToken token replacement (some c) rest
    | _ :: _, [] => written
    | x :: xs, c :: rest =>
      written ++ replaceToken token replacement (x :: xs).getLast? ((c :: rest).drop (x :: xs).length)
  else
    match cs with
    | [] => []
    | c :: rest => c :: replaceToken token replacement (some c) rest
termination_by cs.length
decreasing_by
  all_goals simp only [List.length_cons, List.length_drop]
  all_goals omega

/-- Writes one parameter where a text reads its cell. -/
def substituteInput (t : AliasTable) (key parameter : String) (cs : List Char) : List Char :=
  let replacement := "self.".toList ++ parameter.toList
  let suggested := identifierOfKey key
  let cs :=
    if t.denotes suggested key then
      replaceToken ("self.".toList ++ suggested.toList) replacement none cs
    else cs
  replaceToken key.toList replacement none cs

/-- Writes parameters, given with their keys, where a text reads their cells. -/
def substituteInputs (t : AliasTable) (inputs : List (String × String)) (s : String) : String :=
  String.ofList (inputs.foldl (fun cs (key, parameter) => substituteInput t key parameter cs) s.toList)

end SheetCompiler.Python
