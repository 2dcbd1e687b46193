import SheetCompiler.Json.Basic

/-!
# Records and maps in JSON

A record has a fixed list of fields. It is written as an object, where a field may stand once and
other members are skipped over, or as an array of the fields in order, from which the last ones
may be missing. A map is an object; where a key is repeated the last member counts, and keys are
kept in increasing order.
-/

namespace SheetCompiler.Json

/-- The members with their keys read. -/
def readKeys (members : List (List Char × Json)) : Option (List (String × Json)) :=
  members.mapM fun (key, j) => (unescape key).map fun cs => (String.ofList cs, j)

/-- The only member with the given key, `none` if there is none. A repeated key is refused. -/
def onlyMember (key : String) (members : List (String × Json)) : Option (Option Json) :=
  match members.filter (·.1 = key) with
  | [] => some none
  | [(_, j)] => some (some j)
  | _ => none

/-- The fields of a record, each `none` if it is missing. -/
def record? (fields : List String) : Json → Option (List (Option Json))
  | object members => do
    let members ← readKeys members
    fields.mapM fun field => onlyMember field members
  | array items =>
    if items.length ≤ fields.length then
      some (items.map some ++ List.replicate (fields.length - items.length) none)
    else none
  | _ => none

/-- A field that must be there. -/
def required {α : Type} (read : Json → Option α) (field : Option Json) : Option α :=
  field.bind read

/-- A field with a value for when it is missing. -/
def withDefault {α : Type} (read : Json → Option α) (default : α) : Option Json → Option α
  | some j => read j
  | none => some default

/-- Binds a key, keeping keys in increasing order. -/
def insertKey {α : Type} (key : String) (value : α) : List (String × α) → List (String × α)
  | [] => [(key, value)]
  | (k, v) :: rest =>
    if key < k then (key, value) :: (k, v) :: rest
    else if key = k then (key, value) :: rest
    else (k, v) :: insertKey key value rest

/-- A map from keys to values of one kind. -/
def map? {α : Type} (read : Json → Option α) : Json → Option (List (String × α))
  | object members => do
    let members ← readKeys members
    let values ← members.mapM fun (key, j) => (read j).map fun v => (key, v)
    return values.foldl (fun m (key, v) => insertKey key v m) []
  | _ => none

end SheetCompiler.Json
