import SheetCompiler.Assoc
import SheetCompiler.Grid.Reference

/-!
# Alias tables

An alias table gives every reference one identifier, by its key. Identifiers come from three
layers: the configuration, then the defined names, then identifiers made up for references met on
the way. A binding gives way to a higher layer only. A made-up identifier is new: it differs from
all that were in use, and its key is queued so that the cells behind it can be declared later.

Sheets can be registered; from then on keys spell them as registered, whatever the case of the
letters in a reference.
-/

namespace SheetCompiler

/-- Where a binding comes from. -/
inductive Layer where
  | synthesized
  | definedName
  | config
deriving DecidableEq, Repr

/-- Higher layers replace lower ones. -/
def Layer.rank : Layer → Nat
  | synthesized => 0
  | definedName => 1
  | config => 2

/-- The identifier of a key. -/
structure Binding where
  identifier : String
  layer : Layer
deriving DecidableEq, Repr

structure AliasTable where
  bindings : List (String × Binding) := []
  /-- Names that are written as others. -/
  renames : List (String × String) := []
  /-- Identifiers that are no longer free. -/
  used : List String := []
  sheets : List String := []
  /-- Keys with made-up identifiers, in the order they were met. -/
  pending : List String := []
deriving DecidableEq, Repr

namespace AliasTable

/-- The registered spelling of a sheet. -/
def registered? (t : AliasTable) (sheet : String) : Option String :=
  t.sheets.find? fun known => Text.sameLetters known sheet

/-- Registers the spelling of a sheet; the first one stays. -/
def addSheet (t : AliasTable) (sheet : String) : AliasTable :=
  if (t.registered? sheet).isSome then t else { t with sheets := t.sheets ++ [sheet] }

/-- The sheet of a reference as keys spell it. -/
def sheetFor (t : AliasTable) (r : Reference) (current : Option String) : Option String :=
  (r.sheetOr current).map fun sheet => (t.registered? sheet).getD sheet

/-- The key of a reference seen from the current sheet. -/
def key (t : AliasTable) (r : Reference) (current : Option String) : String :=
  String.ofList (Reference.keyChars (t.sheetFor r current) r.range)

/-- The binding of a key. -/
def binding? (t : AliasTable) (key : String) : Option Binding := Assoc.find? key t.bindings

/-- The identifier of a key. -/
def lookup (t : AliasTable) (key : String) : Option String := (t.binding? key).map (·.identifier)

/-- The layer that bound a key. -/
def layerOf (t : AliasTable) (key : String) : Option Layer := (t.binding? key).map (·.layer)

def isUsed (t : AliasTable) (identifier : String) : Bool := t.used.contains identifier

/-- Takes an identifier without binding a key to it. -/
def reserve (t : AliasTable) (identifier : String) : AliasTable :=
  if t.isUsed identifier then t else { t with used := t.used ++ [identifier] }

/-- The key is free for a layer. -/
def accepts (t : AliasTable) (key : String) (layer : Layer) : Bool :=
  match t.binding? key with
  | some b => b.layer.rank < layer.rank
  | none => true

/-- Binds a key, whatever it was bound to. -/
def bind (t : AliasTable) (key identifier : String) (layer : Layer) : AliasTable :=
  let t := t.reserve identifier
  { t with bindings := Assoc.insert key ⟨identifier, layer⟩ t.bindings }

/-- Binds a key unless it is bound on this layer or a higher one; tells whether it did. -/
def insert (t : AliasTable) (key identifier : String) (layer : Layer) : Bool × AliasTable :=
  if t.accepts key layer then (true, t.bind key identifier layer) else (false, t)

/-- Binds a reference by configuration. -/
def insertConfig (t : AliasTable) (r : Reference) (identifier : String) : AliasTable :=
  (t.insert (t.key r none) identifier .config).2

/-- Binds a reference by a defined name; tells whether the name became its identifier. -/
def insertName (t : AliasTable) (r : Reference) (identifier : String) : Bool × AliasTable :=
  t.insert (t.key r none) identifier .definedName

/-- Has a name written as an identifier. -/
def insertRename (t : AliasTable) (name identifier : String) : AliasTable :=
  let t := t.reserve identifier
  { t with renames := Assoc.insert name identifier t.renames }

/-- A name as it is written. -/
def rename (t : AliasTable) (name : String) : String := (Assoc.find? name t.renames).getD name

/-- `base_n`. -/
def suffixed (base : String) (n : Nat) : String :=
  base ++ "_" ++ String.ofList (Nat.toDigits 10 n)

/-- The first of `base_n`, `base_(n+1)`, … that is not used. -/
def freshSuffix (t : AliasTable) (base : String) : Nat → Nat → String
  | 0, n => suffixed base n
  | fuel + 1, n =>
    if t.isUsed (suffixed base n) then t.freshSuffix base fuel (n + 1) else suffixed base n

/-- The base itself if it is free, otherwise the base with the least free number from 2 on. -/
def fresh (t : AliasTable) (base : String) : String :=
  if t.isUsed base then t.freshSuffix base t.used.length 2 else base

/-- Makes up an identifier for a key and queues the key. -/
def synthesize (t : AliasTable) (key : String) : String × AliasTable :=
  let identifier := t.fresh (identifierOfKey key)
  let t := t.bind key identifier .synthesized
  (identifier, { t with pending := t.pending ++ [key] })

/-- The identifier of a reference; one that has none gets a made-up one. -/
def resolve (t : AliasTable) (r : Reference) (current : Option String) : String × AliasTable :=
  let key := t.key r current
  match t.lookup key with
  | some identifier => (identifier, t)
  | none => t.synthesize key

/-- The identifier can only mean the key: it is the key's own, or nobody's. -/
def denotes (t : AliasTable) (identifier key : String) : Bool :=
  t.lookup key == some identifier || !t.isUsed identifier

/-- Takes the next key from the queue. -/
def pop (t : AliasTable) : Option String × AliasTable :=
  match t.pending with
  | [] => (none, t)
  | key :: rest => (some key, { t with pending := rest })

/-- Number of bound keys. -/
def size (t : AliasTable) : Nat := t.bindings.length

end AliasTable

end SheetCompiler
