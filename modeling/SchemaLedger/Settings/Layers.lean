import SchemaLedger.Settings.Setting
import SchemaLedger.Text.Digits

/-!
Laying settings from several places over each other.

* `Setting.assign` enters one key. A table is merged into the table that is there, entry by
  entry; anything else replaces what is there. Keys are the same in any case.
* An `Address` leads through several tables and lists, as in `registry.node_id` or
  `registry[3]`. `Setting.overlay?` lays a table over another, where each key of the upper table
  is an address. It cannot be done where an index counts back beyond the start of a list.
-/

namespace SchemaLedger

/-- A key without its case. -/
def foldKey (key : String) : String :=
  key.map Char.toLower

namespace Setting

mutual
/-- The table in which a key has a value. -/
def assign (here : Setting) (key : String) : Setting → Setting
  | .table entries =>
    here.store (foldKey key) (assignAll ((here.lookup? (foldKey key)).getD empty) entries)
  | value => here.store (foldKey key) value

/-- The table in which each key has its value. What is no table stays as it is where there are
no keys. -/
def assignAll (here : Setting) : List (String × Setting) → Setting
  | [] => here
  | (key, value) :: rest => assignAll (here.assign key value) rest
end

end Setting

/-- One step of an address. -/
inductive Address.Step where
  | key (name : String)
  | index (i : Int)
  deriving DecidableEq, Repr

/-- The steps that lead to an entry, from the outermost table inwards. -/
abbrev Address := List Address.Step

namespace Address

/-- A character of a key in an address. -/
def isPart (c : Char) : Bool :=
  c.isAlphanum || c == ' ' || c == '_' || c == '-'

/-- A blank around an index. -/
def isBlank (c : Char) : Bool :=
  c == ' ' || c == '\t'

/-- An index of 64 bits and its closing bracket. -/
def index? (cs : List Char) : Option (Int × List Char) :=
  let (negative, cs) := match cs.dropWhile isBlank with
    | '-' :: cs => (true, cs)
    | cs => (false, cs)
  let (ds, cs) := Text.spanDigits cs
  let n := Text.valueOf ds
  match cs.dropWhile isBlank with
  | ']' :: cs =>
    if ds.isEmpty then none
    else if negative then if n ≤ Word.limit 63 then some (-n, cs) else none
    else if n < Word.limit 63 then some (n, cs)
    else none
  | _ => none

/-- At most `fuel` further steps. -/
def steps? : Nat → List Char → Option Address
  | _, [] => some []
  | 0, _ => none
  | fuel + 1, c :: cs =>
    if c = '.' then
      let name := cs.takeWhile isPart
      if name.isEmpty then none
      else (steps? fuel (cs.drop name.length)).map (.key (String.ofList name) :: ·)
    else if c = '[' then do
      let (i, cs) ← index? cs
      some (.index i :: (← steps? fuel cs))
    else none

/-- The address that a key denotes. A key that is no address stands for itself. -/
def ofText (key : String) : Address :=
  let cs := key.toList
  let name := cs.takeWhile isPart
  match steps? cs.length (cs.drop name.length) with
  | some steps => if name.isEmpty then [.key key] else .key (String.ofList name) :: steps
  | none => [.key key]

end Address

namespace Setting

/-- The setting in which the entry at an address has a value. -/
def place? (value : Setting) : Address → Setting → Option Setting
  | [], _ => some value
  | [.key key], here => some (here.assign key value)
  | .key key :: rest, here => do
    let inner ← place? value rest ((here.lookup? (foldKey key)).getD .nothing)
    some (here.store (foldKey key) inner)
  | .index i :: rest, here => here.changeItem? i (place? value rest)

/-- A table with the entries of another one over it. -/
def overlay? (here upper : Setting) : Option Setting :=
  upper.entries.foldlM (fun here (key, value) => place? value (Address.ofText key) here) here

end Setting

end SchemaLedger
