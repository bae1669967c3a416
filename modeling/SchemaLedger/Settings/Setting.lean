import SchemaLedger.Word

/-!
Trees of settings, as a settings file holds them.

* A `Setting` is a value, a list or a table. Nothing is said here about the keys that a table
  should have.
* `Setting.lookup?` and `Setting.store` read and change one entry of a table, and
  `Setting.changeItem?` changes one item of a list.
-/

namespace SchemaLedger

/-- A value in a settings file. -/
inductive Setting where
  | flag (b : Bool)
  | integer (n : Int)
  | real (x : Float)
  | text (s : String)
  /-- A date, a time of day or both, in the usual form. -/
  | moment (s : String)
  /-- An item of a list that nobody has given a value. -/
  | nothing
  | list (items : List Setting)
  | table (entries : List (String × Setting))
  deriving Inhabited, Repr

namespace Setting

/-- The table without entries. -/
def empty : Setting := .table []

/-- The entries of a table; other settings have none. -/
def entries : Setting → List (String × Setting)
  | .table entries => entries
  | _ => []

/-- The items of a list; other settings have none. -/
def items : Setting → List Setting
  | .list items => items
  | _ => []

/-- The entry of a table with the given key. -/
def lookup? (s : Setting) (key : String) : Option Setting :=
  s.entries.lookup key

/-- Entries in which a key has a new value, at its old place if it had one. -/
def storeEntry (key : String) (value : Setting) : List (String × Setting) → List (String × Setting)
  | [] => [(key, value)]
  | (k, v) :: rest =>
    if k = key then (key, value) :: rest else (k, v) :: storeEntry key value rest

/-- The table in which a key has a new value. Anything but a table is given up for one. -/
def store (s : Setting) (key : String) (value : Setting) : Setting :=
  .table (storeEntry key value s.entries)

/-- The most items that a list may have. -/
def maxItems : Nat := Word.limit 25

/-- The place of the item that an index denotes in a list of the given size. An index below
zero counts from the end, where the list must reach back so far. -/
def position? (i : Int) (size : Nat) : Option Nat :=
  if 0 ≤ i then if i < maxItems then some i.toNat else none
  else if i.natAbs ≤ size then some (size - i.natAbs) else none

/-- Items in which one place has a new item; the list grows as far as it has to. -/
def setItem (items : List Setting) (place : Nat) (item : Setting) : List Setting :=
  if place < items.length then items.set place item
  else items ++ List.replicate (place - items.length) .nothing ++ [item]

/-- The list in which the item at an index is changed. Anything but a list is given up for
one. -/
def changeItem? (s : Setting) (i : Int) (change : Setting → Option Setting) : Option Setting := do
  let place ← position? i s.items.length
  let item ← change (s.items[place]?.getD .nothing)
  some (.list (setItem s.items place item))

end Setting

end SchemaLedger
