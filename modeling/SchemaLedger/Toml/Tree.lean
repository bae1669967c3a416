import SchemaLedger.Toml.Moment

/-!
The tree that the lines of a settings file build up.

A table may be opened by a header, come to be on the way to another table, or be made by a
dotted key, and each is opened in one of these ways only. The tree remembers which it was.

* `openTable?` and `openItem?` enter a header; `define?` enters a key with its value.
* An array or a table that was written as a value is closed: nothing can be added to it.
* `tableSetting?` is the setting that a finished table stands for. Entries keep the order in
  which they came, because a table whose first key is `momentKey` stands for a moment.
-/

namespace SchemaLedger.Toml

/-- How a table came to be. -/
inductive Origin where
  | header
  | onTheWay
  | dotted
  deriving DecidableEq, Repr

/-- A place in a settings file that is being read. -/
inductive Tree where
  /-- A value, to which nothing can be added. -/
  | closed (value : Setting)
  | table (origin : Origin) (entries : List (String × Tree))
  /-- The tables of a list, in order; the last one is open. -/
  | tables (items : List (List (String × Tree)))
  deriving Inhabited

/-- The entries of a table. -/
abbrev Entries := List (String × Tree)

namespace Entries

/-- The entries in which a key has a new tree, at its old place if it had one. -/
def store : Entries → String → Tree → Entries
  | [], key, tree => [(key, tree)]
  | (k, t) :: rest, key, tree =>
    if k = key then (key, tree) :: rest else (k, t) :: store rest key tree

/-- The entries in which a key comes last with a new tree. -/
def storeLast (entries : Entries) (key : String) (tree : Tree) : Entries :=
  (entries.filter fun e => e.1 != key) ++ [(key, tree)]

/-- Changes the table at the end of a path. Tables that are missing on the way are made, and a
list of tables leads to its last one. The keys of a dotted key must not lead through a table
with a header. -/
def descend? (dotted : Bool) (change : Origin → Entries → Option Entries) :
    List String → Origin → Entries → Option Entries
  | [], origin, entries => change origin entries
  | key :: path, _, entries =>
    match entries.lookup key with
    | none => do
      let origin := if dotted then Origin.dotted else .onTheWay
      let inner ← descend? dotted change path origin []
      some (store entries key (.table origin inner))
    | some (.table origin inner) =>
      if dotted ∧ origin = .header then none
      else do
        let inner ← descend? dotted change path origin inner
        some (store entries key (.table origin inner))
    | some (.tables items) => do
      let last ← descend? dotted change path .header (items.getLast?.getD [])
      some (store entries key (.tables (items.dropLast ++ [last])))
    | some (.closed _) => none

/-- Opens the table with a header. It must not have been opened before, and if there was a table
on the way it takes the place of a new one. -/
def openTable? (entries : Entries) (path : List String) (key : String) : Option Entries :=
  descend? false (fun _ entries =>
    match entries.lookup key with
    | none => some (store entries key (.table .header []))
    | some (.table .onTheWay inner) => some (storeLast entries key (.table .header inner))
    | some _ => none) path .header entries

/-- Opens one more table in a list of tables. -/
def openItem? (entries : Entries) (path : List String) (key : String) : Option Entries :=
  descend? false (fun _ entries =>
    match entries.lookup key with
    | none => some (store entries key (.tables [[]]))
    | some (.tables items) => some (store entries key (.tables (items ++ [[]])))
    | some _ => none) path .header entries

/-- Gives a key a value below the table at the end of a path. The key may be dotted; the table
that it leads to must have been made by dotted keys as well. -/
def define? (entries : Entries) (header path : List String) (key : String) (value : Setting) :
    Option Entries :=
  descend? false (descend? true (fun origin entries =>
    if origin = .dotted ↔ path = [] then none
    else if (entries.lookup key).isSome then none
    else some (store entries key (.closed value))) path) header .header entries

end Entries

/-- The key under which a table may hold a moment in place of entries. -/
def momentKey : String := "$__toml_private_datetime"

/-- The setting that a table with the given entries stands for. -/
def tableSetting? (entries : List (String × Setting)) : Option Setting :=
  match entries with
  | (key, value) :: _ =>
    if key = momentKey then
      match value with
      | .text s => (statedMoment? s.toList).map fun cs => .moment (String.ofList cs)
      | _ => none
    else some (.table entries)
  | [] => some .empty

mutual
/-- The setting that a tree stands for. -/
def Tree.setting? : Tree → Option Setting
  | .closed value => some value
  | .table _ entries => do tableSetting? (← settings? entries)
  | .tables items => do some (.list (← tables? items))

/-- The settings of entries. -/
def settings? : List (String × Tree) → Option (List (String × Setting))
  | [] => some []
  | (key, tree) :: rest => do some ((key, ← tree.setting?) :: (← settings? rest))

/-- The settings of a list of tables. -/
def tables? : List (List (String × Tree)) → Option (List Setting)
  | [] => some []
  | entries :: rest => do
    let first ← tableSetting? (← settings? entries)
    some (first :: (← tables? rest))
end

end SchemaLedger.Toml
