import SchemaLedger.Decimal.Nearest
import SchemaLedger.Settings.Layers
import SchemaLedger.Settings.Reading

/-!
Settings from environment variables.

A variable counts if its name starts with the prefix, in any case; two underscores in the rest
of the name separate the keys of an address. A value that looks like a flag or a number is one,
and any other value is a text.
-/

namespace SchemaLedger.Environment

/-- The names and values of variables, in the order in which they count. -/
abbrev Variables := List (String × String)

/-- What names of variables start with, in lower case. -/
def namePrefix : String := "schema_registry__"

/-- What separates keys in the name of a variable. -/
def separator : String := "__"

/-- An integer of 64 bits that fills a text. -/
def integer? (s : String) : Option Int :=
  let (negative, ds) := Decimal.sign s.toList
  let n := Text.valueOf ds
  if ds.isEmpty || !ds.all Char.isDigit then none
  else if negative then (if n ≤ Word.limit 63 then some (-n) else none)
  else if n < Word.limit 63 then some n
  else none

/-- The setting that a value stands for. -/
def setting (value : String) : Setting :=
  match value.map Char.toLower with
  | "true" => .flag true
  | "false" => .flag false
  | _ =>
    match integer? value, Decimal.ofText? value with
    | some n, _ => .integer n
    | none, some x => .real x
    | none, none => .text value

/-- The key that the name of a variable stands for. -/
def key? (name : String) : Option String :=
  let name := foldKey name
  if namePrefix.isPrefixOf name then
    some (".".intercalate ((String.ofList (name.toList.drop namePrefix.length)).splitOn separator))
  else none

/-- The settings of the variables. -/
def settings (environment : Variables) : Setting :=
  environment.foldl (fun here (name, value) =>
    match key? name with
    | some key => here.store key (setting value)
    | none => here) Setting.empty

/-- The value of a variable. -/
def value? (environment : Variables) (name : String) : Option String :=
  environment.lookup name

end SchemaLedger.Environment
