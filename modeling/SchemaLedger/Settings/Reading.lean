import SchemaLedger.Decimal.Notation
import SchemaLedger.Settings.Basic
import SchemaLedger.Settings.Setting
import SchemaLedger.Text.Digits

/-!
What the entries of a settings file mean.

Files and environments are written by hand, so a value may come in another guise than its own:
a flag as a number or a word, a number as a word or with a fraction, a text as anything that
has one usual text. `Setting.settings?` gives all settings, where missing entries have their
defaults and unknown ones do not count.
-/

namespace SchemaLedger

/-- A word for yes or no, in any case. -/
def wordFlag? (s : String) : Option Bool :=
  match s.map Char.toLower with
  | "true" | "on" | "yes" => some true
  | "false" | "off" | "no" => some false
  | _ => none

/-- A natural number that may have a plus sign. -/
def wordNumber? (s : String) : Option Nat :=
  let ds := match s.toList with
    | '+' :: ds => ds
    | ds => ds
  if ds.isEmpty || !ds.all Char.isDigit then none else some (Text.valueOf ds)

/-- The nearest natural number, away from zero in the middle. What is below zero, or no number
at all, counts as zero. -/
def roundToNat (x : Float) : Nat :=
  x.round.toUInt64.toNat

namespace Setting

/-- A flag; any number but zero sets it. -/
def flag? : Setting → Option Bool
  | .flag b => some b
  | .integer n => some (n != 0)
  | .real x => some (x != 0)
  | .text s => if s == "1" then some true else if s == "0" then some false else wordFlag? s
  | _ => none

/-- A natural number below a limit of at most 64 bits. -/
def number? (limit : Nat) (s : Setting) : Option Nat :=
  let n? := match s with
    | .flag b => some b.toNat
    | .integer n => if 0 ≤ n then some n.toNat else none
    | .real x => some (roundToNat x)
    | .text s => ((wordFlag? s).map Bool.toNat).or (wordNumber? s)
    | _ => none
  n?.filter fun n => n < limit

/-- The text of a number as a setting. -/
def integerText (n : Int) : String :=
  String.ofList (if n < 0 then '-' :: Text.digits n.natAbs else Text.digits n.natAbs)

/-- A text. -/
def text? : Setting → Option String
  | .flag b => some (if b then "true" else "false")
  | .integer n => some (integerText n)
  | .real x => some (Decimal.setting.render x)
  | .text s | .moment s => some s
  | _ => none

/-- One of several values by its label, in any case; the label may be the only key of a
table. -/
def choice? {α : Type} (label : α → String) (all : List α) (s : Setting) : Option α :=
  let named (name : String) := all.find? fun a => (label a).map Char.toLower == name.map Char.toLower
  match s with
  | .text name => named name
  | .table [(name, _)] => named name
  | _ => none

/-- The fields of a record: a table has them by name, and a list by position. -/
def fields? : Setting → Option (String → Nat → Option Setting)
  | .table entries => some fun key _ => entries.lookup key
  | .list items => some fun _ i => items[i]?
  | _ => none

/-- The value of a field that may be missing. -/
def read? {α : Type} (read : Setting → Option α) (fallback : α) : Option Setting → Option α
  | none => some fallback
  | some s => read s

/-- What the registry does. -/
def registrySettings? (s : Setting) : Option RegistrySettings := do
  let field ← s.fields?
  let fallback : RegistrySettings := {}
  let uploadEnabled ← read? flag? fallback.uploadEnabled (field "upload_enabled" 0)
  let cacheEnabled ← read? flag? fallback.cacheEnabled (field "cache_enabled" 1)
  let compileMode ← read? (choice? CompileMode.label CompileMode.all) fallback.compileMode
    (field "dependency_mode" 2)
  let nodeId ← read? (fun s => (number? (Word.limit 16) s).map UInt16.ofNat) fallback.nodeId
    (field "node_id" 3)
  some ⟨uploadEnabled, cacheEnabled, compileMode, nodeId⟩

/-- Where the registry keeps its files. -/
def storageSettings? (s : Setting) : Option StorageSettings := do
  let field ← s.fields?
  some ⟨← read? text? ({} : StorageSettings).path (field "path" 0)⟩

/-- What the registry reports. -/
def loggingSettings? (s : Setting) : Option LoggingSettings := do
  let field ← s.fields?
  some ⟨← read? text? ({} : LoggingSettings).filter (field "filter" 0)⟩

/-- All settings. -/
def settings? (s : Setting) : Option Settings := do
  let field ← s.fields?
  let registry ← read? registrySettings? {} (field "registry" 0)
  let storage ← read? storageSettings? {} (field "storage" 1)
  let logging ← read? loggingSettings? {} (field "logging" 2)
  some ⟨registry, storage, logging⟩

end Setting

end SchemaLedger
