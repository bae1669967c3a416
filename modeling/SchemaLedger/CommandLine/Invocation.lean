import SchemaLedger.CommandLine.Arguments
import SchemaLedger.Family
import SchemaLedger.Name
import SchemaLedger.Settings.Reading

/-!
The commands of the registry's command line.

`Invocation.ofArguments` tells what a list of arguments asks for. Options that concern every
command come first, then the name of the command with its own operands and options.
-/

namespace SchemaLedger.CommandLine

/-- A command with all that it needs. -/
inductive Command where
  | register (name : SchemaName) (textFile owner : String) (description : Option String)
      (family : Family) (policy : Policy)
  | update (name : SchemaName) (textFile owner : String)
  | delete (name : SchemaName)
  | get (name : SchemaName)
  /-- The latest record of a subject, or the one that the name selects. -/
  | readSubject (name : SchemaName)
  /-- All records of a subject. -/
  | readHistory (name : SchemaName)
  /-- Writes the settings that count to a file. -/
  | writeSettings (path : String)
  deriving DecidableEq, Repr

/-- A command and the options that concern every command. -/
structure Invocation where
  settingsFile : Option String := none
  root : Option String := none
  actor : String := "cli"
  command : Command
  deriving DecidableEq, Repr

/-- The options that concern every command. -/
def commonForms : List OptionForm :=
  [{ long := "config", letter := some 'c' },
   { long := "root", letter := some 'r', accepts := fun s => !s.isEmpty },
   { long := "actor" }]

/-- The file that holds the text of a version. -/
def textForm : OptionForm :=
  { long := "idl", accepts := fun s => !s.isEmpty }

/-- A number of 64 bits. -/
def word? (s : String) : Option UInt64 :=
  ((wordNumber? s).filter fun n => n < Word.limit 64).map UInt64.ofNat

/-- Reads the arguments of a command that has exactly the given number of operands. -/
def exactly (forms : List OptionForm) (operands : Nat) (arguments : List String) :
    Except Refusal Findings := do
  let found ← scan forms operands none {} arguments
  if found.operands.length = operands then .ok found else .error .misuse

/-- The name that three operands make. -/
def Findings.name (f : Findings) : Except Refusal SchemaName :=
  match f.operands with
  | [tenant, subject, schema] => .ok ⟨tenant, subject, schema, none⟩
  | _ => .error .misuse

/-- The value of an option that must be given. -/
def Findings.require (f : Findings) (long : String) : Except Refusal String :=
  match f.value? long with
  | some value => .ok value
  | none => .error .misuse

namespace Command

/-- The command to register a schema. -/
def ofRegister (arguments : List String) : Except Refusal Command := do
  let found ← exactly
    [textForm, { long := "owner" }, { long := "description" },
     { long := "schema-type", accepts := fun s => (Family.ofText? s).isSome },
     { long := "compatibility", accepts := fun s => (Policy.ofText? s).isSome }] 3 arguments
  let family := ((found.value? "schema-type").bind Family.ofText?).getD .avro
  let policy := ((found.value? "compatibility").bind Policy.ofText?).getD .backward
  .ok (.register (← found.name) (← found.require "idl") (← found.require "owner")
    (found.value? "description") family policy)

/-- The command to add a version. -/
def ofUpdate (arguments : List String) : Except Refusal Command := do
  let found ← exactly [textForm, { long := "owner" }] 3 arguments
  .ok (.update (← found.name) (← found.require "idl") (← found.require "owner"))

/-- The command to show what is bound to a subject. -/
def ofSubject (arguments : List String) : Except Refusal Command := do
  let found ← exactly
    [{ long := "version", letter := some 'v', accepts := fun s => (word? s).isSome },
     { long := "all", isFlag := true }] 2 arguments
  match found.operands, found.value? "version", found.has "all" with
  | [tenant, subject], none, true => .ok (.readHistory ⟨tenant, subject, "", none⟩)
  | [tenant, subject], version, false =>
    .ok (.readSubject ⟨tenant, subject, "", version.bind word?⟩)
  | _, _, _ => .error .misuse

/-- The command to write the settings. -/
def ofWriteSettings (arguments : List String) : Except Refusal Command := do
  let found ← scan [] 1 none {} arguments
  .ok (.writeSettings (found.operands.head?.getD "schema-registry.toml"))

/-- The names of all commands. -/
def names : List String :=
  ["register", "update", "delete", "get", "subject", "init-config", "help"]

/-- The command with the given name. -/
def ofName (name : String) (arguments : List String) : Except Refusal Command :=
  match name with
  | "register" => ofRegister arguments
  | "update" => ofUpdate arguments
  | "delete" => do .ok (.delete (← (← exactly [] 3 arguments).name))
  | "get" => do .ok (.get (← (← exactly [] 3 arguments).name))
  | "subject" => ofSubject arguments
  | "init-config" => ofWriteSettings arguments
  | "help" =>
    match arguments with
    | [] => .error .help
    | [name] => .error (if names.contains name then .help else .misuse)
    | _ => .error .misuse
  | _ => .error .misuse

end Command

/-- What the arguments ask for. -/
def Invocation.ofArguments (arguments : List String) : Except Refusal Invocation := do
  let (found, rest) ← scanLeading commonForms none {} arguments
  match rest with
  | [] => .error .misuse
  | name :: rest =>
    .ok { settingsFile := found.value? "config", root := found.value? "root",
          actor := (found.value? "actor").getD "cli", command := ← Command.ofName name rest }

end SchemaLedger.CommandLine
