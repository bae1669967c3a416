import SchemaLedger.CommandLine.Invocation
import SchemaLedger.CommandLine.Shell
import SchemaLedger.Settings.Loading
import SchemaLedger.Settings.Saving

/-!
Running a command.

* `run` takes the environment and the arguments and ends with a `Report`: what is written to
  the two outputs, and the status. The status is 0 for success and for help, 1 for a failure,
  which is told in one line, 2 for arguments that are no command, and 101 for a state that the
  program rules out.
-/

namespace SchemaLedger.CommandLine

/-- How a command ends. -/
structure Report where
  status : Nat
  output : String := ""
  complaint : String := ""
  deriving DecidableEq, Repr

/-- Why a command ends early. -/
inductive Stop where
  /-- It fails. -/
  | failure (message : String)
  /-- It comes upon a state that the program rules out. -/
  | breach (message : String)
  deriving DecidableEq, Repr

namespace Stop

/-- What becomes of a failure to load settings. -/
def ofSettings : SettingsError → Stop
  | .outOfRange => .breach SettingsError.outOfRange.message
  | e => .failure e.message

/-- What becomes of a failure of the registry. -/
def ofRegistry : Failure → Stop
  | .emptyLedger => .breach Failure.emptyLedger.message
  | e => .failure e.message

/-- How a command ends that stops early. -/
def report : Stop → Report
  | .failure message => { status := 1, complaint := "Error: " ++ message ++ "\n" }
  | .breach message => { status := 101, complaint := message ++ "\n" }

end Stop

/-- A command at work. It ends with what it writes, or with the reason why it stops early. -/
abbrev Working (α : Type) : Type :=
  ExceptT Stop (Program Shell) α

namespace Working

/-- Continues with a result, or stops for what went wrong. -/
def known {α ε : Type} (stop : ε → Stop) (r : Except ε α) : Working α :=
  ExceptT.mk (.done (r.mapError stop))

/-- A program that calls the file system. -/
def files {α ε : Type} (stop : ε → Stop) (p : ExceptT ε (Program FileSystem) α) :
    Working α := do
  known stop (← ExceptT.lift (onFiles p.run))

end Working

open Working

/-- The wording of a store's failure, followed by that of what caused it. -/
def openingMessage (root : String) (e : StoreError) : String :=
  let cause := match e with
    | .file fault => ": " ++ fault.message
    | .json offence => ": " ++ offence.message?.getD "unreadable text"
    | _ => ""
  "opening storage at " ++ root ++ ": " ++ e.message ++ cause

/-- The registry in a folder and its collaborators. It has no compiler, so it never compiles. -/
def openRegistry (root : Option String) (settings : Settings) : Working (Registry × Clerk) := do
  let root := root.getD settings.storage.path
  let store ← files (fun e => .failure (openingMessage root e))
    (FileStore.openFolder (Path.ofText root))
  let settings := { settings.registry with uploadEnabled := false }
  let registry ← known Stop.ofRegistry (Registry.build settings false false)
  let ids ← known Stop.ofRegistry (Snowflake.ofNode settings.nodeId.toNat)
  return (registry, ⟨store, ids⟩)

/-- The text of a version. -/
def readVersion (path : String) : Working String :=
  files (fun fault => .failure ("reading IDL from " ++ path ++ ": " ++ fault.message))
    (Filing.readText (Path.ofText path))

/-- Runs an operation of the registry. -/
def serve {α : Type} (clerk : Clerk) (p : Operating α) : Working α := do
  known Stop.ofRegistry (← ExceptT.lift (clerk.serve p))

/-- The line that tells of a registration. -/
def registeredLine (name : SchemaName) (receipt : Receipt) : String :=
  "✅ Registered " ++ name.render ++ " (id " ++ Text.decimal receipt.schemaId.toNat ++
    ", version " ++ Text.decimal receipt.version ++ ")\n"

/-- The line that tells of a new version. -/
def updatedLine (name : SchemaName) (receipt : Receipt) : String :=
  "✅ Updated " ++ name.render ++ " to version " ++ Text.decimal receipt.version ++ "\n"

/-- The line that tells of a removal. -/
def deletedLine (view : SchemaView) : String :=
  "🗑  Deleted " ++ view.name.render ++ " (" ++ Text.decimal view.lastVersion ++ " versions)\n"

/-- A value in several lines. -/
def valueLines {α : Type} (codec : Json.Codec α) (a : α) : String :=
  codec.pretty a ++ "\n"

/-- What the command writes. -/
def perform (invocation : Invocation) (settings : Settings) : Working String := do
  let actor := invocation.actor
  match invocation.command with
  | .writeSettings path =>
    files (fun fault => .failure fault.message) (settings.save path)
    return "✅ Wrote configuration to " ++ path ++ "\n"
  | .register name textFile owner description family policy =>
    let (registry, clerk) ← openRegistry invocation.root settings
    let idl ← readVersion textFile
    return registeredLine name (← serve clerk (registry.register actor name
      { owner := owner, description := description, policy := policy, family := family,
        idl := idl }))
  | .update name textFile owner =>
    let (registry, clerk) ← openRegistry invocation.root settings
    let idl ← readVersion textFile
    return updatedLine name (← serve clerk (registry.update actor name ⟨owner, idl⟩))
  | .delete name =>
    let (registry, clerk) ← openRegistry invocation.root settings
    return deletedLine (← serve clerk (registry.delete actor name))
  | .get name =>
    let (registry, clerk) ← openRegistry invocation.root settings
    return valueLines Wire.schemaView (← serve clerk (registry.get actor name))
  | .readSubject name =>
    let (registry, clerk) ← openRegistry invocation.root settings
    return valueLines Wire.recordView (← serve clerk (registry.getBySubject actor name))
  | .readHistory name =>
    let (registry, clerk) ← openRegistry invocation.root settings
    return valueLines (.list Wire.recordView) (← serve clerk (registry.listBySubject actor name))

/-- Loads the settings and runs a command. -/
def execute (environment : Environment.Variables) (invocation : Invocation)
    (formats : SettingsFormats := {}) : Working String := do
  let settings ← files Stop.ofSettings (Settings.load environment invocation.settingsFile formats)
  perform invocation settings

/-- How to use the program. -/
def usage : String :=
  "Usage: schema-registry [--config FILE] [--root FOLDER] [--actor NAME] COMMAND\n" ++
  "Commands:\n" ++
  "  register TENANT SUBJECT NAME --idl FILE --owner OWNER [--description TEXT]\n" ++
  "           [--schema-type TYPE] [--compatibility POLICY]\n" ++
  "  update TENANT SUBJECT NAME --idl FILE --owner OWNER\n" ++
  "  delete TENANT SUBJECT NAME\n" ++
  "  get TENANT SUBJECT NAME\n" ++
  "  subject TENANT SUBJECT [--version NUMBER | --all]\n" ++
  "  init-config [FILE]\n"

/-- Runs the command that the arguments ask for. -/
def run (environment : Environment.Variables) (arguments : List String)
    (formats : SettingsFormats := {}) : Program Shell Report :=
  match Invocation.ofArguments arguments with
  | .error .help => .done { status := 0, output := usage }
  | .error .misuse => .done { status := 2, complaint := usage }
  | .ok invocation =>
    (execute environment invocation formats).run.bind fun result =>
      match result with
      | .ok output => .done { status := 0, output := output }
      | .error stop => .done stop.report

end SchemaLedger.CommandLine
