import SchemaLedger.CommandLine.Run
import Std.Time.DateTime.Timestamp

/-!
The command line program: answers the questions of a command with the machine's own files and
clock. All decisions are made in `CommandLine.run`.
-/

namespace SchemaLedger.Machine

open CommandLine

/-- The number under which the system reports a failing call. -/
def errorNumber : IO.Error → Nat
  | .alreadyExists _ code _ | .invalidArgument _ code _ | .permissionDenied _ code _
  | .resourceExhausted _ code _ | .inappropriateType _ code _ | .noSuchThing _ code _
  | .interrupted _ code _ | .noFileOrDirectory _ code _ => magnitude code
  | .otherError code _ | .resourceBusy code _ | .resourceVanished code _
  | .unsupportedOperation code _ | .hardwareFault code _ | .unsatisfiedConstraints code _
  | .illegalOperation code _ | .protocolError code _ | .timeExpired code _ => magnitude code
  | .unexpectedEof | .userError _ => 0
where
  /-- Some calls give the number with a minus sign. -/
  magnitude (code : UInt32) : Nat :=
    if code.toNat < Word.limit 31 then code.toNat else Word.limit 32 - code.toNat

/-- The kind of a failing call. -/
def faultOf (e : IO.Error) : FileFault :=
  match errorNumber e with
  | 2 => .notFound
  | 13 => .permissionDenied
  | 17 => .alreadyExists
  | 20 => .notADirectory
  | 21 => .isADirectory
  | 36 => .invalidName
  | 39 => .directoryNotEmpty
  | _ => .other

/-- The outcome of a call. -/
def attempt {α : Type} (action : IO α) : IO (Except FileFault α) := do
  match ← action.toBaseIO with
  | .ok a => return .ok a
  | .error e => return .error (faultOf e)

/-- What stands at a path. -/
def kindOf (path : String) : IO (Option IO.FS.FileType) := do
  match ← (System.mkFilePath [path]).metadata.toBaseIO with
  | .ok data => return some data.type
  | .error _ => return none

/-- The entries of a folder. -/
def entriesOf (path : String) : IO (List (String × EntryKind)) := do
  let entries ← (System.mkFilePath [path]).readDir
  let kinds ← entries.toList.mapM fun entry => do
    match ← kindOf (path ++ "/" ++ entry.fileName) with
    | some .file => return [(entry.fileName, EntryKind.file)]
    | some .dir => return [(entry.fileName, EntryKind.folder)]
    | _ => return []
  return kinds.flatten

/-- Answers a call to the file system. -/
def answerFile : (call : FileCall) → IO call.Answer
  | .isPresent path => do return (← kindOf path.render).isSome
  | .isFile path => do return (← kindOf path.render) == some .file
  | .isFolder path => do return (← kindOf path.render) == some .dir
  | .list path => attempt (entriesOf path.render)
  | .read path => attempt (IO.FS.readBinFile path.render)
  | .makeFolder path => attempt (IO.FS.createDir path.render)
  | .write path content => attempt (IO.FS.writeBinFile path.render content)
  | .rename source target => attempt (IO.FS.rename source.render target.render)
  | .removeFile path => attempt (IO.FS.removeFile path.render)
  | .removeFolder path => attempt (IO.FS.removeDir path.render)

/-- The time; the first moment of 1970 if the clock is out of range. -/
def now : IO Instant := do
  let nanoseconds := (← Std.Time.Timestamp.now).toNanosecondsSinceUnixEpoch.val
  match Instant.ofUnix? (nanoseconds / 1000000000) (nanoseconds % 1000000000).toNat with
  | some t => return t
  | none =>
    return { date := ⟨1970, 1, 1, by decide⟩, hour := 0, minute := 0, second := 0, nano := 0 }

/-- Answers a question of a command. -/
def answer : (call : ShellCall) → IO call.Answer
  | .file call => answerFile call
  | .readClock => now

/-- The variables of the environment in their order. -/
def environment : IO Environment.Variables := do
  let content ← IO.FS.readBinFile "/proc/self/environ"
  let text := (String.fromUTF8? content).getD ""
  return (text.splitOn "\x00").filterMap fun entry =>
    match entry.splitOn "=" with
    | [] | [_] => none
    | name :: value => some (name, "=".intercalate value)

end SchemaLedger.Machine

/-- Runs the command that the arguments ask for. -/
def main (arguments : List String) : IO UInt32 := do
  let program := SchemaLedger.CommandLine.run (← SchemaLedger.Machine.environment) arguments
  let report ← program.run SchemaLedger.Machine.answer
  IO.print report.output
  IO.eprint report.complaint
  return UInt32.ofNat report.status
