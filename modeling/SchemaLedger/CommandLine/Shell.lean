import SchemaLedger.Registry
import SchemaLedger.Snowflake
import SchemaLedger.Store.File

/-!
What a command asks of the machine it runs on: calls to the file system, and the time.

* `Clerk` serves the registry with nothing but these two: schemas are kept in files, ids are
  drawn from the clock, everybody may do everything, and any text may follow any other.
-/

namespace SchemaLedger.CommandLine

/-- A question to the machine. -/
inductive ShellCall where
  | file (call : FileCall)
  | readClock

/-- What the machine answers. -/
def ShellCall.Answer : ShellCall → Type
  | .file call => call.Answer
  | .readClock => Instant

/-- The machine. -/
abbrev Shell : Interface := ⟨ShellCall, ShellCall.Answer⟩

/-- The time. -/
def readClock : Program Shell Instant :=
  Program.query (I := Shell) .readClock

/-- A program that only calls the file system. -/
def onFiles {α : Type} (p : Program FileSystem α) : Program Shell α :=
  p.run fun call => Program.query (I := Shell) (.file call)

/-- The collaborators of the registry. -/
structure Clerk where
  store : FileStore
  ids : Snowflake

namespace Clerk

/-- Answers the registry. -/
def answer : (q : Request) → Clerk → Program Shell (q.Answer × Clerk)
  | .permit _ _ _, clerk => .done (.ok (), clerk)
  | .store call, clerk => do
    let (answer, store) ← onFiles (clerk.store.answer call)
    return (answer, { clerk with store := store })
  | .drawId, clerk => do
    let (id, ids) := clerk.ids.draw (← readClock).unixMillis
    return (id, { clerk with ids := ids })
  | .readClock, clerk => do return (← readClock, clerk)
  | .judge _ _ _, clerk => .done (.ok (), clerk)
  | .compile _, clerk => .done (.error (.failed "there is no compiler"), clerk)

/-- Runs an operation of the registry. -/
def serve {α : Type} (clerk : Clerk) (p : Operating α) : Program Shell (Except Failure α) :=
  (p.run.translate (I := Collaborators) (J := Shell) answer clerk).bind fun r => .done r.1

end Clerk

end SchemaLedger.CommandLine
