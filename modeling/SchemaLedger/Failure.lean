import SchemaLedger.Access
import SchemaLedger.Aggregate
import SchemaLedger.Json.Offence

/-!
Why an operation of the registry fails.

* `StoreError` is the failure of a store, `Violation` that of the compatibility gate,
  `CompileError` that of a compiler. `Failure` is what a caller is told; `Failure.ofStore`
  turns the first into the last.
* `Failure.isRetryable` holds only of a conflict: another writer came first, and the whole
  operation may succeed when it is run again.
* `emptyLedger` is the one failure that no wording exists for: a schema without any version
  was stored from outside, and an operation needed its last version.
-/

namespace SchemaLedger

/-- The kinds of failing calls to a file system. -/
inductive FileFault where
  | notFound
  | permissionDenied
  | alreadyExists
  | notADirectory
  | isADirectory
  | directoryNotEmpty
  | invalidName
  | invalidData
  | other
  deriving DecidableEq, Repr

/-- The system's wording of a failing call. -/
def FileFault.message : FileFault → String
  | .notFound => "No such file or directory (os error 2)"
  | .permissionDenied => "Permission denied (os error 13)"
  | .alreadyExists => "File exists (os error 17)"
  | .notADirectory => "Not a directory (os error 20)"
  | .isADirectory => "Is a directory (os error 21)"
  | .directoryNotEmpty => "Directory not empty (os error 39)"
  | .invalidName => "File name too long (os error 36)"
  | .invalidData => "stream did not contain valid UTF-8"
  | .other => "Input/output error (os error 5)"

/-- What is wrong with a stored schema that can be read. -/
inductive Flaw where
  /-- The versions are not 1, 2, … in order. -/
  | gap
  /-- A text and its checksum disagree. -/
  | tampered
  /-- A flaw that another store found. -/
  | stated (reason : String)
  deriving DecidableEq, Repr

/-- The wording of a flaw. -/
def Flaw.message : Flaw → String
  | .gap => "version ledger is not contiguous"
  | .tampered => "record checksum mismatch"
  | .stated reason => reason

/-- Why a call to a store fails. -/
inductive StoreError where
  | notFound (key : String)
  | alreadyStored (key : String)
  | subjectBound (subject schema : String)
  | conflict (key : String) (expected found : Revision)
  | corrupted (key : String) (flaw : Flaw)
  | invalidKey (part : String)
  | backend (message : String)
  | file (fault : FileFault)
  | json (offence : Json.Offence)
  | emptyLedger
  deriving DecidableEq, Repr

/-- The wording of a store's failure. -/
def StoreError.message : StoreError → String
  | .notFound key => "no schema stored under " ++ key
  | .alreadyStored key => "schema " ++ key ++ " is already stored"
  | .subjectBound subject schema => "subject " ++ subject ++ " is already bound to " ++ schema
  | .conflict key expected found =>
    "revision precondition failed for " ++ key ++ ": expected " ++ expected.render ++
      ", found " ++ found.render
  | .corrupted key flaw => "corrupted aggregate " ++ key ++ ": " ++ flaw.message
  | .invalidKey part => "invalid storage key '" ++ part ++ "'"
  | .backend message => message
  | .file fault => "IO error: " ++ fault.message
  | .json offence => "JSON error: " ++ offence.message?.getD "unreadable text"
  | .emptyLedger => "the version ledger is empty"

/-- A new version that the compatibility gate rejects. -/
structure Violation where
  schema : String
  version : Nat
  policy : Policy
  reason : String
  deriving DecidableEq, Repr

namespace Violation

/-- The rejection of the latest version of a candidate. -/
def ofCandidate (candidate : Aggregate) (policy : Policy) (reason : String) : Violation :=
  ⟨candidate.name.fullName, candidate.lastVersion, policy, reason⟩

/-- The wording of a rejection. -/
def message (v : Violation) : String :=
  v.schema ++ " v" ++ Text.decimal v.version ++ " violates " ++ v.policy.label ++ ": " ++ v.reason

end Violation

/-- Why an artifact cannot be compiled. -/
inductive CompileError where
  | unresolved (schema reference : String)
  | failed (message : String)
  deriving DecidableEq, Repr

/-- The wording of a compiler's failure. -/
def CompileError.message : CompileError → String
  | .unresolved schema reference => "unresolved reference '" ++ reference ++ "' in " ++ schema
  | .failed message => message

/-- Why an operation fails. -/
inductive Failure where
  | notFound (name : String)
  | alreadyExists (name : String)
  | denied (denial : Denial)
  | incompatible (violation : Violation)
  | compile (error : CompileError)
  /-- The compiler's artifact belongs to another version. -/
  | misbound (found expected : Nat)
  /-- Artifacts are switched off, or there is no compiler. -/
  | uploadUnavailable
  | conflict (name : String) (expected : Nat)
  | blankPart (part : NamePart) (name : String)
  | unknownFamily (text : String)
  | unknownPolicy (text : String)
  | nodeIdTooLarge (node most : Nat)
  | store (error : StoreError)
  | emptyLedger
  deriving DecidableEq, Repr

namespace Failure

/-- The wording of a failure. -/
def message : Failure → String
  | .notFound name => "Schema not found: " ++ name
  | .alreadyExists name => "Schema already exists: " ++ name
  | .denied d =>
    "Permission denied: " ++ d.actor ++ " may not " ++ d.operation.label ++ " in scope '" ++
      d.scope ++ "'"
  | .incompatible v => "Compatibility check failed: " ++ v.message
  | .compile e => "Dependency compilation failed: " ++ e.message
  | .misbound found expected =>
    "Dependency compilation failed: artifact bound to version " ++ Text.decimal found ++
      ", expected " ++ Text.decimal expected
  | .uploadUnavailable =>
    "Dependency upload unavailable: needs upload_enabled and a dependency compiler"
  | .conflict name expected =>
    "Concurrent modification of " ++ name ++ ": expected version " ++ Text.decimal expected
  | .blankPart part name =>
    "Invalid schema name: " ++ part.label ++ " is empty in '" ++ name ++ "'"
  | .unknownFamily text => "Invalid schema format: unknown schema type '" ++ text ++ "'"
  | .unknownPolicy text => "Invalid schema format: unknown compatibility '" ++ text ++ "'"
  | .nodeIdTooLarge node most =>
    "Invalid schema format: node id " ++ Text.decimal node ++ " exceeds " ++ Text.decimal most
  | .store e => "Storage error: " ++ e.message
  | .emptyLedger => "the version ledger is empty"

/-- Running the whole operation again may succeed. -/
def isRetryable : Failure → Bool
  | .conflict _ _ => true
  | _ => false

/-- What a caller is told of a store's failure. -/
def ofStore : StoreError → Failure
  | .notFound key => .notFound key
  | .alreadyStored key => .alreadyExists key
  | .subjectBound subject _ => .alreadyExists subject
  | .conflict key expected _ => .conflict key expected.version
  | .emptyLedger => .emptyLedger
  | e => .store e

end Failure

/-- A family by its name. -/
def Family.parse (s : String) : Except Failure Family :=
  match Family.ofText? s with
  | some f => .ok f
  | none => .error (.unknownFamily (Family.fold s))

/-- A policy by its name. -/
def Policy.parse (s : String) : Except Failure Policy :=
  match Policy.ofText? s with
  | .some p => .ok p
  | .none => .error (.unknownPolicy (Policy.fold s))

/-- A name is valid for a call if none of the parts that the call needs is blank. -/
def SchemaName.check (n : SchemaName) (parts : List NamePart) : Except Failure Unit :=
  match n.blankPart? parts with
  | some part => .error (.blankPart part n.fullName)
  | none => .ok ()

end SchemaLedger
