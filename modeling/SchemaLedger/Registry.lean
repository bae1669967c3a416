import SchemaLedger.Program
import SchemaLedger.Settings.Basic
import SchemaLedger.Store.Call

/-!
The operations of the registry.

Each operation is a program that asks its collaborators one after the other: access control,
the store, the source of ids, the clock, the compatibility gate and the compiler. It keeps no
state of its own. All checks come before the one write, and the write carries the revision that
was read, so an operation that another writer overtakes fails with a conflict.

* `Registry.register`, `update`, `delete` and `compileArtifact` end in at most one write.
* `Registry.get`, `getBySubject` and `listBySubject` write nothing.
* `Registry.build` refuses settings that the collaborators at hand cannot serve.
-/

namespace SchemaLedger

/-- What an operation may ask its collaborators. -/
inductive Request where
  /-- May the actor do this here? -/
  | permit (actor scope : String) (operation : Operation)
  | store (call : StoreCall)
  /-- An id that was never drawn before. -/
  | drawId
  | readClock
  /-- May the candidate follow the current schema? -/
  | judge (candidate current : Aggregate) (policy : Policy)
  /-- The artifact of the schema's latest version. -/
  | compile (schema : Aggregate)
  deriving Repr

/-- What a collaborator answers. -/
def Request.Answer : Request → Type
  | .permit _ _ _ => Except Denial Unit
  | .store call => call.Answer
  | .drawId => UInt64
  | .readClock => Instant
  | .judge _ _ _ => Except Violation Unit
  | .compile _ => Except CompileError Artifact

/-- The collaborators of the registry. -/
abbrev Collaborators : Interface := ⟨Request, Request.Answer⟩

/-- An operation of the registry. -/
abbrev Operating (α : Type) : Type :=
  ExceptT Failure (Program Collaborators) α

/-- Asks a question that is always answered. -/
def Operating.ask (q : Request) : Operating q.Answer :=
  ExceptT.lift (Program.query (I := Collaborators) q)

/-- Continues with an answer, or fails with what the caller is to be told instead. -/
def Operating.lift {α ε : Type} (told : ε → Failure) (answer : Except ε α) : Operating α :=
  ExceptT.mk (.done (answer.mapError told))

/-- The registry: its settings, and whether it has a compiler. -/
structure Registry where
  settings : RegistrySettings := {}
  hasCompiler : Bool := false
  deriving DecidableEq, Repr

/-- The largest number that distinguishes sources of ids. -/
def maxNodeId : Nat := 1023

/-- A registry, unless it should compile and cannot, or should draw its own ids under a number
that is too large. -/
def Registry.build (settings : RegistrySettings) (hasCompiler hasIds : Bool) :
    Except Failure Registry :=
  if settings.uploadEnabled && !hasCompiler then .error .uploadUnavailable
  else if !hasIds && maxNodeId < settings.nodeId.toNat then
    .error (.nodeIdTooLarge settings.nodeId.toNat maxNodeId)
  else .ok ⟨settings, hasCompiler⟩

namespace Registry

open Operating

/-- Fails unless the actor may perform the operation in the scope. -/
def authorize (actor scope : String) (operation : Operation) : Operating Unit := do
  lift .denied (← ask (.permit actor scope operation))

/-- Asks the store, and tells the caller of its failure. -/
def consult (call : StoreCall) : Operating call.Result := do
  lift .ofStore (← ask (.store call))

/-- The stored schema with the given name. -/
def load (r : Registry) (name : SchemaName) : Operating Aggregate := do
  match ← consult (.fetch name r.settings.cacheEnabled) with
  | some a => return a
  | none => throw (.notFound name.fullName)

/-- The artifact of the schema's latest version. -/
def compile (r : Registry) (a : Aggregate) : Operating Artifact := do
  unless r.hasCompiler do throw .uploadUnavailable
  let artifact ← lift .compile (← ask (.compile a))
  unless artifact.recordVersion = a.lastVersion do
    throw (.misbound artifact.recordVersion a.lastVersion)
  return artifact

/-- The schema with its artifact, where artifacts are compiled before a version is stored. -/
def attach (r : Registry) (a : Aggregate) : Operating Aggregate := do
  if !r.settings.uploadEnabled || r.settings.compileMode = .deferred then return a
  else return a.withArtifact (← r.compile a)

/-- Registers a schema under a name that has none; its first version is 1. -/
def register (r : Registry) (actor : String) (name : SchemaName) (request : Registration) :
    Operating Receipt := do
  lift id (name.check SchemaName.schemaParts)
  authorize actor name.tenant .register
  if (← consult (.fetch name r.settings.cacheEnabled)).isSome then
    throw (.alreadyExists name.fullName)
  let schemaId ← ask .drawId
  let audit := Audit.created request.owner request.description (← ask .readClock)
  let info : Meta :=
    { tenant := name.tenant, schemaName := name.schema, owner := request.owner,
      family := request.family, policy := request.policy, uniqueId := schemaId }
  let ledger := Ledger.start name schemaId request.family request.idl (← ask .readClock)
  let schema ← r.attach (Aggregate.make name audit info ledger)
  consult (.register name schema)
  return ⟨schemaId, schema.lastVersion⟩

/-- Adds a version to a schema. The candidate is compared with the current version under the
policy that was fixed at registration. -/
def update (r : Registry) (actor : String) (name : SchemaName) (request : Change) :
    Operating Receipt := do
  lift id (name.check SchemaName.schemaParts)
  authorize actor name.tenant .update
  let current ← r.load name
  let modifiedAt ← ask .readClock
  let createdAt ← ask .readClock
  let candidate ← lift id <|
    match current.next? name request.owner request.idl modifiedAt createdAt with
    | some candidate => .ok candidate
    | none => .error .emptyLedger
  lift .incompatible (← ask (.judge candidate current current.info.policy))
  let candidate ← r.attach candidate
  consult (.replace name candidate current.revision)
  return ⟨candidate.info.uniqueId, candidate.lastVersion⟩

/-- Removes a schema with its history, and shows what was removed. -/
def delete (r : Registry) (actor : String) (name : SchemaName) : Operating SchemaView := do
  lift id (name.check SchemaName.schemaParts)
  authorize actor name.tenant .delete
  let current ← r.load name
  consult (.remove name current.revision)
  return current.view

/-- Shows a schema. -/
def get (r : Registry) (actor : String) (name : SchemaName) : Operating SchemaView := do
  lift id (name.check SchemaName.schemaParts)
  authorize actor name.tenant .get
  return (← r.load name).view

/-- Tells that nothing is bound to the name's subject, at the version it may select. -/
def subjectNotFound (name : SchemaName) : Failure :=
  .notFound (name.subjectKey ++ name.versionSuffix)

/-- Shows the latest record bound to a subject, or the one that the name selects. -/
def getBySubject (r : Registry) (actor : String) (name : SchemaName) :
    Operating RecordView := do
  lift id (name.check SchemaName.subjectParts)
  authorize actor name.subject .get
  match ← consult (.fetchRecord name r.settings.cacheEnabled) with
  | some record => return record.view
  | none => throw (subjectNotFound name)

/-- Shows all records bound to a subject, oldest first. -/
def listBySubject (r : Registry) (actor : String) (name : SchemaName) :
    Operating (List RecordView) := do
  lift id (name.check SchemaName.subjectParts)
  authorize actor name.subject .get
  match ← consult (.fetchRecords name r.settings.cacheEnabled) with
  | some (record :: records) => return (record :: records).map Record.view
  | _ => throw (subjectNotFound name)

/-- Compiles and attaches the artifact of the latest version, unless it is there already. If
another version is stored meanwhile, the artifact is dropped with a conflict. -/
def compileArtifact (r : Registry) (actor : String) (name : SchemaName) :
    Operating Artifact := do
  lift id (name.check SchemaName.schemaParts)
  authorize actor name.tenant .update
  unless r.settings.uploadEnabled do throw .uploadUnavailable
  let current ← r.load name
  match current.currentArtifact with
  | some artifact => return artifact
  | none =>
    let artifact ← r.compile current
    consult (.replace name (current.withArtifact artifact) current.revision)
    return artifact

end Registry

end SchemaLedger
