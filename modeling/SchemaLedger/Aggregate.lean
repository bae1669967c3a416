import SchemaLedger.Labels
import SchemaLedger.Ledger

/-!
A schema with everything that is stored about it.

* `Aggregate.make` is a newly registered schema, `Aggregate.next?` the same schema with one
  more version: identity, metadata and labels carry over, the compiled artifact does not.
* `Aggregate.revision` is what a conditional write compares: id and number of versions.
* `Aggregate.currentArtifact` is the artifact, if it was compiled from the latest version.
-/

namespace SchemaLedger

/-- Who created a schema and who changed it last. -/
structure Audit where
  createdBy : String
  description : Option String
  createdAt : Instant
  modifiedBy : String
  modifiedAt : Instant
  deriving DecidableEq, Repr

namespace Audit

/-- The audit of a new schema. -/
def created (owner : String) (description : Option String) (now : Instant) : Audit :=
  ⟨owner, description, now, owner, now⟩

/-- The audit after a change; creation stays as it was. -/
def updated (a : Audit) (owner : String) (now : Instant) : Audit :=
  { a with modifiedBy := owner, modifiedAt := now }

end Audit

/-- What is fixed when a schema is registered. -/
structure Meta where
  tenant : String
  schemaName : String
  owner : String
  family : Family
  policy : Policy
  /-- Unique among all schemas ever registered. -/
  uniqueId : UInt64
  deriving DecidableEq, Repr

/-- An artifact compiled from one version of a schema. -/
structure Artifact where
  /-- The version it was compiled from. -/
  recordVersion : Nat
  /-- Where the artifact is found. -/
  coordinate : String
  /-- Full names of the schemas it refers to. -/
  references : List String
  checksum : Checksum
  compiledAt : Instant
  deriving DecidableEq, Repr

/-- Identity and length of a stored schema. -/
structure Revision where
  schemaId : UInt64
  version : Nat
  deriving DecidableEq, Repr

/-- A revision in messages. -/
def Revision.render (r : Revision) : String :=
  "id " ++ Text.decimal r.schemaId.toNat ++ " v" ++ Text.decimal r.version

/-- A schema as it is stored. -/
structure Aggregate where
  name : SchemaName
  audit : Audit
  info : Meta
  ledger : Ledger
  artifact : Option Artifact := none
  /-- Labels kept by the store. -/
  storage : Labels := Labels.empty
  /-- Labels kept by others. -/
  extras : Labels := Labels.empty
  deriving DecidableEq, Repr

namespace Aggregate

/-- A new schema. The version that a name may select is no part of its identity. -/
def make (name : SchemaName) (audit : Audit) (info : Meta) (ledger : Ledger) : Aggregate where
  name := name.unversioned
  audit := audit
  info := info
  ledger := ledger

/-- The schema with one more version. -/
def next? (a : Aggregate) (name : SchemaName) (owner idl : String)
    (modifiedAt createdAt : Instant) : Option Aggregate :=
  (a.ledger.append? name idl createdAt).map fun ledger =>
    { a with audit := a.audit.updated owner modifiedAt, ledger := ledger, artifact := none }

/-- The schema with an artifact. -/
def withArtifact (a : Aggregate) (artifact : Artifact) : Aggregate :=
  { a with artifact := some artifact }

/-- The number of versions. -/
def lastVersion (a : Aggregate) : Nat :=
  a.ledger.lastVersion

/-- What a conditional write compares. -/
def revision (a : Aggregate) : Revision :=
  ⟨a.info.uniqueId, a.lastVersion⟩

/-- The artifact, if it belongs to the latest version. -/
def currentArtifact (a : Aggregate) : Option Artifact :=
  a.artifact.filter fun d => d.recordVersion == a.lastVersion

end Aggregate

/-- A description of an artifact compiled from the latest version of a schema. -/
def Artifact.ofLatest (a : Aggregate) (coordinate : String) (payload : ByteArray)
    (references : List String) (now : Instant) : Artifact where
  recordVersion := a.lastVersion
  coordinate := coordinate
  references := references
  checksum := Checksum.ofBytes payload
  compiledAt := now

end SchemaLedger
