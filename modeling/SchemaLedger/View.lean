import SchemaLedger.Aggregate

/-!
What callers send and what they are shown.

* `SchemaView` is the whole schema with its current artifact, `RecordView` one version.
-/

namespace SchemaLedger

/-- A request to register a schema. -/
structure Registration where
  owner : String
  description : Option String := none
  policy : Policy := .backward
  family : Family := .avro
  idl : String
  deriving DecidableEq, Repr

/-- A request to add a version. -/
structure Change where
  owner : String
  idl : String
  deriving DecidableEq, Repr

/-- The answer to a successful registration or change. -/
structure Receipt where
  schemaId : UInt64
  version : Nat
  deriving DecidableEq, Repr

/-- One version as shown to callers. -/
structure RecordView where
  schema : String
  schemaId : UInt64
  family : Family
  version : Nat
  idl : String
  subjects : List SubjectRef
  checksum : String
  deriving DecidableEq, Repr

/-- The view of a record. -/
def Record.view (r : Record) : RecordView where
  schema := r.schema
  schemaId := r.schemaId
  family := r.family
  version := r.version
  idl := r.idl
  subjects := r.subjects
  checksum := r.checksum.text

/-- A whole schema as shown to callers. -/
structure SchemaView where
  name : SchemaName
  audit : Audit
  info : Meta
  records : List RecordView
  lastVersion : Nat
  artifact : Option Artifact := none
  deriving DecidableEq, Repr

/-- The view of a schema. -/
def Aggregate.view (a : Aggregate) : SchemaView where
  name := a.name
  audit := a.audit
  info := a.info
  records := a.ledger.records.map Record.view
  lastVersion := a.lastVersion
  artifact := a.currentArtifact

/-- The latest version of a view. -/
def SchemaView.lastRecord? (v : SchemaView) : Option RecordView :=
  v.records.getLast?

end SchemaLedger
