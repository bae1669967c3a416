import SchemaLedger.Json.Codec
import SchemaLedger.View

/-!
The stored and transmitted form of schemas, requests and answers.

Each type of the registry has one description here; keys are in the order in which they are
written. Fields that are often absent are left out when they are: the version of a name, the
description in an audit, artifacts and empty labels.
-/

namespace SchemaLedger.Wire

open Json

/-- A number of 64 bits. -/
def word : Codec UInt64 :=
  .number (Word.limit 64) "u64" UInt64.toNat UInt64.ofNat fun _ => UInt64.ofNat_toNat

/-- A count, which is stored as a number of 64 bits. -/
def count : Codec Nat :=
  .number (Word.limit 64) "u64" id id fun _ => rfl

/-- Any text. -/
def text : Codec String :=
  .text "a string"

/-- A field that is left out when there is no value. -/
def whenPresent (α : Type) : Presence (Option α) :=
  .omitted none Option.isNone fun _ h => Option.isNone_iff_eq_none.1 h

/-- Labels that are left out when there are none. -/
def whenLabelled : Presence Labels :=
  .omitted Labels.empty (fun l => l.entries.isEmpty) fun l h => by
    obtain ⟨entries, sorted⟩ := l
    obtain rfl : entries = [] := List.isEmpty_iff.1 h
    rfl

/-- A family by its label. -/
def family : Codec Family :=
  .choice Family.label Family.all Family.label_find

/-- A policy by its label. -/
def policy : Codec Policy :=
  .choice Policy.label Policy.all Policy.label_find

/-- A checksum is its text. -/
def checksum : Codec Checksum :=
  .via text Checksum.text Checksum.mk fun _ => rfl

/-- The subject of a record. -/
def subjectRef : Codec SubjectRef :=
  .record "SubjectInfo"
    (.cons "tenant" .required text <|
      .cons "subject" .required text .nil)
    (fun s => (s.tenant, s.subject, ()))
    (fun (tenant, subject, ()) => ⟨tenant, subject⟩)
    fun _ => rfl

/-- The names of a schema. -/
def schemaName : Codec SchemaName :=
  .record "QualifiedName"
    (.cons "tenant" .required text <|
      .cons "subject" .required text <|
      .cons "schema" .required text <|
      .cons "version" (whenPresent UInt64) (.optional word) .nil)
    (fun n => (n.tenant, n.subject, n.schema, n.version, ()))
    (fun (tenant, subject, schema, version, ()) => ⟨tenant, subject, schema, version⟩)
    fun _ => rfl

/-- Who created a schema and who changed it last. -/
def audit : Codec Audit :=
  .record "AuditInfo"
    (.cons "created_by" .required text <|
      .cons "description" (whenPresent String) (.optional text) <|
      .cons "created_at" .required .instant <|
      .cons "last_modified_by" .required text <|
      .cons "last_modified_at" .required .instant .nil)
    (fun a => (a.createdBy, a.description, a.createdAt, a.modifiedBy, a.modifiedAt, ()))
    (fun (createdBy, description, createdAt, modifiedBy, modifiedAt, ()) =>
      ⟨createdBy, description, createdAt, modifiedBy, modifiedAt⟩)
    fun _ => rfl

/-- What is fixed at registration. -/
def info : Codec Meta :=
  .record "SchemaMeta"
    (.cons "tenant" .required text <|
      .cons "schema_name" .required text <|
      .cons "owner" .required text <|
      .cons "schema_type" .required family <|
      .cons "compatibility" .required policy <|
      .cons "unique_id" .required word .nil)
    (fun m => (m.tenant, m.schemaName, m.owner, m.family, m.policy, m.uniqueId, ()))
    (fun (tenant, schemaName, owner, family, policy, uniqueId, ()) =>
      ⟨tenant, schemaName, owner, family, policy, uniqueId⟩)
    fun _ => rfl

/-- One version. -/
def record : Codec Record :=
  .record "SchemaRecord"
    (.cons "schema" .required text <|
      .cons "schema_id" .required word <|
      .cons "schema_type" .required family <|
      .cons "idl" .required text <|
      .cons "version" .required count <|
      .cons "subjects" .required (.list subjectRef) <|
      .cons "checksum" .required checksum <|
      .cons "created_at" .required .instant .nil)
    (fun r => (r.schema, r.schemaId, r.family, r.idl, r.version, r.subjects, r.checksum,
      r.createdAt, ()))
    (fun (schema, schemaId, family, idl, version, subjects, checksum, createdAt, ()) =>
      ⟨schema, schemaId, family, idl, version, subjects, checksum, createdAt⟩)
    fun _ => rfl

/-- The history of a schema. -/
def ledger : Codec Ledger :=
  .record "SchemaDetails"
    (.cons "records" .required (.list record) .nil)
    (fun l => (l.records, ()))
    (fun (records, ()) => ⟨records⟩)
    fun _ => rfl

/-- A compiled artifact. -/
def artifact : Codec Artifact :=
  .record "Dependency"
    (.cons "record_version" .required count <|
      .cons "artifact" .required text <|
      .cons "references" (.defaulted []) (.list text) <|
      .cons "checksum" .required checksum <|
      .cons "compiled_at" .required .instant .nil)
    (fun a => (a.recordVersion, a.coordinate, a.references, a.checksum, a.compiledAt, ()))
    (fun (recordVersion, coordinate, references, checksum, compiledAt, ()) =>
      ⟨recordVersion, coordinate, references, checksum, compiledAt⟩)
    fun _ => rfl

/-- A schema as it is stored. -/
def aggregate : Codec Aggregate :=
  .record "SchemaInfo"
    (.cons "qualified_name" .required schemaName <|
      .cons "audit" .required audit <|
      .cons "meta" .required info <|
      .cons "details" .required ledger <|
      .cons "last_record_dependency" (whenPresent Artifact) (.optional artifact) <|
      .cons "storage" whenLabelled .labels <|
      .cons "extras" whenLabelled .labels .nil)
    (fun a => (a.name, a.audit, a.info, a.ledger, a.artifact, a.storage, a.extras, ()))
    (fun (name, audit, info, ledger, artifact, storage, extras, ()) =>
      ⟨name, audit, info, ledger, artifact, storage, extras⟩)
    fun _ => rfl

/-- Id and number of versions. -/
def revision : Codec Revision :=
  .record "Revision"
    (.cons "schema_id" .required word <|
      .cons "version" .required count .nil)
    (fun r => (r.schemaId, r.version, ()))
    (fun (schemaId, version, ()) => ⟨schemaId, version⟩)
    fun _ => rfl

/-- A request to register a schema. An absent description is written as `null`. -/
def registration : Codec Registration :=
  .record "RegisterSchemaRequest"
    (.cons "owner" .required text <|
      .cons "description" (.defaulted none) (.optional text) <|
      .cons "compatibility" (.defaulted .backward) policy <|
      .cons "schema_type" (.defaulted .avro) family <|
      .cons "idl" .required text .nil)
    (fun r => (r.owner, r.description, r.policy, r.family, r.idl, ()))
    (fun (owner, description, policy, family, idl, ()) =>
      ⟨owner, description, policy, family, idl⟩)
    fun _ => rfl

/-- A request to add a version. -/
def change : Codec Change :=
  .record "UpdateSchemaRequest"
    (.cons "owner" .required text <|
      .cons "idl" .required text .nil)
    (fun c => (c.owner, c.idl, ()))
    (fun (owner, idl, ()) => ⟨owner, idl⟩)
    fun _ => rfl

/-- The answer to a request; `title` is the record's name in messages. -/
def receipt (title : String) : Codec Receipt :=
  .record title
    (.cons "schema_id" .required word <|
      .cons "version" .required count .nil)
    (fun r => (r.schemaId, r.version, ()))
    (fun (schemaId, version, ()) => ⟨schemaId, version⟩)
    fun _ => rfl

/-- The answer to a registration. -/
def registered : Codec Receipt := receipt "RegisterSchemaResponse"

/-- The answer to a change. -/
def changed : Codec Receipt := receipt "UpdateSchemaResponse"

/-- One version as shown to callers. -/
def recordView : Codec RecordView :=
  .record "SchemaRecordDto"
    (.cons "schema" .required text <|
      .cons "schema_id" .required word <|
      .cons "schema_type" .required family <|
      .cons "version" .required count <|
      .cons "idl" .required text <|
      .cons "subjects" .required (.list subjectRef) <|
      .cons "checksum" .required text .nil)
    (fun r => (r.schema, r.schemaId, r.family, r.version, r.idl, r.subjects, r.checksum, ()))
    (fun (schema, schemaId, family, version, idl, subjects, checksum, ()) =>
      ⟨schema, schemaId, family, version, idl, subjects, checksum⟩)
    fun _ => rfl

/-- A whole schema as shown to callers. -/
def schemaView : Codec SchemaView :=
  .record "SchemaDto"
    (.cons "qualified_name" .required schemaName <|
      .cons "audit" .required audit <|
      .cons "meta" .required info <|
      .cons "records" .required (.list recordView) <|
      .cons "last_version" .required count <|
      .cons "dependency" (whenPresent Artifact) (.optional artifact) .nil)
    (fun v => (v.name, v.audit, v.info, v.records, v.lastVersion, v.artifact, ()))
    (fun (name, audit, info, records, lastVersion, artifact, ()) =>
      ⟨name, audit, info, records, lastVersion, artifact⟩)
    fun _ => rfl

end SchemaLedger.Wire
