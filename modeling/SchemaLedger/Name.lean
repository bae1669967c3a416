import SchemaLedger.Text.Blank
import SchemaLedger.Text.Digits

/-!
Identity of a schema.

A schema belongs to a tenant and is bound to one subject. Its three names are joined by
slashes into the keys of a store (`SchemaName.fullName`, `SchemaName.subjectKey`).

* `SchemaName.blankPart?` finds the first part that is blank among those a call needs.
-/

namespace SchemaLedger

/-- The subject that a version is bound to. -/
structure SubjectRef where
  tenant : String
  subject : String
  deriving DecidableEq, Repr

/-- The key of a subject: tenant and subject. -/
def SubjectRef.key (s : SubjectRef) : String :=
  s.tenant ++ "/" ++ s.subject

/-- The names of a schema. The version selects one record in a read by subject and takes no
part in any key. -/
structure SchemaName where
  tenant : String
  subject : String
  schema : String
  version : Option UInt64 := none
  deriving DecidableEq, Repr

/-- The parts of a name that must not be blank. -/
inductive NamePart where
  | tenant
  | subject
  | schema
  deriving DecidableEq, Repr

/-- The part's name in messages. -/
def NamePart.label : NamePart → String
  | .tenant => "tenant"
  | .subject => "subject"
  | .schema => "schema"

namespace SchemaName

/-- The key of the schema: tenant, subject and schema. -/
def fullName (n : SchemaName) : String :=
  n.tenant ++ "/" ++ n.subject ++ "/" ++ n.schema

/-- The name stamped on every record: tenant and schema. -/
def recordName (n : SchemaName) : String :=
  n.tenant ++ "/" ++ n.schema

/-- The key of the subject: tenant and subject. -/
def subjectKey (n : SchemaName) : String :=
  n.tenant ++ "/" ++ n.subject

/-- The subject to which records made under this name are bound. -/
def subjectRef (n : SchemaName) : SubjectRef :=
  ⟨n.tenant, n.subject⟩

/-- The name without its version. -/
def unversioned (n : SchemaName) : SchemaName :=
  { n with version := none }

/-- The version as a suffix, if the name selects one. -/
def versionSuffix (n : SchemaName) : String :=
  match n.version with
  | some v => "@v" ++ Text.decimal v.toNat
  | none => ""

/-- The full name, with the version it selects. -/
def render (n : SchemaName) : String :=
  n.fullName ++ n.versionSuffix

/-- The value of a part. -/
def part (n : SchemaName) : NamePart → String
  | .tenant => n.tenant
  | .subject => n.subject
  | .schema => n.schema

/-- The first blank part among the given ones. -/
def blankPart? (n : SchemaName) (parts : List NamePart) : Option NamePart :=
  parts.find? fun p => Text.isBlank (n.part p)

/-- The parts that a read or write of the schema itself needs. -/
def schemaParts : List NamePart :=
  [.tenant, .subject, .schema]

/-- The parts that a read by subject needs. -/
def subjectParts : List NamePart :=
  [.tenant, .subject]

end SchemaName

end SchemaLedger
