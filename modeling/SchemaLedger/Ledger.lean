import SchemaLedger.Digest.Checksum
import SchemaLedger.Family
import SchemaLedger.Name
import SchemaLedger.Time.Instant

/-!
The history of a schema: one record for each version, in order, never rewritten.

* `Ledger.start` holds version 1; `Ledger.append?` adds the version after the last record.
* A ledger that was read from outside may be empty, have gaps or carry wrong checksums.
  `Ledger.isContiguous` and `Ledger.isAuthentic` tell; an empty ledger has no last record, so
  `Ledger.last?` and `Ledger.append?` are partial there.
-/

namespace SchemaLedger

/-- One version of a schema. -/
structure Record where
  /-- Tenant and schema. -/
  schema : String
  schemaId : UInt64
  family : Family
  idl : String
  version : Nat
  subjects : List SubjectRef
  checksum : Checksum
  createdAt : Instant
  deriving DecidableEq, Repr

namespace Record

/-- A version of the schema with the given name, bound to the name's subject. -/
def make (name : SchemaName) (schemaId : UInt64) (family : Family) (idl : String)
    (version : Nat) (now : Instant) : Record where
  schema := name.recordName
  schemaId := schemaId
  family := family
  idl := idl
  version := version
  subjects := [name.subjectRef]
  checksum := Checksum.ofText idl
  createdAt := now

/-- The record is bound to the subject with the given key. -/
def isBoundTo (r : Record) (subjectKey : String) : Bool :=
  r.subjects.any fun s => s.key == subjectKey

/-- The checksum is that of the text. -/
def isAuthentic (r : Record) : Bool :=
  r.checksum.verifies r.idl

end Record

/-- The records of a schema, oldest first. -/
structure Ledger where
  records : List Record
  deriving DecidableEq, Repr

namespace Ledger

/-- The ledger of a new schema, which holds version 1. -/
def start (name : SchemaName) (schemaId : UInt64) (family : Family) (idl : String)
    (now : Instant) : Ledger :=
  ⟨[Record.make name schemaId family idl 1 now]⟩

/-- The latest record. -/
def last? (l : Ledger) : Option Record :=
  l.records.getLast?

/-- The number of versions. -/
def lastVersion (l : Ledger) : Nat :=
  l.records.length

/-- The ledger with one more version, which takes id and family from the latest record. -/
def append? (l : Ledger) (name : SchemaName) (idl : String) (now : Instant) : Option Ledger :=
  l.last?.map fun r =>
    ⟨l.records ++ [Record.make name r.schemaId r.family idl (r.version + 1) now]⟩

/-- The record at a position, counted from 1. -/
def record? (l : Ledger) (version : Nat) : Option Record :=
  if version = 0 then none else l.records[version - 1]?

/-- The ledger is not empty, and its versions are 1, 2, … in order. -/
def isContiguous (l : Ledger) : Bool :=
  !l.records.isEmpty && l.records.map (·.version) == List.range' 1 l.records.length

/-- Every checksum is that of its text. -/
def isAuthentic (l : Ledger) : Bool :=
  l.records.all Record.isAuthentic

end Ledger

end SchemaLedger
