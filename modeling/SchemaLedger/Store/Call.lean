import SchemaLedger.Failure

/-!
What a store of schemas can be asked.

* Reads say whether they may be answered from a cache; what that means is up to the store.
* `replace` and `remove` are conditional: they carry the revision that the caller read, and
  `checkRevision` refuses them when the stored schema has another one. The number of versions
  keeps two updates from claiming the same version, and the id keeps a late write from landing
  on a schema that was removed and registered again.
-/

namespace SchemaLedger

/-- A call to a store. -/
inductive StoreCall where
  /-- The schema with the given full name. -/
  | fetch (name : SchemaName) (useCache : Bool)
  /-- The latest record bound to the name's subject, or the one that the name selects. -/
  | fetchRecord (name : SchemaName) (useCache : Bool)
  /-- All records bound to the name's subject. -/
  | fetchRecords (name : SchemaName) (useCache : Bool)
  /-- Stores a schema under a name that has none. -/
  | register (name : SchemaName) (schema : Aggregate)
  /-- Replaces a schema that has the expected revision. -/
  | replace (name : SchemaName) (schema : Aggregate) (expected : Revision)
  /-- Removes a schema that has the expected revision. -/
  | remove (name : SchemaName) (expected : Revision)
  deriving DecidableEq, Repr

namespace StoreCall

/-- What a successful call answers. -/
def Result : StoreCall → Type
  | .fetch _ _ => Option Aggregate
  | .fetchRecord _ _ => Option Record
  | .fetchRecords _ _ => Option (List Record)
  | .register _ _ => Unit
  | .replace _ _ _ => Unit
  | .remove _ _ => Unit

/-- What a call answers. -/
abbrev Answer (c : StoreCall) : Type :=
  Except StoreError c.Result

/-- The name that a call is about. -/
def name : StoreCall → SchemaName
  | .fetch n _ => n
  | .fetchRecord n _ => n
  | .fetchRecords n _ => n
  | .register n _ => n
  | .replace n _ _ => n
  | .remove n _ => n

/-- The call may change what is stored. -/
def isWrite : StoreCall → Bool
  | .register _ _ | .replace _ _ _ | .remove _ _ => true
  | _ => false

end StoreCall

/-- The record that a name selects: the one at its version, or the latest. A schema without
records has no latest one. -/
def selectRecord (a : Aggregate) (name : SchemaName) : Except StoreError (Option Record) :=
  match name.version with
  | some v => .ok (a.ledger.record? v.toNat)
  | none =>
    match a.ledger.last? with
    | some r => .ok (some r)
    | none => .error .emptyLedger

/-- Refuses a write unless a schema with the expected revision is stored. -/
def checkRevision (key : String) (stored : Option Aggregate) (expected : Revision) :
    Except StoreError Unit :=
  match stored with
  | none => .error (.notFound key)
  | some a =>
    if a.revision = expected then .ok () else .error (.conflict key expected a.revision)

end SchemaLedger
