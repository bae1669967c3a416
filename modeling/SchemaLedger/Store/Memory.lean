import SchemaLedger.Store.Call
import SchemaLedger.Store.Dictionary

/-!
The store that lives in memory.

* `MemoryStore.answer` answers one call and gives the store after it. A subject is bound to at
  most one schema; an index from subjects to full names keeps track of that.
* The store remembers every call (`calls`), and its writes can be made to fail (`failing`).
-/

namespace SchemaLedger

/-- A call as the store remembers it. -/
inductive CallTrace where
  | get (key : String)
  | register (key : String)
  | update (key : String) (expected : Revision)
  | delete (key : String) (expected : Revision)
  | getBySubject (subject : String)
  | listBySubject (subject : String)
  deriving DecidableEq, Repr

namespace CallTrace

/-- What is remembered of a call. -/
def ofCall : StoreCall → CallTrace
  | .fetch name _ => .get name.fullName
  | .fetchRecord name _ => .getBySubject name.subjectKey
  | .fetchRecords name _ => .listBySubject name.subjectKey
  | .register name _ => .register name.fullName
  | .replace name _ expected => .update name.fullName expected
  | .remove name expected => .delete name.fullName expected

/-- The call may have changed what is stored. -/
def isWrite : CallTrace → Bool
  | .register _ | .update _ _ | .delete _ _ => true
  | _ => false

end CallTrace

/-- Schemas by full name, and the full name bound to each subject. -/
structure Tables where
  schemas : Dictionary Aggregate := .empty
  subjects : Dictionary String := .empty
  deriving DecidableEq, Repr

namespace Tables

/-- The schema bound to a subject. -/
def bound? (t : Tables) (subjectKey : String) : Option Aggregate :=
  (t.subjects.get? subjectKey).bind t.schemas.get?

/-- Stores a schema under a name that has none and a subject that is free. -/
def register (t : Tables) (name : SchemaName) (a : Aggregate) : Except StoreError Tables :=
  if t.schemas.contains name.fullName then .error (.alreadyStored name.fullName)
  else
    match t.subjects.get? name.subjectKey with
    | some schema => .error (.subjectBound name.subjectKey schema)
    | none =>
      .ok { schemas := t.schemas.insert name.fullName a
            subjects := t.subjects.insert name.subjectKey name.fullName }

/-- Replaces a schema that has the expected revision. -/
def replace (t : Tables) (name : SchemaName) (a : Aggregate) (expected : Revision) :
    Except StoreError Tables := do
  checkRevision name.fullName (t.schemas.get? name.fullName) expected
  .ok { t with schemas := t.schemas.insert name.fullName a }

/-- Removes a schema that has the expected revision, and frees its subject. -/
def remove (t : Tables) (name : SchemaName) (expected : Revision) : Except StoreError Tables := do
  checkRevision name.fullName (t.schemas.get? name.fullName) expected
  .ok { schemas := t.schemas.erase name.fullName
        subjects := t.subjects.filterValues fun schema => schema != name.fullName }

/-- The answer to a call, and the tables after it. -/
def answer (t : Tables) : (c : StoreCall) → c.Answer × Tables
  | .fetch name _ => (.ok (t.schemas.get? name.fullName), t)
  | .fetchRecord name _ =>
    (match t.bound? name.subjectKey with
      | some a => selectRecord a name
      | none => .ok none, t)
  | .fetchRecords name _ => (.ok ((t.bound? name.subjectKey).map (·.ledger.records)), t)
  | .register name a =>
    match t.register name a with
    | .ok t' => (.ok (), t')
    | .error e => (.error e, t)
  | .replace name a expected =>
    match t.replace name a expected with
    | .ok t' => (.ok (), t')
    | .error e => (.error e, t)
  | .remove name expected =>
    match t.remove name expected with
    | .ok t' => (.ok (), t')
    | .error e => (.error e, t)

end Tables

/-- A store in memory. -/
structure MemoryStore where
  tables : Tables := {}
  /-- All calls so far, oldest first. -/
  calls : List CallTrace := []
  /-- The message with which every write fails. -/
  failing : Option String := none
  deriving DecidableEq, Repr

namespace MemoryStore

/-- The answer of a write that is made to fail. -/
def refusal (message : String) : (c : StoreCall) → c.Answer :=
  fun _ => .error (.backend message)

/-- The answer to a call, and the store after it. -/
def answer (s : MemoryStore) (c : StoreCall) : c.Answer × MemoryStore :=
  let calls := s.calls ++ [CallTrace.ofCall c]
  match s.failing with
  | some message =>
    if c.isWrite then (refusal message c, { s with calls := calls })
    else
      let (answer, tables) := s.tables.answer c
      (answer, { s with calls := calls, tables := tables })
  | none =>
    let (answer, tables) := s.tables.answer c
    (answer, { s with calls := calls, tables := tables })

/-- The number of writes so far, failed ones included. -/
def writeCount (s : MemoryStore) : Nat :=
  s.calls.countP CallTrace.isWrite

/-- The number of schemas stored. -/
def size (s : MemoryStore) : Nat :=
  s.tables.schemas.size

end MemoryStore

end SchemaLedger
