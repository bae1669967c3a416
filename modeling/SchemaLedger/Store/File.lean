import SchemaLedger.Files.FileSystem
import SchemaLedger.Json.Reader
import SchemaLedger.Json.Writer
import SchemaLedger.Store.Call
import SchemaLedger.Store.Dictionary
import SchemaLedger.Wire

/-!
The store that keeps one file for each schema.

A schema lies in `schemas/<tenant>/<subject>/<schema>.json` below the store's root, and the
folder of a subject holds at most one schema. A file is written under a temporary name first and
then renamed. What was read and written last is kept in a cache by full name.

* `FileStore.openFolder` reads everything below the root; a ledger with gaps or with a text that
  disagrees with its checksum is refused.
* `FileStore.answer` answers one call and gives the store after it. Writes compare with the
  file and not with the cache.
* `checkPart` refuses names that would leave their folder, so that `FileStore.schemaPath` is
  always three steps below `schemas`.
-/

namespace SchemaLedger

/-- A store in the folder `root`. -/
structure FileStore where
  root : Path
  cache : Dictionary Aggregate := .empty
  deriving DecidableEq, Repr

/-- A program of the file store. -/
abbrev Storing (α : Type) : Type :=
  ExceptT StoreError (Program FileSystem) α

namespace Storing

/-- A program that calls the file system, whose faults are the store's failures. -/
def file {α : Type} (p : Filing α) : Storing α :=
  ExceptT.mk (p.run.bind fun r => .done (r.mapError .file))

/-- A result that is known already. -/
def known {α : Type} (r : Except StoreError α) : Storing α :=
  ExceptT.mk (.done r)

end Storing

namespace FileStore

open Storing

/-- A part of a name as a step of a path. -/
def checkPart (part : String) : Except StoreError String :=
  if part = "" ∨ part = "." ∨ part = ".." ∨
      part.toList.any fun c => c == '/' || c == '\\' || c == '\x00' then
    .error (.invalidKey part)
  else .ok part

/-- The extension of schema files. -/
def extension : String := "json"

/-- The folder of all schemas. -/
def schemasPath (root : Path) : Path :=
  root ++ ["schemas"]

/-- The folder of a subject. -/
def subjectPath (root : Path) (name : SchemaName) : Except StoreError Path := do
  let tenant ← checkPart name.tenant
  let subject ← checkPart name.subject
  .ok (schemasPath root ++ [tenant, subject])

/-- The name of a schema's file. -/
def fileName (schema : String) : String :=
  schema ++ "." ++ extension

/-- The name under which a file is first written. -/
def temporaryName (file : String) : String :=
  FileName.withExtension file (extension ++ ".tmp")

/-- The file of a schema. -/
def schemaPath (root : Path) (name : SchemaName) : Except StoreError Path := do
  let schema ← checkPart name.schema
  let folder ← subjectPath root name
  .ok (folder ++ [fileName schema])

/-- The schema that a text describes, if its ledger is sound. -/
def decode (content : String) : Except StoreError Aggregate := do
  let a ← (Wire.aggregate.read content).mapError .json
  if !a.ledger.isContiguous then .error (.corrupted a.name.fullName .gap)
  else if !a.ledger.isAuthentic then .error (.corrupted a.name.fullName .tampered)
  else .ok a

/-- The schema in a file. -/
def load (path : Path) : Storing Aggregate := do
  let content ← file (Filing.readText path)
  known (decode content)

/-- The names of schema files among the entries of a folder. -/
def schemaFiles (entries : List (String × EntryKind)) : List String :=
  (entries.map Prod.fst).filter fun name => FileName.extension? name == some extension

/-- The folders among the entries of a folder. -/
def folders (entries : List (String × EntryKind)) : List String :=
  (entries.filter fun e => e.2 = .folder).map Prod.fst

/-- The files among the entries of a folder. -/
def files (entries : List (String × EntryKind)) : List (String × EntryKind) :=
  entries.filter fun e => e.2 = .file

/-- Runs a program for each item in turn and collects the results. -/
def gather {α β : Type} (f : α → Storing (List β)) : List α → Storing (List β)
  | [] => return []
  | a :: as => do
    let bs ← f a
    return bs ++ (← gather f as)

/-- The entries of a folder, where a folder that cannot be listed is no schema's fault. -/
def listed (path : Path) : Storing (List (String × EntryKind)) :=
  ExceptT.mk ((Filing.list path).run.bind fun r =>
    .done (r.mapError fun fault => .backend fault.message))

/-- All schemas in files three steps below a folder. -/
def loadAll (path : Path) : Storing (List Aggregate) := do
  gather (fun tenant => do
    gather (fun subject => do
      let folder := path ++ [tenant, subject]
      gather (fun name => do return [← load (folder ++ [name])])
        (schemaFiles (files (← listed folder))))
      (folders (← listed (path ++ [tenant]))))
    (folders (← listed path))

/-- The store in a folder, which is made if it is not there. -/
def openFolder (root : Path) : Storing FileStore := do
  file (Filing.makeFolders (schemasPath root))
  let schemas ← loadAll (schemasPath root)
  return { root := root
           cache := schemas.foldl (fun cache a => cache.insert a.name.fullName a) .empty }

/-- The store with a schema in its cache. -/
def remember (s : FileStore) (a : Aggregate) : FileStore :=
  { s with cache := s.cache.insert a.name.fullName a }

/-- The schema in the file of a name. -/
def readFile (s : FileStore) (name : SchemaName) : Storing (Option Aggregate) := do
  let path ← known (schemaPath s.root name)
  if ← file (Filing.isPresent path) then return some (← load path) else return none

/-- Writes a schema to its file, by way of a temporary one. -/
def writeFile (path : Path) (a : Aggregate) : Storing Unit := do
  let folder := path.dropLast
  let temporary := folder ++ [temporaryName (path.getLast?.getD "")]
  file (Filing.makeFolders folder)
  file (Filing.writeText temporary (Wire.aggregate.pretty a))
  file (Filing.rename temporary path)

/-- The first schema file in the folder of a subject, if there is one. -/
def firstFile (folder : Path) (skip : Option String) : Storing (Option String) := do
  if ← file (Filing.isFolder folder) then
    let names := schemaFiles (← file (Filing.list folder))
    return names.find? fun name => some name != skip
  else return none

/-- The schema bound to the subject of a name. -/
def bound (s : FileStore) (name : SchemaName) (useCache : Bool) : Storing (Option Aggregate) := do
  if useCache then return s.cache.findValue? fun a => a.name.subjectKey == name.subjectKey
  else
    let folder ← known (subjectPath s.root name)
    match ← firstFile folder none with
    | some file => return some (← load (folder ++ [file]))
    | none => return none

/-- The schema of a name, and the store that remembers it. -/
def fetch (s : FileStore) (name : SchemaName) (useCache : Bool) :
    Storing (Option Aggregate × FileStore) := do
  if useCache then return (s.cache.get? name.fullName, s)
  else
    match ← s.readFile name with
    | some a => return (some a, s.remember a)
    | none => return (none, s)

/-- Stores a schema under a name that has no file, in a subject folder without schema files. -/
def register (s : FileStore) (name : SchemaName) (a : Aggregate) : Storing FileStore := do
  let path ← known (schemaPath s.root name)
  if ← file (Filing.isPresent path) then throw (.alreadyStored name.fullName)
  let folder ← known (subjectPath s.root name)
  match ← firstFile folder (some (fileName name.schema)) with
  | some other =>
    throw (.subjectBound name.subjectKey (name.subjectKey ++ "/" ++ FileName.stem other))
  | none =>
    writeFile path a
    return s.remember a

/-- Replaces a schema whose file has the expected revision. -/
def replace (s : FileStore) (name : SchemaName) (a : Aggregate) (expected : Revision) :
    Storing FileStore := do
  let stored ← s.readFile name
  known (checkRevision name.fullName stored expected)
  let path ← known (schemaPath s.root name)
  writeFile path a
  return s.remember a

/-- Removes a schema whose file has the expected revision, and the folder of its subject if
nothing else is in it. -/
def remove (s : FileStore) (name : SchemaName) (expected : Revision) : Storing FileStore := do
  let stored ← s.readFile name
  known (checkRevision name.fullName stored expected)
  let path ← known (schemaPath s.root name)
  file (Filing.removeFile path)
  let folder ← known (subjectPath s.root name)
  if (← file (Filing.list folder)).isEmpty then file (Filing.removeFolder folder)
  return { s with cache := s.cache.erase name.fullName }

/-- The store after a program, or the store as it was if the program fails. -/
def keep {α : Type} (s : FileStore) (p : Storing (α × FileStore)) :
    Program FileSystem (Except StoreError α × FileStore) :=
  p.run.bind fun r =>
    match r with
    | .ok (a, s') => .done (.ok a, s')
    | .error e => .done (.error e, s)

/-- The answer to a call, and the store after it. -/
def answer (s : FileStore) : (c : StoreCall) → Program FileSystem (c.Answer × FileStore)
  | .fetch name useCache => s.keep (s.fetch name useCache)
  | .fetchRecord name useCache => s.keep do
    match ← s.bound name useCache with
    | some a => return (← known (selectRecord a name), s)
    | none => return (none, s)
  | .fetchRecords name useCache => s.keep do
    return ((← s.bound name useCache).map (·.ledger.records), s)
  | .register name a => s.keep do return ((), ← s.register name a)
  | .replace name a expected => s.keep do return ((), ← s.replace name a expected)
  | .remove name expected => s.keep do return ((), ← s.remove name expected)

end FileStore

end SchemaLedger
