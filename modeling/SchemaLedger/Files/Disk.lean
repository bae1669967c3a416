import SchemaLedger.Files.FileSystem

/-!
A file system as a value.

* `Disk.answer` answers one call and gives the disk after it. A call that fails leaves the disk
  as it was.
* A path is walked step by step, and the first step that cannot be taken decides which fault is
  reported: nothing there, something that is no folder, or a name of more than 255 bytes. A
  path of more than 4095 bytes is not walked at all.
* Relative paths start at the current folder, and `Disk.tree` lists what is below it.
-/

namespace SchemaLedger

/-- What stands at a path. -/
inductive Node where
  | file (content : ByteArray)
  | folder

/-- Files and folders below the root, by their steps from it. -/
structure Disk where
  nodes : List (Path × Node) := []
  /-- The steps from the root to the current folder. -/
  current : List String := []

namespace Disk

/-- The longest name of a file or folder, in bytes. -/
def maxName : Nat := 255

/-- The longest path, in bytes. -/
def maxPath : Nat := 4095

/-- What stands at the given steps from the root, which is itself a folder. -/
def node? (d : Disk) (place : List String) : Option Node :=
  if place = [] then some .folder else d.nodes.lookup place

/-- Walks the given steps from a place that exists; the place that they lead to. -/
def walk (d : Disk) (place : List String) : Path → Except FileFault (List String)
  | [] => .ok place
  | step :: rest =>
    if step = "/" then d.walk [] rest
    else
      match d.node? place with
      | some .folder =>
        if Path.stays step then d.walk place rest
        else if step = ".." then d.walk place.dropLast rest
        else if maxName < step.utf8ByteSize then .error .invalidName
        else if (d.node? (place ++ [step])).isNone then .error .notFound
        else d.walk (place ++ [step]) rest
      | _ => .error .notADirectory

/-- The place that a path leads to. -/
def follow (d : Disk) (path : Path) : Except FileFault (List String) :=
  if maxPath < path.render.utf8ByteSize then .error .invalidName else d.walk d.current path

/-- What stands at a path. -/
def find (d : Disk) (path : Path) : Except FileFault Node := do
  let place ← d.follow path
  match d.node? place with
  | some node => .ok node
  | none => .error .notFound

/-- The place of a path whose last step need not exist. -/
def locate (d : Disk) (path : Path) : Except FileFault (List String) :=
  match d.follow path with
  | .ok place => .ok place
  | .error fault => do
    let parent ← d.follow path.dropLast
    match fault, d.node? parent, path.getLast? with
    | .notFound, some .folder, some name => .ok (parent ++ [name])
    | _, _, _ => .error fault

/-- The disk with something else at a place. -/
def put (d : Disk) (place : List String) (node : Node) : Disk :=
  { d with nodes := (d.nodes.filter fun e => e.1 != place) ++ [(place, node)] }

/-- The disk with nothing at a place. -/
def drop (d : Disk) (place : List String) : Disk :=
  { d with nodes := d.nodes.filter fun e => e.1 != place }

/-- The steps that lead from a folder to each thing below it, in the order of their names. -/
def children (d : Disk) (place : List String) : List (String × EntryKind) :=
  let found := d.nodes.filterMap fun (path, node) =>
    match path.getLast? with
    | some name =>
      if path = place ++ [name] then
        some (name, match node with | .file _ => EntryKind.file | .folder => EntryKind.folder)
      else none
    | none => none
  found.mergeSort fun a b => decide (a.1 ≤ b.1)

/-- The names in a folder. -/
def list (d : Disk) (path : Path) : Except FileFault (List (String × EntryKind)) := do
  let place ← d.follow path
  match d.node? place with
  | some .folder => .ok (d.children place)
  | _ => .error .notADirectory

/-- The content of a file. -/
def read (d : Disk) (path : Path) : Except FileFault ByteArray := do
  match ← d.find path with
  | .file content => .ok content
  | .folder => .error .isADirectory

/-- The path without a slash at its end. -/
def withoutSlash (path : Path) : Path :=
  if path.getLast? = some "" then path.dropLast else path

/-- The disk with one more folder. The path may end in a slash. -/
def makeFolder (d : Disk) (path : Path) : Except FileFault Disk := do
  let place ← d.locate (withoutSlash path)
  match d.node? place with
  | some _ => .error .alreadyExists
  | none => .ok (d.put place .folder)

/-- The disk with the given content in a file. A path that ends in a slash names no file. -/
def write (d : Disk) (path : Path) (content : ByteArray) : Except FileFault Disk := do
  if path.getLast? = some "" then
    let _ ← d.list (withoutSlash path).dropLast
    throw .isADirectory
  let place ← d.locate path
  match d.node? place with
  | some .folder => .error .isADirectory
  | _ => .ok (d.put place (.file content))

/-- The disk with a file under another name. -/
def rename (d : Disk) (source target : Path) : Except FileFault Disk := do
  let place ← d.follow source
  let goal ← d.locate target
  match d.node? place, d.node? goal with
  | some (.file _), some .folder => .error .isADirectory
  | some (.file content), _ => .ok ((d.drop place).put goal (.file content))
  | _, _ => .error .other

/-- The disk without a file. -/
def removeFile (d : Disk) (path : Path) : Except FileFault Disk := do
  let place ← d.follow path
  match d.node? place with
  | some (.file _) => .ok (d.drop place)
  | _ => .error .isADirectory

/-- The disk without an empty folder. -/
def removeFolder (d : Disk) (path : Path) : Except FileFault Disk := do
  let place ← d.follow path
  match d.node? place with
  | some .folder =>
    if (d.children place).isEmpty then .ok (d.drop place) else .error .directoryNotEmpty
  | _ => .error .notADirectory

/-- The disk without a file, or without a folder and all that is below it. -/
def removeTree (d : Disk) (path : Path) : Except FileFault Disk := do
  let place ← d.follow path
  .ok { d with nodes := d.nodes.filter fun e => !place.isPrefixOf e.1 }

/-- The outcome of a call that changes the disk, and the disk after it. -/
def outcome (d : Disk) : Except FileFault Disk → Except FileFault Unit × Disk
  | .ok d' => (.ok (), d')
  | .error fault => (.error fault, d)

/-- The answer to a call, and the disk after it. -/
def answer (d : Disk) : (c : FileCall) → c.Answer × Disk
  | .isPresent path => ((d.find path).toBool, d)
  | .isFile path => (match d.find path with | .ok (.file _) => true | _ => false, d)
  | .isFolder path => (match d.find path with | .ok .folder => true | _ => false, d)
  | .list path => (d.list path, d)
  | .read path => (d.read path, d)
  | .makeFolder path => d.outcome (d.makeFolder path)
  | .write path content => d.outcome (d.write path content)
  | .rename source target => d.outcome (d.rename source target)
  | .removeFile path => d.outcome (d.removeFile path)
  | .removeFolder path => d.outcome (d.removeFolder path)

/-- The result of a program that calls the file system, and the disk after it. -/
def run {α : Type} (p : Program FileSystem α) (d : Disk) : α × Disk :=
  Program.run (I := FileSystem) (m := StateM Disk) (fun c d => pure (d.answer c)) p d

/-- The result of a program that may fail, and the disk after it. -/
def runFiling {α : Type} (p : Filing α) (d : Disk) : Except FileFault α × Disk :=
  run p.run d

/-- All paths below the current folder, in the order of their texts; folders end in a slash. -/
def tree (d : Disk) : List String :=
  (d.nodes.filterMap fun (place, node) =>
    let path := "/".intercalate (place.drop d.current.length)
    if d.current.isPrefixOf place && place != d.current then
      some (match node with | .file _ => path | .folder => path ++ "/")
    else none).mergeSort fun a b => decide (a ≤ b)

end Disk

end SchemaLedger
