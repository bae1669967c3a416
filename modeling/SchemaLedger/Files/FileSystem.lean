import SchemaLedger.Failure
import SchemaLedger.Files.Path
import SchemaLedger.Program

/-!
The calls to a file system that the registry makes.

* Every call may fail on its own. A program over `FileSystem` therefore says what has been
  done, and what has not, whenever one of its calls fails.
* `makeFolders` is not a call but a program: it makes the folders of a path one by one.
-/

namespace SchemaLedger

/-- What stands in a folder. -/
inductive EntryKind where
  | file
  | folder
  deriving DecidableEq, Repr

/-- A call to a file system. -/
inductive FileCall where
  /-- Is there a file or folder? -/
  | isPresent (path : Path)
  | isFile (path : Path)
  | isFolder (path : Path)
  /-- The names in a folder, and what they stand for. -/
  | list (path : Path)
  | read (path : Path)
  | makeFolder (path : Path)
  /-- Replaces the content of a file, which is made if it is not there. -/
  | write (path : Path) (content : ByteArray)
  /-- Gives a file another name. A file that has that name already is replaced. -/
  | rename (source target : Path)
  | removeFile (path : Path)
  /-- Removes an empty folder. -/
  | removeFolder (path : Path)

/-- What a call answers. -/
def FileCall.Answer : FileCall → Type
  | .isPresent _ => Bool
  | .isFile _ => Bool
  | .isFolder _ => Bool
  | .list _ => Except FileFault (List (String × EntryKind))
  | .read _ => Except FileFault ByteArray
  | .makeFolder _ => Except FileFault Unit
  | .write _ _ => Except FileFault Unit
  | .rename _ _ => Except FileFault Unit
  | .removeFile _ => Except FileFault Unit
  | .removeFolder _ => Except FileFault Unit

/-- A file system. -/
abbrev FileSystem : Interface := ⟨FileCall, FileCall.Answer⟩

/-- A program that calls a file system and may fail. -/
abbrev Filing (α : Type) : Type :=
  ExceptT FileFault (Program FileSystem) α

namespace Filing

/-- There is a file or folder. -/
def isPresent (path : Path) : Filing Bool :=
  ExceptT.lift (Program.query (I := FileSystem) (.isPresent path))

/-- There is a file. -/
def isFile (path : Path) : Filing Bool :=
  ExceptT.lift (Program.query (I := FileSystem) (.isFile path))

/-- There is a folder. -/
def isFolder (path : Path) : Filing Bool :=
  ExceptT.lift (Program.query (I := FileSystem) (.isFolder path))

/-- The names in a folder. -/
def list (path : Path) : Filing (List (String × EntryKind)) :=
  ExceptT.mk (Program.query (I := FileSystem) (.list path))

/-- The content of a file. -/
def read (path : Path) : Filing ByteArray :=
  ExceptT.mk (Program.query (I := FileSystem) (.read path))

/-- The content of a file that holds text. -/
def readText (path : Path) : Filing String := do
  match String.fromUTF8? (← read path) with
  | some s => return s
  | none => throw .invalidData

/-- Replaces the content of a file. -/
def writeText (path : Path) (content : String) : Filing Unit :=
  ExceptT.mk (Program.query (I := FileSystem) (.write path content.toUTF8))

/-- Gives a file another name. -/
def rename (source target : Path) : Filing Unit :=
  ExceptT.mk (Program.query (I := FileSystem) (.rename source target))

/-- Removes a file. -/
def removeFile (path : Path) : Filing Unit :=
  ExceptT.mk (Program.query (I := FileSystem) (.removeFile path))

/-- Removes an empty folder. -/
def removeFolder (path : Path) : Filing Unit :=
  ExceptT.mk (Program.query (I := FileSystem) (.removeFolder path))

/-- Makes a folder; it is no fault if the folder is there already. -/
def makeFolder (path : Path) : Filing Unit := do
  match ← ExceptT.lift (Program.query (I := FileSystem) (.makeFolder path)) with
  | .ok () => return ()
  | .error fault => unless ← isFolder path do throw fault

/-- Makes the folder at a path whose last steps are given first, and before it those on the
way that are missing. -/
def makeFoldersUp : List String → Filing Unit
  | [] => return ()
  | step :: up => do
    let path := (step :: up).reverse
    match ← ExceptT.lift (Program.query (I := FileSystem) (.makeFolder path)) with
    | .ok () => return ()
    | .error .notFound => do
      makeFoldersUp up
      makeFolder path
    | .error fault => unless ← isFolder path do throw fault

/-- Makes a folder and those on the way to it. -/
def makeFolders (path : Path) : Filing Unit :=
  makeFoldersUp path.reverse

end Filing

end SchemaLedger
