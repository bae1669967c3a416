import SchemaLedger.Files.FileSystem
import SchemaLedger.Settings.Environment
import SchemaLedger.Toml.Reader

/-!
Loading settings.

Settings come from three files in the current folder, a file of the user, a file that the
caller names, and the environment; later ones count more. All but the file that the caller
names may be missing.

* `SettingsFormats` are the formats of settings files, told apart by the extension. TOML is one of
  them; the others are given with what reads them.
* `SettingsFile.locate` finds the file that a path means; the extension may be left out.
* `Settings.load` reads the layers one after the other and interprets what they add up to.
-/

namespace SchemaLedger

/-- Why settings cannot be loaded. -/
inductive SettingsError where
  /-- There is no such file. -/
  | missing (path : String)
  /-- The extension of the file tells no format. -/
  | unknownFormat (path : String)
  | unreadable (fault : FileFault)
  /-- The file breaks the rules of its format. -/
  | malformed (offence path : String)
  /-- A setting has a value that it cannot have. -/
  | mistyped
  /-- An index counts back beyond the start of a list. -/
  | outOfRange
  deriving DecidableEq, Repr

/-- The wording of a failure. -/
def SettingsError.message : SettingsError → String
  | .missing path => "configuration file \"" ++ path ++ "\" not found"
  | .unknownFormat path =>
    "configuration file \"" ++ path ++ "\" is not of a registered file format"
  | .unreadable fault => fault.message
  | .malformed offence path => offence ++ " in " ++ path
  | .mistyped => "a setting has a value of the wrong type"
  | .outOfRange => "an index is out of range"

/-- A program that loads settings. -/
abbrev Loading (α : Type) : Type :=
  ExceptT SettingsError (Program FileSystem) α

/-- A format of settings files. -/
structure SettingsFormat where
  /-- The extension of its files. -/
  extension : String
  /-- What a text says, or what is wrong with it. -/
  read : String → Except String Setting
  named : extension ≠ ""
  dotless : '.' ∉ extension.toList

/-- The format in which settings are saved. -/
def SettingsFormat.toml : SettingsFormat where
  extension := "toml"
  read text :=
    match Toml.read text with
    | some s => .ok s
    | none => .error "TOML parse error"
  named := by decide
  dotless := by decide

/-- The formats that settings files may have, in the order in which they are looked for. -/
structure SettingsFormats where
  all : List SettingsFormat := [.toml]
  toml_mem : .toml ∈ all := by simp
  distinct : (all.map (·.extension)).Nodup := by simp

/-- The format with the given extension. -/
def SettingsFormats.of? (formats : SettingsFormats) (extension : String) : Option SettingsFormat :=
  formats.all.find? fun f => f.extension == extension

namespace SettingsFile

variable (formats : SettingsFormats)

/-- Asks whether there is a file. -/
def isFile (path : Path) : Loading Bool :=
  ExceptT.lift (Program.query (I := FileSystem) (.isFile path))

/-- Asks whether there is a file or folder. -/
def isPresent (path : Path) : Loading Bool :=
  ExceptT.lift (Program.query (I := FileSystem) (.isPresent path))

/-- The format that a path tells by its extension. -/
def format? (path : Path) : Option SettingsFormat :=
  (path.name?.bind FileName.extension?).bind formats.of?

/-- The paths with one more extension behind the name at the end, for each format. -/
def longer (path : Path) : List (Path × SettingsFormat) :=
  match path.name? with
  | some name => formats.all.map fun f => (path.withName (name ++ "." ++ f.extension), f)
  | none => []

/-- The first of some files that is there. -/
def first? : List (Path × SettingsFormat) → Loading (Option (Path × SettingsFormat))
  | [] => return none
  | file :: rest => do if ← isFile file.1 then return some file else first? rest

/-- The file that a path means, and its format. -/
def locate (path : String) : Loading (Path × SettingsFormat) := do
  let steps := Path.ofText path
  if ← isFile steps then
    match format? formats steps with
    | some format => return (steps, format)
    | none => throw (.unknownFormat path)
  match ← first? (longer formats steps) with
  | some file => return file
  | none => throw (.missing path)

/-- The text of the file that a path means, and its format. -/
def text (path : String) : Loading (String × SettingsFormat) := do
  let file ← locate formats path
  let content ← ExceptT.mk ((Filing.readText file.1).run.bind fun r =>
    .done (r.mapError .unreadable))
  return (content, file.2)

/-- The settings that a text in some format says. -/
def interpret (path : String) (said : String × SettingsFormat) : Loading Setting :=
  ExceptT.mk (.done ((said.2.read said.1).mapError (.malformed · path)))

/-- The settings in a file. -/
def required (path : String) : Loading Setting := do
  interpret path (← text formats path)

/-- The settings in a file that may be missing. A file that is there must not be malformed. -/
def optional (path : String) : Loading Setting := do
  match ← ExceptT.lift (text formats path).run with
  | .error _ => return Setting.empty
  | .ok said => interpret path said

/-- The settings files in the current folder, those that count least first. -/
def localFiles : List String :=
  ["schema-registry.toml", ".schema-registry.toml", "config/schema-registry.toml"]

/-- The settings file of the user. A folder for settings is only taken from the environment if
its path is absolute. -/
def userFile? (environment : Environment.Variables) : Option String :=
  let home? := ((Environment.value? environment "HOME").filter (!·.isEmpty)).map (· ++ "/.config")
  let folder? := ((Environment.value? environment "XDG_CONFIG_HOME").filter
    (·.startsWith "/")).or home?
  folder?.map (· ++ "/schema-registry/schema-registry.toml")

/-- The settings in the user's file, if there is one. -/
def ofUser : Option String → Loading Setting
  | some path => do
    if ← isPresent (Path.ofText path) then optional formats path else return Setting.empty
  | none => return Setting.empty

/-- The settings in the file that the caller names, if any. -/
def ofCaller : Option String → Loading Setting
  | some path => required formats path
  | none => return Setting.empty

end SettingsFile

namespace Settings

/-- The layers, those that count least first. -/
def layers (formats : SettingsFormats) (environment : Environment.Variables)
    (path? : Option String) : List (Loading Setting) :=
  SettingsFile.localFiles.map (SettingsFile.optional formats) ++
    [SettingsFile.ofUser formats (SettingsFile.userFile? environment),
     SettingsFile.ofCaller formats path?, return Environment.settings environment]

/-- Reads one more layer and lays it over what there is. -/
def addLayer (here : Setting) (layer : Loading Setting) : Loading Setting := do
  match here.overlay? (← layer) with
  | some s => return s
  | none => throw .outOfRange

/-- The settings that count, where `path?` is a file that the caller names. -/
def load (environment : Environment.Variables) (path? : Option String)
    (formats : SettingsFormats := {}) : Loading Settings := do
  match ((← (layers formats environment path?).foldlM addLayer Setting.empty)).settings? with
  | some s => return s
  | none => throw .mistyped

end Settings

end SchemaLedger
