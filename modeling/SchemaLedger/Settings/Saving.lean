import SchemaLedger.Files.FileSystem
import SchemaLedger.Settings.Basic
import SchemaLedger.Toml.Quoted

/-!
Writing settings to a file.

`Settings.render` is the text of a settings file with every setting in it, one section for each
group. `Settings.save` writes it.
-/

namespace SchemaLedger

/-- The text of a flag. -/
def flagText (b : Bool) : List Char :=
  (if b then "true" else "false").toList

/-- A line with a key and the text of its value. -/
def settingLine (key : String) (value : List Char) : List Char :=
  key.toList ++ [' ', '=', ' '] ++ value ++ ['\n']

/-- The lines of the first section. -/
def RegistrySettings.lines (s : RegistrySettings) : List Char :=
  "[registry]\n".toList ++
    settingLine "upload_enabled" (flagText s.uploadEnabled) ++
    settingLine "cache_enabled" (flagText s.cacheEnabled) ++
    settingLine "dependency_mode" (Toml.quote s.compileMode.label) ++
    settingLine "node_id" (Text.digits s.nodeId.toNat)

/-- The lines of the second section. -/
def StorageSettings.lines (s : StorageSettings) : List Char :=
  "[storage]\n".toList ++ settingLine "path" (Toml.quote s.path)

/-- The lines of the third section. -/
def LoggingSettings.lines (s : LoggingSettings) : List Char :=
  "[logging]\n".toList ++ settingLine "filter" (Toml.quote s.filter)

namespace Settings

/-- The text of a settings file. -/
def render (s : Settings) : String :=
  String.ofList (s.registry.lines ++ '\n' :: s.storage.lines ++ '\n' :: s.logging.lines)

/-- Writes a settings file. An empty path names nothing. -/
def save (s : Settings) (path : String) : Filing Unit := do
  if path.isEmpty then throw .notFound
  Filing.writeText (Path.ofText path) s.render

end Settings

end SchemaLedger
