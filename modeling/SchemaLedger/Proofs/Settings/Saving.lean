import SchemaLedger.Proofs.Toml.Reader
import SchemaLedger.Settings.Reading
import SchemaLedger.Settings.Saving

/-!
Settings, written to a text and read from it.

* `Settings.setting`: what a settings file says that holds all settings.
* `Settings.read_render`: the text of a settings file is read as that.
* `Settings.settings?_setting`: it means the settings that it was made from.
-/

namespace SchemaLedger

open Toml

/-- What the registry does, as a table of a settings file. -/
def RegistrySettings.setting (s : RegistrySettings) : Setting :=
  .table [("upload_enabled", .flag s.uploadEnabled), ("cache_enabled", .flag s.cacheEnabled),
    ("dependency_mode", .text s.compileMode.label), ("node_id", .integer s.nodeId.toNat)]

/-- Where the registry keeps its files, as a table of a settings file. -/
def StorageSettings.setting (s : StorageSettings) : Setting :=
  .table [("path", .text s.path)]

/-- What the registry reports, as a table of a settings file. -/
def LoggingSettings.setting (s : LoggingSettings) : Setting :=
  .table [("filter", .text s.filter)]

/-- What a settings file says that holds all settings. -/
def Settings.setting (s : Settings) : Setting :=
  .table [("registry", s.registry.setting), ("storage", s.storage.setting),
    ("logging", s.logging.setting)]

lemma isValue_flagText (b : Bool) : IsValue (flagText b) (.flag b) :=
  isValue_flag b

/-- The line of a setting adds an entry to the open table. -/
lemma lines?_settingLine {key : String} {code : List Char} {value : Setting} {draft : Draft}
    {entries : Entries} (h : IsName key.toList) (reads : IsValue code value)
    (define : draft.entries.define? draft.header [] key value = some entries) (fuel : Nat)
    (rest : List Char) :
    lines? (fuel + 1) draft (settingLine key code ++ rest) =
      lines? fuel { draft with entries } rest := by
  have key' : String.ofList key.toList = key := String.ofList_toList
  exact lines?_entry h reads (by rwa [key']) fuel rest

/-- The line of a header opens a table. -/
lemma lines?_headerLine {line : String} (key : String) {draft : Draft} {entries : Entries}
    (h : IsName key.toList) (written : line.toList = '[' :: key.toList ++ [']', '\n'])
    (opens : draft.entries.openTable? [] key = some entries) (fuel : Nat) (rest : List Char) :
    lines? (fuel + 1) draft (line.toList ++ rest) = lines? fuel ⟨entries, [key]⟩ rest := by
  have key' : String.ofList key.toList = key := String.ofList_toList
  rw [written, lines?_header h (by rwa [key']), key']

/-- The entries of a table, as they stand in a file that is being read. -/
def Setting.drafts : Setting → Entries
  | .table entries => entries.map fun (key, value) => (key, .closed value)
  | _ => []

/-- The lines of the first section open a table and fill it. -/
lemma RegistrySettings.lines?_lines (s : RegistrySettings) (fuel : Nat) (rest : List Char) :
    lines? (fuel + 5) {} (s.lines ++ rest) =
      lines? fuel ⟨[("registry", .table .header s.setting.drafts)], ["registry"]⟩ rest := by
  have small : s.nodeId.toNat < Word.limit 63 := s.nodeId.toNat_lt.trans (by decide)
  unfold lines
  simp only [List.append_assoc]
  rw [lines?_headerLine "registry" (by decide) (by decide) rfl,
    lines?_settingLine (by decide) (isValue_flagText _) rfl,
    lines?_settingLine (by decide) (isValue_flagText _) rfl,
    lines?_settingLine (by decide) (isValue_quote _) rfl,
    lines?_settingLine (by decide) (isValue_digits small) rfl]
  rfl

/-- The lines of the second section open one more table and fill it. -/
lemma StorageSettings.lines?_lines (s : StorageSettings) (registry : Tree) (header : List String)
    (fuel : Nat) (rest : List Char) :
    lines? (fuel + 2) ⟨[("registry", registry)], header⟩ (s.lines ++ rest) =
      lines? fuel ⟨[("registry", registry), ("storage", .table .header s.setting.drafts)],
        ["storage"]⟩ rest := by
  unfold lines
  simp only [List.append_assoc]
  rw [lines?_headerLine "storage" (by decide) (by decide) rfl,
    lines?_settingLine (by decide) (isValue_quote _) rfl]
  rfl

/-- The lines of the third section open one more table and fill it. -/
lemma LoggingSettings.lines?_lines (s : LoggingSettings) (registry storage : Tree)
    (header : List String) (fuel : Nat) (rest : List Char) :
    lines? (fuel + 2) ⟨[("registry", registry), ("storage", storage)], header⟩ (s.lines ++ rest) =
      lines? fuel ⟨[("registry", registry), ("storage", storage),
        ("logging", .table .header s.setting.drafts)], ["logging"]⟩ rest := by
  unfold lines
  simp only [List.append_assoc]
  rw [lines?_headerLine "logging" (by decide) (by decide) rfl,
    lines?_settingLine (by decide) (isValue_quote _) rfl]
  rfl

namespace Settings

/-- An empty line adds nothing. -/
lemma lines?_lineFeed (fuel : Nat) (draft : Draft) (rest : List Char) :
    lines? (fuel + 1) draft ('\n' :: rest) = lines? fuel draft rest :=
  rfl

/-- The lines of all sections fill three tables. -/
lemma lines?_render (s : Settings) (fuel : Nat) :
    lines? (fuel + 12) {} s.render.toList =
      some ⟨[("registry", .table .header s.registry.setting.drafts),
        ("storage", .table .header s.storage.setting.drafts),
        ("logging", .table .header s.logging.setting.drafts)], ["logging"]⟩ := by
  rw [render, String.toList_ofList, List.append_assoc, List.cons_append,
    s.registry.lines?_lines, lines?_lineFeed, s.storage.lines?_lines, lines?_lineFeed,
    ← List.append_nil s.logging.lines, s.logging.lines?_lines]
  rfl

/-- **The text of a settings file is read back**, whatever the texts in it are. -/
theorem read_render (s : Settings) : Toml.read s.render = some s.setting := by
  obtain ⟨others, starts⟩ : ∃ others, s.render.toList = "[registry]\n".toList ++ others := by
    unfold render RegistrySettings.lines
    simp only [String.toList_ofList, List.append_assoc]
    exact ⟨_, rfl⟩
  obtain ⟨fuel, enough⟩ : ∃ fuel, s.render.toList.length + 1 = fuel + 12 := by
    refine ⟨s.render.toList.length + 1 - 12, ?_⟩
    have : "[registry]\n".toList.length = 11 := by decide
    rw [starts, List.length_append]
    omega
  have lines := s.lines?_render fuel
  rw [← enough] at lines
  refine read_of_lines? ?_ lines rfl rfl
  have mark : ("[registry]\n".toList ++ others).head? = some '[' := rfl
  rw [starts, mark]
  decide

/-- A mode is found by its label. -/
lemma choice?_label (m : CompileMode) :
    Setting.choice? CompileMode.label CompileMode.all (.text m.label) = some m := by
  have apart : CompileMode.immediate.label.map Char.toLower ≠
      CompileMode.deferred.label.map Char.toLower := by
    simp [CompileMode.label, ← String.toList_inj]
  cases m <;> simp [Setting.choice?, CompileMode.all, apart]

lemma registrySettings?_setting (s : RegistrySettings) :
    Setting.registrySettings? s.setting = some s := by
  have small : s.nodeId.toNat < Word.limit 16 := s.nodeId.toNat_lt
  have number : (Setting.number? (Word.limit 16) (.integer s.nodeId.toNat)).map UInt16.ofNat =
      some s.nodeId := by
    simp [Setting.number?, small]
  unfold Setting.registrySettings?
  refine Option.bind_eq_some_iff.2 ⟨_, rfl, ?_⟩
  refine Option.bind_eq_some_iff.2 ⟨s.uploadEnabled, rfl, ?_⟩
  refine Option.bind_eq_some_iff.2 ⟨s.cacheEnabled, rfl, ?_⟩
  refine Option.bind_eq_some_iff.2 ⟨s.compileMode, choice?_label s.compileMode, ?_⟩
  exact Option.bind_eq_some_iff.2 ⟨s.nodeId, number, rfl⟩

/-- What a settings file says means the settings that it was made from. -/
theorem settings?_setting (s : Settings) : s.setting.settings? = some s := by
  unfold Setting.settings?
  refine Option.bind_eq_some_iff.2 ⟨_, rfl, ?_⟩
  refine Option.bind_eq_some_iff.2 ⟨s.registry, registrySettings?_setting s.registry, ?_⟩
  refine Option.bind_eq_some_iff.2 ⟨s.storage, rfl, ?_⟩
  exact Option.bind_eq_some_iff.2 ⟨s.logging, rfl, rfl⟩

end Settings

end SchemaLedger
