import SchemaLedger.Proofs.Settings.Environment
import SchemaLedger.Proofs.Settings.Loading

/-!
Texts that the environment sets.

* `TextSetting`: the settings that are texts, with the variable and the place in a file for each.
* `TextSetting.settings?_put`: a table in which the text is another one means the same settings but
  for the text.
* `TextSetting.runs_load_variable`, `TextSetting.runs_load_quoted`: the text comes from a variable of
  the environment, or from quotes in the file that the caller names.
* `TextSetting.read_fileText`: what such a file looks like.
* `Settings.load_variable`: both come to the same. The text is the usual text of the value of the
  variable, and all other settings stay as they are.
-/

namespace SchemaLedger

open Disk SettingsFile

/-- A setting that is a text. -/
inductive TextSetting where
  | storagePath
  | loggingFilter
  deriving DecidableEq, Repr

namespace TextSetting

/-- The table of a settings file in which it stands. -/
def group : TextSetting → String
  | .storagePath => "storage"
  | .loggingFilter => "logging"

/-- Its key in the table. -/
def key : TextSetting → String
  | .storagePath => "path"
  | .loggingFilter => "filter"

/-- The variable of the environment that sets it. -/
def variableName : TextSetting → String
  | .storagePath => "SCHEMA_REGISTRY__STORAGE__PATH"
  | .loggingFilter => "SCHEMA_REGISTRY__LOGGING__FILTER"

/-- The settings with another text. -/
def put : TextSetting → Settings → String → Settings
  | .storagePath, s, text => { s with storage := ⟨text⟩ }
  | .loggingFilter, s, text => { s with logging := ⟨text⟩ }

/-- The address that the variable stands for. -/
def address (t : TextSetting) : String :=
  t.group ++ "." ++ t.key

/-- A variable of the environment that leads into the table of the setting. -/
def IsSetBy (t : TextSetting) (name : String) : Prop :=
  ∃ key, Environment.key? name = some key ∧ Address.outermost? key = some t.group

/-- A settings file that sets the text by a quoted string, and says nothing else in the table. -/
def quotedIn (t : TextSetting) (text : String) (told : Setting) : Setting :=
  .table ((told.entries.filter fun e => Address.outermost? e.1 != some t.group) ++
    [(t.group, .table [(t.key, .text text)])])

/-- The text of a settings file that says nothing else. -/
def fileText (t : TextSetting) (text : String) : String :=
  String.ofList ('[' :: t.group.toList ++ [']', '\n'] ++ settingLine t.key (Toml.quote text))

/-! ### Names -/

variable (t : TextSetting)

lemma foldKey_group : foldKey t.group = t.group := by
  cases t <;> exact Settings.foldKey_of_mem_keys (by decide)

lemma foldKey_key : foldKey t.key = t.key := by
  cases t <;> exact Settings.foldKey_of_mem_keys (by decide)

lemma ofText_group : Address.ofText t.group = [.key t.group] := by
  cases t <;> decide

lemma ofText_address : Address.ofText t.address = [.key t.group, .key t.key] := by
  cases t <;> decide

lemma outermost?_address : Address.outermost? t.address = some t.group := by
  rw [Address.outermost?, ofText_address]
  exact congrArg some t.foldKey_group

/-- The name of the variable without its case. -/
lemma foldKey_variableName : foldKey t.variableName =
    Environment.namePrefix ++ t.group ++ Environment.separator ++ t.key := by
  rw [← String.toList_inj, foldKey, String.toList_map]
  cases t <;> decide

/-- Two underscores stand between the keys of the address. -/
lemma splitOn_separator : (t.group ++ Environment.separator ++ t.key).splitOn
    Environment.separator = [t.group, t.key] := by
  cases t <;>
  · rw [String.splitOn, if_neg (by decide)]
    simp +decide [String.splitOnAux, group, key, Environment.separator]

/-- The variable stands for the address. -/
lemma key?_variableName : Environment.key? t.variableName = some t.address := by
  have starts : Environment.namePrefix.isPrefixOf (foldKey t.variableName) = true := by
    rw [foldKey_variableName]
    cases t <;> decide +kernel
  have rest : String.ofList ((foldKey t.variableName).toList.drop Environment.namePrefix.length) =
      t.group ++ Environment.separator ++ t.key := by
    rw [foldKey_variableName]
    cases t <;> decide
  rw [Environment.key?, if_pos starts, rest, splitOn_separator]
  cases t <;> rfl

/-! ### What a table means -/

variable {t} {s s' value : Setting} {base : Settings} {text : String}

/-- The three tables of a settings file mean the three groups of settings. -/
lemma settings?_eq_some_iff (table : ∃ entries, s = .table entries) :
    s.settings? = some base ↔
      Setting.read? Setting.registrySettings? {} (s.lookup? "registry") = some base.registry ∧
      Setting.read? Setting.storageSettings? {} (s.lookup? "storage") = some base.storage ∧
      Setting.read? Setting.loggingSettings? {} (s.lookup? "logging") = some base.logging := by
  obtain ⟨entries, rfl⟩ := table
  unfold Setting.settings?
  constructor
  · intro means
    obtain ⟨_, ⟨⟩, means⟩ := Option.bind_eq_some_iff.1 means
    obtain ⟨registry, registry', means⟩ := Option.bind_eq_some_iff.1 means
    obtain ⟨storage, storage', means⟩ := Option.bind_eq_some_iff.1 means
    obtain ⟨logging, logging', means⟩ := Option.bind_eq_some_iff.1 means
    cases means
    exact ⟨registry', storage', logging'⟩
  · rintro ⟨registry, storage, logging⟩
    refine Option.bind_eq_some_iff.2 ⟨_, rfl, ?_⟩
    refine Option.bind_eq_some_iff.2 ⟨_, registry, ?_⟩
    refine Option.bind_eq_some_iff.2 ⟨_, storage, ?_⟩
    exact Option.bind_eq_some_iff.2 ⟨_, logging, rfl⟩

/-- **A table in which the text is another one means the same settings but for the text.** -/
lemma settings?_put (agrees : Setting.AgreesBeside t.group s s')
    (holds : Setting.Holds t.group t.key value s') (reads : value.text? = some text)
    (means : s.settings? = some base) : s'.settings? = some (t.put base text) := by
  obtain ⟨registry, storage, logging⟩ := (settings?_eq_some_iff agrees.left).1 means
  obtain ⟨inner, there, first⟩ := holds
  refine (settings?_eq_some_iff agrees.right).2 ?_
  rw [agrees.others _ (by cases t <;> decide)] at registry
  cases t with
  | storagePath =>
    rw [agrees.others _ (by decide)] at logging
    refine ⟨registry, ?_, logging⟩
    have here : s'.lookup? "storage" = some (.table inner) := there
    have path : inner.lookup "path" = some value := first
    rw [here, Setting.read?, Setting.storageSettings?, Setting.fields?]
    simp [path, Setting.read?, reads, put]
  | loggingFilter =>
    rw [agrees.others _ (by decide)] at storage
    refine ⟨registry, storage, ?_⟩
    have here : s'.lookup? "logging" = some (.table inner) := there
    have filter : inner.lookup "filter" = some value := first
    rw [here, Setting.read?, Setting.loggingSettings?, Setting.fields?]
    simp [filter, Setting.read?, reads, put]

/-! ### Loading -/

section Loading

variable {formats : SettingsFormats} {before after environment : Environment.Variables}
  {path? : Option String} {d d' : Disk}

/-- What layers come to is a table. -/
lemma isTable_of_runs {layers : List (SchemaLedger.Loading Setting)} {here result : Setting}
    (table : ∃ entries, here = .table entries)
    (h : d.Runs (layers.foldlM Settings.addLayer here) (.ok result) d') :
    ∃ entries, result = .table entries := by
  induction layers generalizing here d with
  | nil =>
    cases h
    exact table
  | cons layer layers ih =>
    rw [List.foldlM_cons] at h
    obtain ⟨next, d₁, added, rest⟩ := h.of_bind
    obtain ⟨upper, -, laid⟩ := Settings.of_runs_addLayer added
    exact ih (Setting.isTable_overlay? table laid) rest

/-- The file of the user does not depend on the variable. -/
lemma userFile?_variable (t : TextSetting) (value : String) :
    userFile? (before ++ (t.variableName, value) :: after) = userFile? (before ++ after) := by
  have other (name : String) (h : name ≠ t.variableName) :
      Environment.value? (before ++ (t.variableName, value) :: after) name =
        Environment.value? (before ++ after) name := by
    rw [Environment.value?, Environment.value?, List.lookup_append, List.lookup_append,
      lookup_cons_ite, if_neg h]
  rw [userFile?, userFile?, other "HOME" (by cases t <;> decide),
    other "XDG_CONFIG_HOME" (by cases t <;> decide)]

/-- No entry of the layer leads into the table unless a variable does. -/
lemma outermost?_ne_of_mem_settings (others : ∀ v ∈ environment, ¬t.IsSetBy v.1)
    {e : String × Setting} (h : e ∈ (Environment.settings environment).entries) :
    Address.outermost? e.1 ≠ some t.group := by
  rcases Environment.exists_variable_of_mem h with nothing | ⟨v, there, named⟩
  · cases nothing
  · exact fun leads => others v there ⟨e.1, named, leads⟩

/-- **A variable of the environment sets the text** to the usual text of its value. -/
lemma runs_load_variable (value : String) (others : ∀ v ∈ before ++ after, ¬t.IsSetBy v.1)
    (loads : d.Runs (Settings.load (before ++ after) path? formats) (.ok base) d') :
    d.Runs (Settings.load (before ++ (t.variableName, value) :: after) path? formats)
      (.ok (t.put base (Environment.usualText value))) d := by
  obtain ⟨-, low, told, above, all, lower, named, laid, laid', means⟩ := Settings.of_runs_load loads
  have table : ∃ entries, above = .table entries :=
    Setting.isTable_overlay? (isTable_of_runs ⟨[], rfl⟩ lower) laid
  have free : ∀ v ∈ before ++ after, Environment.key? v.1 ≠ some t.address :=
    fun v there named => others v there ⟨_, named, t.outermost?_address⟩
  have puts : Setting.Puts t.group t.key (Environment.setting value)
      (t.address, Environment.setting value) :=
    Setting.puts_address t.ofText_address t.foldKey_group t.foldKey_key
      (Environment.setting_ne_table value)
  -- the layer of the environment has one more entry than without the variable
  obtain ⟨all', laid'', agrees, holds⟩ := (Setting.AgreesBeside.refl table).inserted
    (Environment.inserted_settings t.key?_variableName free value) puts
    (fun _ => outermost?_ne_of_mem_settings others) laid'
  have same : Settings.lower formats (before ++ (t.variableName, value) :: after) =
      Settings.lower formats (before ++ after) := by
    rw [Settings.lower, userFile?_variable, Settings.lower]
  refine Settings.runs_load_of (same ▸ lower) named laid laid'' ?_
  exact settings?_put agrees holds (Environment.text?_setting value) means

/-- **A quoted string in the file that the caller names sets the text** to the string. The file may
stand on another disk, if all that counts less says the same there. -/
lemma runs_load_quoted (text : String) (others : ∀ v ∈ environment, ¬t.IsSetBy v.1)
    {d'' : Disk} (loads : d.Runs (Settings.load environment path? formats) (.ok base) d'')
    {told : Setting} (named : d.Runs (ofCaller formats path?) (.ok told) d)
    (same : ∀ layer ∈ Settings.lower formats environment, ∀ said, d.Runs layer (.ok said) d →
      d'.Runs layer (.ok said) d')
    {file : String} (quoted : d'.Runs (required formats file) (.ok (t.quotedIn text told)) d') :
    d'.Runs (Settings.load environment (some file) formats) (.ok (t.put base text)) d' := by
  obtain ⟨-, low, told', above, all, lower, named', laid, laid', means⟩ :=
    Settings.of_runs_load loads
  obtain rfl := named'.ok_inj named
  obtain ⟨-, lower'⟩ :=
    Settings.runs_layers_of_same (fun _ h => Settings.exists_runs_lower d h) same lower
  have table : ∃ entries, low = .table entries := isTable_of_runs ⟨[], rfl⟩ lower
  have puts : Setting.Puts t.group t.key (.text text) (t.group, .table [(t.key, .text text)]) :=
    Setting.puts_table t.ofText_group t.foldKey_group t.foldKey_key nofun
  -- what the file says besides is entered first, then the table
  obtain ⟨other, filtered, agrees, -⟩ := (Setting.AgreesBeside.refl table).filter laid
  obtain ⟨inner, entered, there⟩ := puts other
  have laid'' : low.overlay? (t.quotedIn text told') = some (other.store t.group (.table inner)) := by
    rw [Setting.overlay?_eq, quotedIn, Setting.entries, List.foldlM_append, filtered]
    exact Option.bind_eq_some_iff.2 ⟨other, rfl, Option.bind_eq_some_iff.2 ⟨_, entered, rfl⟩⟩
  -- the environment does not change it
  obtain ⟨all', above', agrees', kept⟩ := (agrees.store_right (.table inner)).overlay
    (fun _ => outermost?_ne_of_mem_settings others) laid'
  rw [Setting.lookup?_store, if_pos rfl] at kept
  refine Settings.runs_load_of lower' quoted laid'' above' ?_
  exact settings?_put agrees' ⟨inner, kept, there⟩ rfl means

end Loading

/-! ### Files -/

/-- **The text of a settings file is read as the string that it quotes.** -/
lemma read_fileText (t : TextSetting) (text : String) :
    Toml.read (t.fileText text) = some (t.quotedIn text Setting.empty) := by
  obtain ⟨fuel, enough⟩ : ∃ fuel, (t.fileText text).toList.length + 1 = fuel + 3 := by
    refine ⟨(t.fileText text).toList.length - 2, ?_⟩
    have long : 2 ≤ (t.fileText text).toList.length := by
      rw [fileText, String.toList_ofList, List.length_append, List.length_append]
      exact (Nat.le_add_left ..).trans (Nat.le_add_right ..)
    omega
  have lines : Toml.lines? (fuel + 3) {} (t.fileText text).toList =
      some ⟨[(t.group, .table .header [(t.key, .closed (.text text))])], [t.group]⟩ := by
    have group : Toml.IsName t.group.toList := by cases t <;> decide
    have key : Toml.IsName t.key.toList := by cases t <;> decide
    have opens : Toml.Entries.openTable? [] [] (String.ofList t.group.toList) =
        some [(t.group, .table .header [])] := by cases t <;> rfl
    have defines : Toml.Entries.define? [(t.group, .table .header [])] [t.group] [] t.key
        (.text text) = some [(t.group, .table .header [(t.key, .closed (.text text))])] := by
      cases t <;> rfl
    have named : String.ofList t.group.toList = t.group := String.ofList_toList
    rw [fileText, String.toList_ofList, ← List.append_nil (settingLine _ _),
      Toml.lines?_header group opens, named,
      lines?_settingLine key (Toml.isValue_quote text) defines]
    rfl
  rw [← enough] at lines
  have mark : (t.fileText text).toList.head? = some '[' := by
    rw [fileText, String.toList_ofList]
    rfl
  cases t <;> exact Toml.read_of_lines? (by rw [mark]; decide) lines rfl rfl

end TextSetting

namespace Settings

/-- **A text that the environment sets.** Settings are loaded from files, in whatever formats these
may be, and from variables none of which leads into the table of the text. Then one more variable
sets the text to the usual text of its value, whatever the value is, and all other settings stay as
they are. A file that quotes this text in place of the one that the caller names has the same effect,
and can be written. The text is the value itself if this is in its usual form. -/
theorem load_variable (t : TextSetting) {formats : SettingsFormats}
    {before after : Environment.Variables} {path? : Option String} {d d' : Disk} {base : Settings}
    (value : String) (others : ∀ v ∈ before ++ after, ¬t.IsSetBy v.1)
    (loads : d.Runs (load (before ++ after) path? formats) (.ok base) d') :
    d.Runs (load (before ++ (t.variableName, value) :: after) path? formats)
        (.ok (t.put base (Environment.usualText value))) d ∧
      (∀ told, d.Runs (ofCaller formats path?) (.ok told) d → ∀ (d'' : Disk) (file : String),
        (∀ layer ∈ lower formats (before ++ after), ∀ said, d.Runs layer (.ok said) d →
          d''.Runs layer (.ok said) d'') →
        d''.Runs (required formats file)
          (.ok (t.quotedIn (Environment.usualText value) told)) d'' →
        d''.Runs (load (before ++ after) (some file) formats)
          (.ok (t.put base (Environment.usualText value))) d'') ∧
      Toml.read (t.fileText (Environment.usualText value)) =
        some (t.quotedIn (Environment.usualText value) Setting.empty) ∧
      (Environment.IsUsual value → Environment.usualText value = value) := by
  refine ⟨t.runs_load_variable value others loads, fun told named d'' file same quoted => ?_,
    t.read_fileText _, fun h => h.usualText⟩
  exact t.runs_load_quoted _ others loads named same quoted

namespace Sample

/-- The text of a file of JSON. -/
def jsonText : String := "\x7b\"logging.filter\": \"debug\"\x7d"

/-- The folder with a file of JSON that is taken without being named. -/
def mixed : Disk where
  nodes := disk.nodes ++ [(["work", ".schema-registry.toml.json"], .file jsonText.toUTF8)]
  current := ["work"]

/-- What the file says. -/
def told : Setting := .table [("logging.filter", .text "debug")]

/-- The settings that follow from it. -/
def verbose : Settings where
  logging := ⟨"debug"⟩

lemma read_jsonText : json.read jsonText = .ok told := by
  rfl

/-- The file is found where TOML is looked for. -/
lemma runs_locate_json :
    mixed.Runs (locate formats ".schema-registry.toml")
      (.ok ([".schema-registry.toml.json"], json)) mixed := by
  have steps : Path.ofText ".schema-registry.toml" = [".schema-registry.toml"] := by
    rw [Path.ofText, Path.splitOn_slash]
    decide
  have absent : mixed.Runs (isFile [".schema-registry.toml"]) (.ok false) mixed := rfl
  have found : mixed.find [".schema-registry.toml.json"] = .ok (.file jsonText.toUTF8) := rfl
  rw [SettingsFile.locate, steps]
  refine absent.bind ?_
  rw [if_neg Bool.false_ne_true]
  exact Runs.bind ((runs_isFile found).bind (.pure mixed _)) (.pure mixed _)

lemma runs_optional_json :
    mixed.Runs (optional formats ".schema-registry.toml") (.ok told) mixed :=
  runs_optional_located runs_locate_json rfl read_jsonText

/-- What the file says is all that the lower layers come to. -/
lemma runs_lower : mixed.Runs ((lower formats environment).foldlM addLayer Setting.empty)
    (.ok (.table [("logging", .table [("filter", .text "debug")])])) mixed := by
  have missing : ∀ file ∈ ["schema-registry.toml", "config/schema-registry.toml",
        "/home/user/.config/schema-registry/schema-registry.toml"],
      mixed.Runs (optional formats file) (.ok Setting.empty) mixed := by
    intro file known
    refine runs_optional_missing ?_
    simp only [List.mem_cons, List.not_mem_nil, or_false] at known
    rcases known with rfl | rfl | rfl
    all_goals
      simp only [candidates, Path.ofText, Path.splitOn_slash]
      decide
  have user : mixed.Runs (ofUser formats (userFile? environment)) (.ok Setting.empty) mixed := by
    rcases runs_ofUser_cases formats mixed (userFile? environment) with nothing | ⟨path, user, read⟩
    · exact nothing
    · obtain rfl : path = "/home/user/.config/schema-registry/schema-registry.toml" := by
        have here : userFile? environment =
          some "/home/user/.config/schema-registry/schema-registry.toml" := by decide
        exact Option.some.inj (user.symm.trans here)
      exact read _ (missing _ (by simp))
  have laid : Setting.empty.overlay? told =
      some (.table [("logging", .table [("filter", .text "debug")])]) := by
    have address : Address.ofText "logging.filter" = [.key "logging", .key "filter"] := by decide
    have logging : foldKey "logging" = "logging" := foldKey_of_mem_keys (by decide)
    have filter : foldKey "filter" = "filter" := foldKey_of_mem_keys (by decide)
    simp only [Setting.overlay?, told, Setting.entries, List.foldlM_cons, List.foldlM_nil, address,
      Setting.place?, Setting.assign, logging, filter]
    rfl
  refine (runs_addLayer (missing _ (by simp)) rfl).bind ?_
  refine (runs_addLayer runs_optional_json laid).bind ?_
  refine (runs_addLayer (missing _ (by simp)) rfl).bind ?_
  exact (runs_addLayer user rfl).bind (.pure mixed _)

lemma loads_mixed : mixed.Runs (load environment none formats) (.ok verbose) mixed := by
  have means : (Setting.table [("logging", .table [("filter", .text "debug")])]).settings? =
      some verbose := rfl
  refine runs_load_of runs_lower (.pure mixed _) rfl ?_ means
  rw [settings_of_isUnset isUnset]
  rfl

lemma not_isSetBy (t : TextSetting) : ∀ v ∈ [] ++ environment, ¬t.IsSetBy v.1 := by
  rintro v there ⟨key, named, -⟩
  rw [isUnset v there] at named
  cases named

/-- A number that is written with zeros in front. -/
lemma usualText_padded : Environment.usualText "007" = "7" := by
  have lower : "007".map Char.toLower = "007" := by
    rw [← String.toList_inj, String.toList_map]
    decide
  have number : Environment.integer? "007" = some 7 := by decide
  rw [Environment.usualText, lower]
  simp only [number]
  decide

end Sample

open Sample in
/-- A value that looks like a number becomes a number on the way. A file of JSON counts less. -/
theorem load_variable_number :
    ((∀ v ∈ [] ++ environment, ¬TextSetting.storagePath.IsSetBy v.1) ∧
      mixed.Runs (load environment none formats) (.ok verbose) mixed) ∧
    mixed.Runs (load (("SCHEMA_REGISTRY__STORAGE__PATH", "007") :: environment) none formats)
      (.ok { verbose with storage := ⟨"7"⟩ }) mixed := by
  refine ⟨⟨not_isSetBy _, loads_mixed⟩, ?_⟩
  have sets := (load_variable .storagePath "007" (not_isSetBy .storagePath) loads_mixed).1
  rwa [usualText_padded] at sets

open Sample in
/-- The path is not taken verbatim then. -/
theorem load_variable_not_verbatim :
    mixed.Runs (load environment none formats) (.ok verbose) mixed ∧
      ¬∃ s d', mixed.Runs
        (load (("SCHEMA_REGISTRY__STORAGE__PATH", "007") :: environment) none formats) (.ok s) d' ∧
        s.storage.path = "007" := by
  refine ⟨loads_mixed, ?_⟩
  rintro ⟨s, d', sets, verbatim⟩
  have number := TextSetting.runs_load_variable "007" (not_isSetBy .storagePath) loads_mixed
  rw [usualText_padded] at number
  rw [sets.ok_inj number] at verbatim
  exact absurd verbatim (by decide)

end Settings

end SchemaLedger
