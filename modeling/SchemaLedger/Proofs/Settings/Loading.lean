import SchemaLedger.Proofs.Files.Running
import SchemaLedger.Proofs.Settings.Layers
import SchemaLedger.Settings.Loading

/-!
Settings, saved to a file and loaded from it.

* `SettingsFile.candidates`, `SettingsFile.runs_locate`: where the file that a path means is looked
  for, and that it is found there or nowhere.
* `SettingsFile.exists_runs_optional` and others of the kind: layers leave the disk as it is.
* `Settings.runs_layers`: layers that say nothing or all settings come to that.
* `Settings.runs_load_of`, `Settings.of_runs_load`: settings are loaded if and only if the lower
  layers, the file that the caller names and the environment come to a table with settings.
* `Settings.runs_load`: a file with all settings is loaded if there are no other settings.
* `Settings.load_save`: settings that were saved are loaded again.
-/

namespace SchemaLedger

open Disk

/-- The format that has the extension of a known one is this one. -/
lemma SettingsFormats.of?_extension (formats : SettingsFormats) {f : SettingsFormat}
    (known : f ∈ formats.all) : formats.of? f.extension = some f := by
  have distinct := formats.distinct
  rw [of?]
  generalize formats.all = all at known distinct
  induction all with
  | nil => cases known
  | cons g rest ih =>
    rw [List.map_cons, List.nodup_cons] at distinct
    rcases List.mem_cons.1 known with rfl | later
    · exact List.find?_cons_of_pos (beq_self_eq_true f.extension)
    · have other : g.extension ≠ f.extension := fun same =>
        distinct.1 (same ▸ List.mem_map_of_mem later)
      rw [List.find?_cons_of_neg (by simpa using other)]
      exact ih later distinct.2

/-- A text that is TOML is read as that. -/
lemma SettingsFormat.read_toml {text : String} {told : Setting} (h : Toml.read text = some told) :
    SettingsFormat.toml.read text = .ok told := by
  simp only [SettingsFormat.toml, h]

/-- TOML has its extension for itself. -/
lemma SettingsFormats.of?_toml (formats : SettingsFormats) : formats.of? "toml" = some .toml :=
  formats.of?_extension formats.toml_mem

namespace SettingsFile

/-- Where the file that a path means is looked for, and in which formats. -/
def candidates (formats : SettingsFormats) (path : String) : List (Path × SettingsFormat) :=
  ((format? formats (Path.ofText path)).map (Path.ofText path, ·)).toList ++
    longer formats (Path.ofText path)

/-- The files from which settings are taken although nobody names them. -/
def unnamed (environment : Environment.Variables) : List String :=
  localFiles ++ (userFile? environment).toList

variable {formats : SettingsFormats} {d : Disk} {path : String} {s : Settings}

/-- A file that ends in the extension of TOML is one. -/
lemma format?_toml {steps : Path} (h : steps.name?.bind FileName.extension? = some "toml") :
    format? formats steps = some .toml := by
  rw [format?, h]
  exact formats.of?_toml

/-- Files are looked for under names, and taken for TOML if their names say so. -/
lemma exists_name_of_mem_candidates {file : Path × SettingsFormat}
    (h : file ∈ candidates formats path) :
    ∃ name, file.1.name? = some name ∧
      (FileName.extension? name = some "toml" → file.2 = .toml) := by
  rcases List.mem_append.1 h with here | longer
  · obtain ⟨f, format, rfl⟩ := Option.map_eq_some_iff.1 (Option.mem_toList.1 here)
    obtain ⟨ext, extension, known⟩ := Option.bind_eq_some_iff.1 format
    obtain ⟨name, named, extension⟩ := Option.bind_eq_some_iff.1 extension
    refine ⟨name, named, fun toml => ?_⟩
    rw [extension] at toml
    rw [Option.some.inj toml, formats.of?_toml] at known
    exact (Option.some.inj known).symm
  · rw [SettingsFile.longer] at longer
    split at longer
    · rename_i name named
      obtain ⟨f, known, rfl⟩ := List.mem_map.1 longer
      refine ⟨name ++ "." ++ f.extension,
        Path.name?_withName _ (FileName.not_mem_special name f.dotless f.named), fun toml => ?_⟩
      have found := formats.of?_extension known
      rw [FileName.eq_of_extension?_append f.dotless toml, formats.of?_toml] at found
      exact (Option.some.inj found).symm
    · cases longer

lemma runs_isFile {steps : Path} {content : ByteArray}
    (found : d.find steps = .ok (.file content)) : d.Runs (isFile steps) (.ok true) d := by
  have asked : d.Runs (isFile steps) (.ok (d.answer (.isFile steps)).1) d := rfl
  rwa [answer, found] at asked

lemma runs_isFile_false {steps : Path} (absent : ¬∃ content, d.find steps = .ok (.file content)) :
    d.Runs (isFile steps) (.ok false) d := by
  have asked : d.Runs (isFile steps) (.ok (d.answer (.isFile steps)).1) d := rfl
  rw [answer] at asked
  cases found : d.find steps with
  | error fault => rwa [found] at asked
  | ok node =>
    cases node with
    | file content => exact absurd ⟨content, found⟩ absent
    | folder => rwa [found] at asked

/-- The first file that is there is one of those that are looked for, or there is none. -/
lemma runs_first? (d : Disk) (files : List (Path × SettingsFormat)) :
    d.Runs (first? files) (.ok none) d ∨
      ∃ file ∈ files, (∃ content, d.find file.1 = .ok (.file content)) ∧
        d.Runs (first? files) (.ok (some file)) d := by
  induction files with
  | nil => exact .inl (.pure d _)
  | cons file rest ih =>
    by_cases here : ∃ content, d.find file.1 = .ok (.file content)
    · obtain ⟨content, found⟩ := here
      exact .inr ⟨file, List.mem_cons_self .., ⟨content, found⟩, (runs_isFile found).bind (.pure d _)⟩
    · rcases ih with nothing | ⟨file', later, found, runs⟩
      · exact .inl ((runs_isFile_false here).bind nothing)
      · exact .inr ⟨file', List.mem_cons_of_mem _ later, found, (runs_isFile_false here).bind runs⟩

/-- A file that is named with its extension is located at once. -/
lemma runs_locate_file {content : ByteArray} {format : SettingsFormat}
    (found : d.find (Path.ofText path) = .ok (.file content))
    (told : format? formats (Path.ofText path) = some format) :
    d.Runs (locate formats path) (.ok (Path.ofText path, format)) d := by
  refine (runs_isFile found).bind ?_
  rw [if_pos rfl, told]
  exact .pure d _

/-- The file that a path means is found at one of the candidates, or there is none. -/
lemma runs_locate (formats : SettingsFormats) (d : Disk) (path : String) :
    (∃ fault, d.Runs (locate formats path) (.error fault) d) ∨
    ∃ file ∈ candidates formats path, ∃ content, d.find file.1 = .ok (.file content) ∧
      d.Runs (locate formats path) (.ok file) d := by
  by_cases here : ∃ content, d.find (Path.ofText path) = .ok (.file content)
  · obtain ⟨content, found⟩ := here
    cases told : format? formats (Path.ofText path) with
    | some format =>
      have candidate : (Path.ofText path, format) ∈ candidates formats path := by
        simp [candidates, told]
      exact .inr ⟨_, candidate, content, found, runs_locate_file found told⟩
    | none =>
      refine .inl ⟨.unknownFormat path, (runs_isFile found).bind ?_⟩
      rw [if_pos rfl, told]
      exact (Runs.throw d _).fail
  · rcases runs_first? d (longer formats (Path.ofText path)) with
      nothing | ⟨file, candidate, ⟨content, found⟩, runs⟩
    · refine .inl ⟨.missing path, (runs_isFile_false here).bind ?_⟩
      rw [if_neg Bool.false_ne_true]
      exact nothing.bind (.throw d _)
    · refine .inr ⟨file, List.mem_append_right _ candidate, content, found,
        (runs_isFile_false here).bind ?_⟩
      rw [if_neg Bool.false_ne_true]
      exact runs.bind (.pure d _)

/-- What is read from a file that was located, or why it cannot be read. -/
lemma runs_text_of_read {file : Path × SettingsFormat} {r : Except FileFault String}
    (located : d.Runs (locate formats path) (.ok file) d)
    (read : d.Runs (Filing.readText file.1) r d) :
    d.Runs (text formats path) ((r.mapError .unreadable).map (·, file.2)) d := by
  have content : d.Runs (ExceptT.mk ((Filing.readText file.1).run.bind fun r =>
      .done (r.mapError SettingsError.unreadable))) (r.mapError .unreadable) d := by
    unfold Disk.Runs at read ⊢
    change Disk.run ((Filing.readText file.1).run.bind _) d = _
    rw [Disk.run_bind, read]
    rfl
  exact located.bind (content.map (·, file.2))

/-- The text of a file that was located. -/
lemma runs_text {file : Path × SettingsFormat} {content : String}
    (located : d.Runs (locate formats path) (.ok file) d)
    (found : d.find file.1 = .ok (.file content.toUTF8)) :
    d.Runs (text formats path) (.ok (content, file.2)) d :=
  runs_text_of_read located (runs_readText (read_of_find found))

/-- What a text says is told, or what is wrong with it. -/
lemma runs_interpret (d : Disk) (path : String) (said : String × SettingsFormat) :
    d.Runs (interpret path said) ((said.2.read said.1).mapError (.malformed · path)) d :=
  rfl

lemma runs_interpret_ok {content : String} {format : SettingsFormat} {told : Setting}
    (read : format.read content = .ok told) :
    d.Runs (interpret path (content, format)) (.ok told) d := by
  have interpreted := runs_interpret d path (content, format)
  dsimp only at interpreted
  rwa [read] at interpreted

section Untouched

variable (formats : SettingsFormats) (d : Disk) (path : String)

/-- The text of a file is read, and the disk stays as it is. -/
lemma exists_runs_text : ∃ r, d.Runs (text formats path) r d := by
  rcases runs_locate formats d path with ⟨fault, failed⟩ | ⟨file, -, -, -, located⟩
  · exact ⟨_, failed.fail⟩
  · obtain ⟨r, read⟩ : ∃ r, d.Runs (Filing.readText file.1) r d := by
      have bytes : d.Runs (Filing.read file.1) (d.read file.1) d := rfl
      cases content : d.read file.1 with
      | error fault =>
        rw [content] at bytes
        exact ⟨_, bytes.fail⟩
      | ok content' =>
        rw [content] at bytes
        cases decoded : String.fromUTF8? content' with
        | some s => exact ⟨.ok s, bytes.bind (by rw [decoded]; exact .pure d s)⟩
        | none => exact ⟨.error _, bytes.bind (by rw [decoded]; exact .throw d _)⟩
    exact ⟨_, runs_text_of_read located read⟩

lemma exists_runs_required : ∃ r, d.Runs (required formats path) r d := by
  obtain ⟨r, read⟩ := exists_runs_text formats d path
  cases r with
  | error fault => exact ⟨_, read.fail⟩
  | ok said => exact ⟨_, read.bind (runs_interpret d path said)⟩

lemma exists_runs_optional : ∃ r, d.Runs (optional formats path) r d := by
  obtain ⟨r, read⟩ := exists_runs_text formats d path
  cases r with
  | error fault => exact ⟨_, read.attempt.bind (.pure d _)⟩
  | ok said => exact ⟨_, read.attempt.bind (runs_interpret d path said)⟩

/-- There is no file of the user, or it is read like any other that may be missing. -/
lemma runs_ofUser_cases (path? : Option String) :
    d.Runs (ofUser formats path?) (.ok Setting.empty) d ∨
      ∃ path ∈ path?, ∀ r, d.Runs (optional formats path) r d → d.Runs (ofUser formats path?) r d := by
  cases path? with
  | none => exact .inl (.pure d _)
  | some path =>
    have asked : d.Runs (isPresent (Path.ofText path)) (.ok (d.find (Path.ofText path)).toBool) d :=
      rfl
    cases present : (d.find (Path.ofText path)).toBool with
    | false =>
      rw [present] at asked
      exact .inl (asked.bind (.pure d _))
    | true =>
      rw [present] at asked
      exact .inr ⟨path, rfl, fun r read => asked.bind read⟩

lemma exists_runs_ofUser (path? : Option String) : ∃ r, d.Runs (ofUser formats path?) r d := by
  rcases runs_ofUser_cases formats d path? with nothing | ⟨path, -, read⟩
  · exact ⟨_, nothing⟩
  · obtain ⟨r, reads⟩ := exists_runs_optional formats d path
    exact ⟨r, read r reads⟩

lemma exists_runs_ofCaller (path? : Option String) : ∃ r, d.Runs (ofCaller formats path?) r d := by
  cases path? with
  | none => exact ⟨_, .pure d _⟩
  | some path => exact exists_runs_required formats d path

end Untouched

/-- All that is found where a file is looked for is the file with the given settings. -/
def Holds (formats : SettingsFormats) (s : Settings) (d : Disk) (path : String) : Prop :=
  ∀ file ∈ candidates formats path, ∀ content, d.find file.1 = .ok (.file content) →
    content = s.render.toUTF8 ∧ file.2 = .toml

/-- A file with all settings that has to be there. -/
lemma runs_required (found : d.find (Path.ofText path) = .ok (.file s.render.toUTF8))
    (format : (Path.ofText path).name?.bind FileName.extension? = some "toml") :
    d.Runs (required formats path) (.ok s.setting) d := by
  have located : d.Runs (locate formats path) _ d := runs_locate_file found (format?_toml format)
  have said : d.Runs (interpret path (s.render, .toml)) (.ok s.setting) d :=
    runs_interpret_ok (SettingsFormat.read_toml s.read_render)
  exact (runs_text located found).bind said

/-- A file that may be missing, but was located. -/
lemma runs_optional_located {steps : Path} {format : SettingsFormat} {content : String}
    {told : Setting} (located : d.Runs (locate formats path) (.ok (steps, format)) d)
    (found : d.find steps = .ok (.file content.toUTF8)) (read : format.read content = .ok told) :
    d.Runs (optional formats path) (.ok told) d :=
  (runs_text located found).attempt.bind (runs_interpret_ok read)

/-- A file that is there, under the name of its format. -/
lemma runs_optional_file {content : String} {format : SettingsFormat} {told : Setting}
    (found : d.find (Path.ofText path) = .ok (.file content.toUTF8))
    (named : format? formats (Path.ofText path) = some format)
    (read : format.read content = .ok told) : d.Runs (optional formats path) (.ok told) d :=
  runs_optional_located (runs_locate_file found named) found read

/-- A file that may be missing, and was not located. -/
lemma runs_optional_unlocated {fault : SettingsError}
    (failed : d.Runs (locate formats path) (.error fault) d) :
    d.Runs (optional formats path) (.ok Setting.empty) d := by
  have unread : d.Runs (text formats path) (.error fault) d := failed.fail
  exact unread.attempt.bind (.pure d _)

/-- A layer without settings, or with all of them. -/
def IsLayer (s : Settings) (layer : Setting) : Prop :=
  layer = Setting.empty ∨ layer = s.setting

/-- A file that may be missing. -/
lemma runs_optional (holds : Holds formats s d path) :
    ∃ layer, IsLayer s layer ∧ d.Runs (optional formats path) (.ok layer) d := by
  rcases runs_locate formats d path with
    ⟨fault, failed⟩ | ⟨⟨steps, format⟩, candidate, content, found, located⟩
  · exact ⟨Setting.empty, .inl rfl, runs_optional_unlocated failed⟩
  · obtain ⟨rfl, rfl⟩ := holds _ candidate content found
    exact ⟨s.setting, .inr rfl,
      runs_optional_located located found (SettingsFormat.read_toml s.read_render)⟩

/-- A file that is not there. -/
lemma runs_optional_missing
    (absent : ∀ file ∈ candidates formats path, (d.find file.1).toBool = false) :
    d.Runs (optional formats path) (.ok Setting.empty) d := by
  rcases runs_locate formats d path with ⟨fault, failed⟩ | ⟨file, candidate, content, found, -⟩
  · exact runs_optional_unlocated failed
  · have there := absent file candidate
    rw [found] at there
    cases there

/-- The file of the user. -/
lemma runs_ofUser {path? : Option String} (holds : ∀ path ∈ path?, Holds formats s d path) :
    ∃ layer, IsLayer s layer ∧ d.Runs (ofUser formats path?) (.ok layer) d := by
  rcases runs_ofUser_cases formats d path? with nothing | ⟨path, user, read⟩
  · exact ⟨Setting.empty, .inl rfl, nothing⟩
  · obtain ⟨layer, settled, reads⟩ := runs_optional (holds path user)
    exact ⟨layer, settled, read _ reads⟩

end SettingsFile

namespace Settings

open SettingsFile

variable {d : Disk} {path : String} {s : Settings} {here : Setting}

/-- All settings over none or over the same ones. -/
lemma overlay?_of_isLayer (h : IsLayer s here) : here.overlay? s.setting = some s.setting := by
  rcases h with rfl | rfl
  · exact s.overlay?_empty
  · exact s.overlay?_self

/-- One more layer. -/
lemma runs_addLayer {layer : Loading Setting} {upper result : Setting}
    (read : d.Runs layer (.ok upper) d) (laid : here.overlay? upper = some result) :
    d.Runs (addLayer here layer) (.ok result) d := by
  refine read.bind ?_
  rw [laid]
  exact .pure d _

/-- A layer that is added has been read. -/
lemma of_runs_addLayer {layer : Loading Setting} {result : Setting} {d' : Disk}
    (added : d.Runs (addLayer here layer) (.ok result) d') :
    ∃ upper, d.Runs layer (.ok upper) d' ∧ here.overlay? upper = some result := by
  obtain ⟨upper, d₁, read, rest⟩ := added.of_bind
  cases laid : here.overlay? upper with
  | none =>
    rw [laid] at rest
    cases congrArg Prod.fst rest
  | some result' =>
    rw [laid] at rest
    cases rest
    exact ⟨upper, read, laid⟩

/-- Layers that say nothing or all settings come to that. -/
lemma runs_layers {layers : List (Loading Setting)}
    (read : ∀ layer ∈ layers, ∃ upper, IsLayer s upper ∧ d.Runs layer (.ok upper) d)
    (h : IsLayer s here) :
    ∃ result, IsLayer s result ∧ d.Runs (layers.foldlM addLayer here) (.ok result) d := by
  induction layers generalizing here with
  | nil => exact ⟨here, h, .pure d _⟩
  | cons layer layers ih =>
    obtain ⟨upper, settled, reads⟩ := read layer (List.mem_cons_self ..)
    obtain ⟨next, settled', laid⟩ :
        ∃ result, IsLayer s result ∧ here.overlay? upper = some result := by
      rcases settled with rfl | rfl
      · exact ⟨here, h, rfl⟩
      · exact ⟨s.setting, .inr rfl, overlay?_of_isLayer h⟩
    obtain ⟨result, settled'', rest⟩ :=
      ih (fun layer later => read layer (List.mem_cons_of_mem _ later)) settled'
    exact ⟨result, settled'', (runs_addLayer reads laid).bind rest⟩

/-! ### Lower layers -/

section Lower

variable {formats : SettingsFormats} {environment : Environment.Variables} {path? : Option String}

/-- The layers below the file that the caller names. -/
def lower (formats : SettingsFormats) (environment : Environment.Variables) :
    List (Loading Setting) :=
  localFiles.map (optional formats) ++ [ofUser formats (userFile? environment)]

lemma layers_eq (formats : SettingsFormats) (environment : Environment.Variables)
    (path? : Option String) :
    layers formats environment path? = lower formats environment ++
      [ofCaller formats path?, return Environment.settings environment] := by
  rw [layers, lower, List.append_assoc]
  rfl

/-- Settings are loaded if the lower layers, the file that the caller names and the environment come
to a table with settings. -/
lemma runs_load_of {low told above all : Setting}
    (lower : d.Runs ((lower formats environment).foldlM addLayer Setting.empty) (.ok low) d)
    (named : d.Runs (ofCaller formats path?) (.ok told) d) (laid : low.overlay? told = some above)
    (laid' : above.overlay? (Environment.settings environment) = some all)
    (means : all.settings? = some s) : d.Runs (load environment path? formats) (.ok s) d := by
  have layers : d.Runs ((layers formats environment path?).foldlM addLayer Setting.empty) (.ok all) d := by
    rw [layers_eq, List.foldlM_append]
    refine lower.bind ((runs_addLayer named laid).bind ?_)
    exact (runs_addLayer (.pure d _) laid').bind (.pure d _)
  refine layers.bind ?_
  rw [means]
  exact .pure d _

/-- Lower layers leave the disk as it is. -/
lemma exists_runs_lower (d : Disk) {layer : Loading Setting} (h : layer ∈ lower formats environment) :
    ∃ r, d.Runs layer r d := by
  rcases List.mem_append.1 h with h | h
  · obtain ⟨file, -, rfl⟩ := List.mem_map.1 h
    exact exists_runs_optional formats d file
  · rw [List.mem_singleton.1 h]
    exact exists_runs_ofUser formats d _

/-- Layers that leave the disk as it is come to the same on a disk where they say the same. -/
lemma runs_layers_of_same {layers : List (Loading Setting)} {d' d'' : Disk} {result : Setting}
    (untouched : ∀ layer ∈ layers, ∃ r, d.Runs layer r d)
    (same : ∀ layer ∈ layers, ∀ said, d.Runs layer (.ok said) d → d'.Runs layer (.ok said) d')
    (h : d.Runs (layers.foldlM addLayer here) (.ok result) d'') :
    d'' = d ∧ d'.Runs (layers.foldlM addLayer here) (.ok result) d' := by
  induction layers generalizing here with
  | nil =>
    cases h
    exact ⟨rfl, .pure d' _⟩
  | cons layer layers ih =>
    rw [List.foldlM_cons] at h
    obtain ⟨next, d₁, added, rest⟩ := h.of_bind
    obtain ⟨upper, read, laid⟩ := of_runs_addLayer added
    obtain ⟨r, stays⟩ := untouched layer (List.mem_cons_self ..)
    obtain rfl : d₁ = d := congrArg Prod.snd (read.symm.trans stays)
    obtain ⟨rfl, rest'⟩ := ih (fun layer later => untouched layer (List.mem_cons_of_mem _ later))
      (fun layer later => same layer (List.mem_cons_of_mem _ later)) rest
    refine ⟨rfl, ?_⟩
    rw [List.foldlM_cons]
    exact (runs_addLayer (same layer (List.mem_cons_self ..) upper read) laid).bind rest'

/-- Settings that are loaded come from the lower layers, the file that the caller names and the
environment, and the disk stays as it is. -/
lemma of_runs_load {d' : Disk} (loads : d.Runs (load environment path? formats) (.ok s) d') :
    d' = d ∧ ∃ low told above all,
      d.Runs ((lower formats environment).foldlM addLayer Setting.empty) (.ok low) d ∧
      d.Runs (ofCaller formats path?) (.ok told) d ∧ low.overlay? told = some above ∧
      above.overlay? (Environment.settings environment) = some all ∧ all.settings? = some s := by
  obtain ⟨all, d₁, layers, rest⟩ := loads.of_bind
  rw [layers_eq, List.foldlM_append] at layers
  obtain ⟨low, d₂, lower, upper⟩ := layers.of_bind
  obtain ⟨rfl, lower⟩ :=
    runs_layers_of_same (fun _ h => exists_runs_lower d h) (fun _ _ _ h => h) lower
  obtain ⟨above, d₃, added, last⟩ := upper.of_bind
  obtain ⟨told, named, laid⟩ := of_runs_addLayer added
  obtain ⟨r, stays⟩ := exists_runs_ofCaller formats d₂ path?
  obtain rfl : d₃ = d₂ := congrArg Prod.snd (named.symm.trans stays)
  obtain ⟨all', d₄, added', done⟩ := last.of_bind
  obtain ⟨said, told', laid'⟩ := of_runs_addLayer added'
  cases told'
  cases done
  cases means : all.settings? with
  | none =>
    rw [means] at rest
    cases congrArg Prod.fst rest
  | some s' =>
    rw [means] at rest
    cases rest
    exact ⟨rfl, low, told, above, all, lower, named, laid, laid', means⟩

end Lower

/-- No variable of the environment is a setting. -/
def IsUnset (environment : Environment.Variables) : Prop :=
  ∀ v ∈ environment, Environment.key? v.1 = none

lemma settings_of_isUnset {environment : Environment.Variables} (h : IsUnset environment) :
    Environment.settings environment = Setting.empty := by
  induction environment with
  | nil => rfl
  | cons v environment ih =>
    obtain ⟨name, value⟩ := v
    have first : Environment.key? name = none := h _ (List.mem_cons_self ..)
    simp only [Environment.settings, List.foldl_cons, first]
    exact ih fun v later => h v (List.mem_cons_of_mem _ later)

/-- A file with all settings is loaded if there are no other settings. -/
lemma runs_load {formats : SettingsFormats} {environment : Environment.Variables}
    (unset : IsUnset environment)
    (holds : ∀ file ∈ unnamed environment, Holds formats s d file)
    (found : d.find (Path.ofText path) = .ok (.file s.render.toUTF8))
    (format : (Path.ofText path).name?.bind FileName.extension? = some "toml") :
    d.Runs (load environment (some path) formats) (.ok s) d := by
  have before : ∀ layer ∈ lower formats environment,
      ∃ upper, IsLayer s upper ∧ d.Runs layer (.ok upper) d := by
    intro layer h
    rcases List.mem_append.1 h with h | h
    · obtain ⟨file, known, rfl⟩ := List.mem_map.1 h
      exact runs_optional (holds file (List.mem_append_left _ known))
    · rw [List.mem_singleton.1 h]
      refine runs_ofUser fun file user => holds file (List.mem_append_right _ ?_)
      exact Option.mem_toList.2 user
  obtain ⟨low, settled, reads⟩ := runs_layers before (.inl rfl)
  -- the file that was named counts more than those, and the environment adds nothing
  have nothing : s.setting.overlay? (Environment.settings environment) = some s.setting := by
    rw [settings_of_isUnset unset]
    rfl
  exact runs_load_of reads (runs_required found format) (overlay?_of_isLayer settled) nothing
    s.settings?_setting

/-- Nothing but the file at a path would be taken for a file with settings: wherever such a file is
looked for, there is none, or it is the same. -/
def IsAlone (formats : SettingsFormats) (d : Disk) (environment : Environment.Variables)
    (path : String) : Prop :=
  ∀ file ∈ unnamed environment, ∀ place ∈ candidates formats file, ∀ content,
    d.find place.1 = .ok (.file content) → d.locate place.1 = d.locate (Path.ofText path)

/-- Where files are looked for, no path starts anew from the root. -/
lemma slash_not_mem_tail_of_mem_candidates {formats : SettingsFormats} {path : String}
    {file : Path × SettingsFormat} (h : file ∈ candidates formats path) : "/" ∉ file.1.tail := by
  rcases List.mem_append.1 h with here | longer
  · obtain ⟨f, -, rfl⟩ := Option.map_eq_some_iff.1 (Option.mem_toList.1 here)
    exact Path.slash_not_mem_tail_ofText path
  · rw [SettingsFile.longer] at longer
    split at longer
    · rename_i name named
      obtain ⟨f, -, rfl⟩ := List.mem_map.1 longer
      refine Path.slash_not_mem_tail_withName (Path.slash_not_mem_tail_ofText path) fun same => ?_
      exact FileName.not_mem_special name f.dotless f.named (by simp [same])
    · cases longer

/-- The empty text names no file. -/
lemma name?_ofText_empty : (Path.ofText "").name? = none := by
  rw [Path.ofText, Path.splitOn_slash]
  rfl

/-- A file that is found where a text was written is this text, and is taken for TOML if the path says
so. -/
lemma holds_of_write {formats : SettingsFormats} {d' : Disk} {file : String}
    (written : d.write (Path.ofText path) s.render.toUTF8 = .ok d')
    (format : (Path.ofText path).name?.bind FileName.extension? = some "toml")
    (alone : ∀ place ∈ candidates formats file, ∀ content,
      d.find place.1 = .ok (.file content) → d.locate place.1 = d.locate (Path.ofText path)) :
    Holds formats s d' file := by
  intro place candidate content found
  have same := follow_eq_of_find_of_write written
    (slash_not_mem_tail_of_mem_candidates candidate) (alone place candidate) found
  have there := find_of_write written
  obtain ⟨goal, leads, text⟩ := exists_of_find there
  obtain ⟨goal', leads', text'⟩ := exists_of_find found
  obtain rfl : goal' = goal := Except.ok.inj (leads'.symm.trans (same.trans leads))
  -- both paths end in the name of the file
  obtain ⟨name, named, toml⟩ := exists_name_of_mem_candidates candidate
  obtain ⟨name', named', extension⟩ := Option.bind_eq_some_iff.1 format
  have last := getLast?_place leads text named'
  rw [getLast?_place leads' text' named] at last
  rw [text] at text'
  cases text'
  exact ⟨rfl, toml (Option.some.inj last ▸ extension)⟩

/-- **Settings that were saved are loaded again**, whatever the texts in them are. Something can be
written at the path, its extension is that of settings files, and no settings come from elsewhere. -/
theorem load_save (s : Settings) {formats : SettingsFormats} {d : Disk} {path : String}
    {environment : Environment.Variables}
    (writable : ∃ content d', d.write (Path.ofText path) content = .ok d')
    (format : (Path.ofText path).name?.bind FileName.extension? = some "toml")
    (alone : IsAlone formats d environment path) (unset : IsUnset environment) :
    ∃ d', d.Runs (s.save path) (.ok ()) d' ∧
      d'.Runs (load environment (some path) formats) (.ok s) d' := by
  obtain ⟨content, d'', written⟩ := writable
  obtain ⟨d', written⟩ := write_other written s.render.toUTF8
  have named : path.isEmpty = false := by
    refine Bool.eq_false_iff.2 fun empty => ?_
    rw [String.isEmpty_iff.1 empty, name?_ofText_empty] at format
    cases format
  refine ⟨d', ?_, ?_⟩
  · rw [save, named]
    exact runs_writeText written
  · exact runs_load unset (fun file unnamed => holds_of_write written format (alone file unnamed))
      (find_of_write written) format

namespace Sample

/-- Settings whose texts hold quotes, backslashes, line breaks and control characters. -/
def settings : Settings where
  registry := ⟨true, false, .deferred, 65535⟩
  storage := ⟨"C:\\data \"of\" '''all'''\r\n\x07"⟩
  logging := ⟨"it's \"info\"\n"⟩

/-- Files that hold an object of JSON with texts in it. -/
def json : SettingsFormat where
  extension := "json"
  read text :=
    match Json.Codec.labels.read text with
    | .ok labels => .ok (.table (labels.entries.map fun (key, value) => (key, .text value)))
    | .error _ => .error "no object with texts"
  named := by decide
  dotless := by decide

/-- Files may hold JSON besides TOML. -/
def formats : SettingsFormats where
  all := [json, .toml]
  distinct := by decide

/-- A folder with settings in it, but none that are taken without being named. -/
def disk : Disk where
  nodes := [(["work"], .folder), (["work", "config"], .folder),
    (["work", "config", "other.toml"], .file "[storage]\npath = 'elsewhere'\n".toUTF8)]
  current := ["work"]

def target : String := "config/saved.toml"

def environment : Environment.Variables :=
  [("HOME", "/home/user"), ("SCHEMA_REGISTRY", "elsewhere")]

lemma ofText_target : Path.ofText target = ["config", "saved.toml"] := by
  rw [target, Path.ofText, Path.splitOn_slash]
  decide

lemma writable : ∃ content d', disk.write (Path.ofText target) content = .ok d' := by
  rw [ofText_target]
  exact ⟨ByteArray.empty, _, rfl⟩

lemma format : (Path.ofText target).name?.bind FileName.extension? = some "toml" := by
  rw [ofText_target]
  decide

/-- The places where settings are looked for. -/
def places : List Path :=
  [["schema-registry.toml"], ["schema-registry.toml.json"], ["schema-registry.toml.toml"],
    [".schema-registry.toml"], [".schema-registry.toml.json"], [".schema-registry.toml.toml"],
    ["config", "schema-registry.toml"], ["config", "schema-registry.toml.json"],
    ["config", "schema-registry.toml.toml"],
    ["/", "home", "user", ".config", "schema-registry", "schema-registry.toml"],
    ["/", "home", "user", ".config", "schema-registry", "schema-registry.toml.json"],
    ["/", "home", "user", ".config", "schema-registry", "schema-registry.toml.toml"]]

lemma mem_places {file : String} {place : Path × SettingsFormat} (known : file ∈ unnamed environment)
    (candidate : place ∈ candidates formats file) : place.1 ∈ places := by
  have files : unnamed environment = localFiles ++
      ["/home/user/.config/schema-registry/schema-registry.toml"] := by decide
  have all : ((unnamed environment).flatMap (candidates formats)).map Prod.fst = places := by
    simp only [files, localFiles, List.cons_append, List.nil_append, List.flatMap_cons,
      List.flatMap_nil, candidates, Path.ofText, Path.splitOn_slash]
    decide
  rw [← all]
  exact List.mem_map_of_mem (List.mem_flatMap.2 ⟨file, known, candidate⟩)

/-- No file stands where settings are looked for. -/
lemma isAlone : IsAlone formats disk environment target := by
  intro file known place candidate content found
  have here := mem_places known candidate
  generalize place.1 = steps at here found
  simp only [places, List.mem_cons, List.not_mem_nil, or_false] at here
  rcases here with rfl | rfl | rfl | rfl | rfl | rfl | rfl | rfl | rfl | rfl | rfl | rfl <;> cases found

lemma isUnset : IsUnset environment := by
  have names : ∀ v ∈ environment, Environment.key? v.1 = none := by decide +kernel
  exact names

end Sample

open Sample in
/-- Texts with quotes and control characters survive. -/
theorem load_save_sample :
    ((∃ content d', disk.write (Path.ofText target) content = .ok d') ∧
      (Path.ofText target).name?.bind FileName.extension? = some "toml" ∧
      IsAlone formats disk environment target ∧ IsUnset environment) ∧
    ∃ d', disk.Runs (settings.save target) (.ok ()) d' ∧
      d'.Runs (load environment (some target) formats) (.ok settings) d' :=
  ⟨⟨writable, format, isAlone, isUnset⟩, load_save settings writable format isAlone isUnset⟩

end Settings

end SchemaLedger
