import SchemaLedger.Proofs.Settings.Saving
import SchemaLedger.Settings.Layers

/-!
Layers that say all there is to say.

* `Setting.IsSection`: entries of a table that can be laid over others key by key.
* `Setting.assign_new`, `Setting.assign_self`: such a table comes into its place as it is, and
  makes no difference where it is already.
* `Settings.overlay?_empty`, `Settings.overlay?_self`: so do the three tables that hold all
  settings.
-/

namespace SchemaLedger

namespace Setting

variable {entries before after : List (String × Setting)} {here value upper : Setting}
  {key : String}

/-- A value that is no table takes the place of what is there. -/
lemma assign_value (plain : ∀ inner, value ≠ .table inner) :
    here.assign key value = here.store (foldKey key) value := by
  cases value with
  | table inner => exact absurd rfl (plain inner)
  | flag | integer | real | text | moment | nothing | list => rw [assign]; exact plain

/-- A new key comes last. -/
lemma storeEntry_new (new : key ∉ entries.map Prod.fst) :
    storeEntry key value entries = entries ++ [(key, value)] := by
  induction entries with
  | nil => rfl
  | cons e entries ih =>
    obtain ⟨k, v⟩ := e
    rw [List.map_cons, List.mem_cons, not_or] at new
    rw [storeEntry, if_neg (Ne.symm new.1), ih new.2, List.cons_append]

/-- A key that has its value already keeps it. -/
lemma storeEntry_self (there : entries.lookup key = some value) :
    storeEntry key value entries = entries := by
  induction entries with
  | nil => cases there
  | cons e entries ih =>
    obtain ⟨k, v⟩ := e
    rw [List.lookup_cons] at there
    rw [storeEntry]
    split_ifs with same
    · subst same
      rw [beq_self_eq_true] at there
      rw [Option.some.inj there]
    · rw [beq_eq_false_iff_ne.2 (Ne.symm same)] at there
      rw [ih there]

/-- A table that can be laid over others key by key: all keys differ and are in lower case, and no
value is itself a table. -/
structure IsSection (s : Setting) : Prop where
  table : s = .table s.entries
  keys : (s.entries.map Prod.fst).Nodup
  lower : ∀ e ∈ s.entries, foldKey e.1 = e.1
  values : ∀ e ∈ s.entries, ∀ inner, e.2 ≠ .table inner

/-- Entries are found under their keys. -/
lemma lookup_of_nodup (keys : (entries.map Prod.fst).Nodup) (h : (key, value) ∈ entries) :
    entries.lookup key = some value := by
  obtain ⟨before, after, rfl⟩ := List.append_of_mem h
  refine List.lookup_eq_some_iff.2 ⟨before, after, rfl, fun e he => ?_⟩
  rw [List.map_append, List.nodup_append] at keys
  have apart := keys.2.2 e.1 (List.mem_map_of_mem he) key (by simp)
  exact bne_iff_ne.2 apart.symm

/-- New entries come behind those that are there. -/
lemma assignAll_append (h : IsSection (.table (before ++ after))) :
    assignAll (.table before) after = .table (before ++ after) := by
  induction after generalizing before with
  | nil => rw [assignAll, List.append_nil]
  | cons e after ih =>
    obtain ⟨k, v⟩ := e
    have here : (k, v) ∈ before ++ (k, v) :: after := by simp
    have new : k ∉ before.map Prod.fst := by
      have keys : ((before ++ (k, v) :: after).map Prod.fst).Nodup := h.keys
      rw [List.map_append, List.nodup_append] at keys
      exact fun old => keys.2.2 k old k (by simp) rfl
    have step : (Setting.table before).assign k v = .table (before ++ [(k, v)]) := by
      rw [assign_value (h.values _ here), h.lower _ here]
      exact congrArg Setting.table (storeEntry_new new)
    rw [List.append_cons] at h ⊢
    rw [assignAll, step, ih h]

/-- Entries that are there already make no difference. -/
lemma assignAll_self (h : IsSection (.table entries)) :
    assignAll (.table entries) entries = .table entries := by
  have some (part : List (String × Setting)) (sub : part ⊆ entries) :
      assignAll (.table entries) part = .table entries := by
    induction part with
    | nil => rw [assignAll]
    | cons e part ih =>
      obtain ⟨k, v⟩ := e
      have here := sub (List.mem_cons_self ..)
      have step : (Setting.table entries).assign k v = .table entries := by
        rw [assign_value (h.values _ here), h.lower _ here]
        exact congrArg Setting.table (storeEntry_self (lookup_of_nodup h.keys here))
      rw [assignAll, step, ih fun e he => sub (List.mem_cons_of_mem _ he)]
  exact some entries (List.Subset.refl _)

/-- A section comes under a new key as it is. -/
lemma assign_new (h : IsSection upper) (lower : foldKey key = key)
    (new : key ∉ entries.map Prod.fst) :
    (Setting.table entries).assign key upper = .table (entries ++ [(key, upper)]) := by
  have absent : (Setting.table entries).lookup? key = none := by
    refine List.lookup_eq_none_iff.2 fun e he => ?_
    exact bne_iff_ne.2 fun same => new (same ▸ List.mem_map_of_mem he)
  obtain ⟨inner, rfl⟩ : ∃ inner, upper = .table inner := ⟨_, h.table⟩
  have fresh : assignAll (.table []) inner = .table ([] ++ inner) := assignAll_append h
  rw [assign, lower, absent, Option.getD_none, empty, fresh]
  exact congrArg Setting.table (storeEntry_new new)

/-- A section that is there already makes no difference. -/
lemma assign_self (h : IsSection upper) (lower : foldKey key = key)
    (there : entries.lookup key = some upper) :
    (Setting.table entries).assign key upper = .table entries := by
  have found : (Setting.table entries).lookup? key = some upper := there
  obtain ⟨inner, rfl⟩ : ∃ inner, upper = .table inner := ⟨_, h.table⟩
  rw [assign, lower, found, Option.getD_some, assignAll_self h]
  exact congrArg Setting.table (storeEntry_self there)

end Setting

namespace Settings

open Setting

/-- The keys of all settings. -/
def keys : List String :=
  ["registry", "upload_enabled", "cache_enabled", "dependency_mode", "node_id", "storage", "path",
    "logging", "filter"]

/-- The keys of all settings are in lower case. -/
lemma foldKey_of_mem_keys {key : String} (h : key ∈ keys) : foldKey key = key := by
  have lower : ∀ key ∈ keys, key.toList.map Char.toLower = key.toList := by decide
  rw [← String.toList_inj, foldKey, String.toList_map]
  exact lower key h

/-- A table of values with known keys is a section. -/
lemma isSection_of_subset {entries : List (String × Setting)} (names : List String)
    (named : entries.map Prod.fst = names) (known : names ⊆ keys) (nodup : names.Nodup)
    (values : ∀ e ∈ entries, ∀ inner, e.2 ≠ .table inner) : IsSection (.table entries) where
  table := rfl
  keys := named.symm ▸ nodup
  lower _ he := foldKey_of_mem_keys (known (named ▸ List.mem_map_of_mem he))
  values := values

lemma isSection_registry (s : RegistrySettings) : IsSection s.setting :=
  isSection_of_subset ["upload_enabled", "cache_enabled", "dependency_mode", "node_id"] rfl
    (by decide) (by decide) (by simp)

lemma isSection_storage (s : StorageSettings) : IsSection s.setting :=
  isSection_of_subset ["path"] rfl (by decide) (by decide) (by simp)

lemma isSection_logging (s : LoggingSettings) : IsSection s.setting :=
  isSection_of_subset ["filter"] rfl (by decide) (by decide) (by simp)

/-- A layer with all settings is entered section by section. -/
lemma overlay?_setting (here : Setting) (s : Settings) :
    here.overlay? s.setting = some (((here.assign "registry" s.registry.setting).assign "storage"
      s.storage.setting).assign "logging" s.logging.setting) :=
  rfl

/-- All settings over none. -/
lemma overlay?_empty (s : Settings) : Setting.empty.overlay? s.setting = some s.setting := by
  rw [overlay?_setting, empty,
    assign_new (isSection_registry _) (foldKey_of_mem_keys (by decide)) (by simp),
    assign_new (isSection_storage _) (foldKey_of_mem_keys (by decide)) (by simp),
    assign_new (isSection_logging _) (foldKey_of_mem_keys (by decide)) (by simp)]
  rfl

/-- All settings over the same ones. -/
lemma overlay?_self (s : Settings) : s.setting.overlay? s.setting = some s.setting := by
  rw [overlay?_setting]
  unfold Settings.setting
  rw [assign_self (isSection_registry _) (foldKey_of_mem_keys (by decide)) rfl,
    assign_self (isSection_storage _) (foldKey_of_mem_keys (by decide)) rfl,
    assign_self (isSection_logging _) (foldKey_of_mem_keys (by decide)) rfl]

end Settings

end SchemaLedger
