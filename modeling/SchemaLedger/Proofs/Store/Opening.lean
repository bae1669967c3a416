import SchemaLedger.Proofs.Store.File

/-!
What a store finds when it is opened.

* `FileStore.mem_folders_iff`, `FileStore.mem_files_iff`: the folders and schema files that are
  listed are those that stand there. Nothing is said about their order.
* `FileStore.runs_loadAll`: everything that a shelf binds is loaded, and nothing else.
* `FileStore.reopen`: a store opened in a folder that keeps a shelf stands for this shelf,
  whatever else was left over in the folder.
* `FileStore.represents_open`: a store opened in an empty folder stands for an empty shelf.
* `FileStore.onDisk`, `FileStore.remembered`: the schemas that the files and the cache show.
-/

namespace SchemaLedger.FileStore

open Disk Storing

variable {α β : Type} {site : Site} {s : Shelf} {d : Disk} {place : List String}

/-! ### Listing -/

/-- A program that is run for each item in turn and leaves the disk as it is. -/
lemma runs_gather {f : α → Storing (List β)} {g : α → List β} {items : List α}
    (each : ∀ a ∈ items, d.Runs (f a) (.ok (g a)) d) :
    d.Runs (gather f items) (.ok (items.flatMap g)) d := by
  induction items with
  | nil => exact .pure d []
  | cons a items ih =>
    have others := ih fun b hb => each b (List.mem_cons_of_mem _ hb)
    rw [List.flatMap_cons]
    exact (each a (List.mem_cons_self ..)).bind (others.bind (.pure d _))

/-- The entries of a folder that can be listed. -/
lemma runs_listed {path : Path} {entries : List (String × EntryKind)}
    (h : d.list path = .ok entries) : d.Runs (FileStore.listed path) (.ok entries) d := by
  have parts : Disk.run (FileStore.listed path).run d =
      Disk.run ((Filing.list path).run.bind fun r =>
        .done (r.mapError fun fault => .backend fault.message)) d := rfl
  have entries := d.runs_list path
  unfold Disk.Runs at entries ⊢
  rw [parts, Disk.run_bind, entries, h]
  rfl

/-- The folders in a folder in which no files stand. -/
lemma mem_folders_iff (only : ∀ name node, d.node? (place ++ [name]) = some node → node = .folder)
    (name : String) :
    name ∈ folders (d.children place) ↔ d.node? (place ++ [name]) = some .folder := by
  rw [folders, List.mem_map]
  constructor
  · rintro ⟨e, listed, rfl⟩
    have there := (d.mem_names_children place e.1).1
      (List.mem_map_of_mem (List.mem_of_mem_filter listed))
    obtain ⟨node, here⟩ := Option.isSome_iff_exists.1 there
    rw [here, only _ _ here]
  · intro there
    exact ⟨_, List.mem_filter.2 ⟨mem_children there, rfl⟩, rfl⟩

/-- The folders of tenants. -/
lemma mem_tenants_iff (disk : site.Keeps s d) (t : String) :
    t ∈ folders (d.children (site.below [])) ↔ d.node? (site.below [t]) = some .folder := by
  have step (t : String) : site.below [] ++ [t] = site.below [t] := site.below_append _ _
  rw [mem_folders_iff fun t node there => (disk.tenant t node (step t ▸ there)).1, step]

/-- The folders of subjects. -/
lemma mem_subjects_iff (disk : site.Keeps s d) (t u : String) :
    u ∈ folders (d.children (site.below [t])) ↔ d.node? (site.below [t, u]) = some .folder := by
  have step (u : String) : site.below [t] ++ [u] = site.below [t, u] := site.below_append _ _
  rw [mem_folders_iff fun u node there =>
    (disk.subject ⟨t, u, "", none⟩ node (step u ▸ there)).1, step]

/-- The schema files in the folder of a subject. -/
lemma mem_files_iff (disk : site.Keeps s d) (tidy : s.IsTidy site.root) (t u file : String) :
    file ∈ schemaFiles (files (d.children (site.below [t, u]))) ↔
      (s ⟨t, u⟩).map (fun a => fileName a.name.schema) = some file := by
  have listed := @mem_schemaFiles_iff _ _ _ ⟨t, u, "", none⟩ disk tidy.isNeat file
  refine Iff.trans ?_ listed
  rw [schemaFiles, schemaFiles, List.mem_filter, List.mem_filter]
  refine and_congr_left fun isFile => ⟨?_, fun there => ?_⟩
  · intro h
    obtain ⟨e, he, rfl⟩ := List.mem_map.1 h
    exact List.mem_map_of_mem (List.mem_of_mem_filter he)
  · -- what has the name of a schema file is a file
    have step : site.below [t, u] ++ [file] = site.below [t, u, file] := site.below_append _ _
    have here := (d.mem_names_children (site.below [t, u]) file).1 there
    have shelf : d.node? (site.below [t, u, file]) = Site.fileIn (s ⟨t, u⟩) file :=
      disk.file ⟨t, u⟩ file (beq_iff_eq.1 isFile)
    obtain ⟨node, found⟩ := Option.isSome_iff_exists.1 here
    obtain ⟨a, -, -, rfl⟩ := Site.fileIn_eq_some_iff.1 (shelf.symm.trans (step ▸ found))
    exact List.mem_map.2 ⟨_, List.mem_filter.2 ⟨mem_children found, rfl⟩, rfl⟩

/-! ### Loading -/

/-- What a shelf binds to the subjects of a tenant, as far as they have schema files. -/
def loaded (site : Site) (s : Shelf) (d : Disk) (t u : String) : List Aggregate :=
  (schemaFiles (files (d.children (site.below [t, u])))).flatMap fun _ => (s ⟨t, u⟩).toList

/-- The folder of a subject that is there can be reached. -/
lemma hasFolder (disk : site.Keeps s d) {t u : String}
    (there : d.node? (site.below [t, u]) = some .folder) :
    SchemaName.HasFolder site.root ⟨t, u, "", none⟩ ∧ site.HasSubject ⟨t, u, "", none⟩ d := by
  obtain ⟨-, hn, tenant⟩ := disk.subject ⟨t, u, "", none⟩ .folder there
  exact ⟨hn, disk.toIsOpen, tenant, there⟩

/-- The schema in the folder of a subject is loaded. -/
lemma runs_loadSubject (disk : site.Keeps s d) (tidy : s.IsTidy site.root) {t u : String}
    (there : d.node? (site.below [t, u]) = some .folder) :
    d.Runs (do
      let folder := schemasPath site.root ++ [t, u]
      gather (fun name => do return [← load (folder ++ [name])])
        (schemaFiles (files (← listed folder)))) (.ok (loaded site s d t u)) d := by
  obtain ⟨hn, subject⟩ := hasFolder disk there
  have listed := runs_listed (Disk.list_folder (subject.follow_folder hn) there)
  refine listed.bind (runs_gather fun file hf => ?_)
  obtain ⟨a, bound, rfl⟩ := Option.map_eq_some_iff.1 ((mem_files_iff disk tidy t u file).1 hf)
  obtain ⟨storable, ref⟩ := tidy _ a bound
  have read := runs_load disk storable (by rw [ref, bound])
  have path : a.name.file site.root = schemasPath site.root ++ [t, u] ++ [fileName a.name.schema] :=
    congrArg (· ++ [fileName a.name.schema]) (SchemaName.folder_congr (n := ⟨t, u, "", none⟩) ref)
  rw [path] at read
  rw [bound]
  exact read.bind (.pure d [a])

/-- The schemas in the folder of a tenant are loaded. -/
lemma runs_loadTenant (disk : site.Keeps s d) (tidy : s.IsTidy site.root) {t : String}
    (there : d.node? (site.below [t]) = some .folder) :
    d.Runs (do
      gather (fun subject => do
        let folder := schemasPath site.root ++ [t, subject]
        gather (fun name => do return [← load (folder ++ [name])])
          (schemaFiles (files (← listed folder))))
        (folders (← listed (schemasPath site.root ++ [t]))))
      (.ok ((folders (d.children (site.below [t]))).flatMap (loaded site s d t))) d := by
  obtain ⟨-, step, fits⟩ := disk.tenant t .folder there
  have leads := disk.follow_tenant_folder step fits there
  refine (runs_listed (Disk.list_folder leads there)).bind (runs_gather fun u hu => ?_)
  exact runs_loadSubject disk tidy ((mem_subjects_iff disk t u).1 hu)

/-- **Everything that a shelf binds is loaded**, and nothing else. -/
lemma runs_loadAll (disk : site.Keeps s d) (tidy : s.IsTidy site.root) :
    ∃ as, d.Runs (loadAll (schemasPath site.root)) (.ok as) d ∧
      ∀ a, a ∈ as ↔ s a.name.subjectRef = some a := by
  have listed := runs_listed (Disk.list_folder disk.follow_schemas disk.schemas)
  refine ⟨_, listed.bind (runs_gather fun t ht =>
    runs_loadTenant disk tidy ((mem_tenants_iff disk t).1 ht)), fun a => ?_⟩
  simp only [List.mem_flatMap, mem_tenants_iff disk, mem_subjects_iff disk, loaded,
    mem_files_iff disk tidy, Option.mem_toList]
  constructor
  · rintro ⟨t, -, u, -, file, -, bound⟩
    rw [(tidy _ a bound).2, bound]
  · intro bound
    have subject := disk.owner _ a bound
    obtain ⟨-, -, tenant⟩ := disk.subject a.name .folder subject
    exact ⟨_, tenant, _, subject, _, Option.map_eq_some_iff.2 ⟨a, bound, rfl⟩, bound⟩

/-! ### Opening -/

/-- The cache after the schemas of a list were put into it one by one. -/
lemma mem_entries_foldl {as : List Aggregate} {key : String} {a : Aggregate}
    (own : ∀ a ∈ as, ∀ b ∈ as, a.name.fullName = b.name.fullName → a = b) :
    (key, a) ∈ (as.foldl (fun (cache : Dictionary Aggregate) a => cache.insert a.name.fullName a)
      .empty).entries ↔ key = a.name.fullName ∧ a ∈ as := by
  induction as using List.reverseRecOn with
  | nil => simp [Dictionary.empty]
  | append_singleton as b ih =>
    have before := ih fun a ha b hb =>
      own a (List.mem_append_left _ ha) b (List.mem_append_left _ hb)
    rw [List.foldl_concat, mem_entries_insert, before, List.mem_append, List.mem_singleton]
    constructor
    · rintro (⟨⟨key', old⟩, -⟩ | ⟨key', rfl⟩)
      · exact ⟨key', .inl old⟩
      · exact ⟨key', .inr rfl⟩
    · rintro ⟨key', old | rfl⟩
      · by_cases same : a = b
        · exact .inr ⟨by rw [key', same], same⟩
        · refine .inl ⟨⟨key', old⟩, fun taken => same ?_⟩
          exact own a (List.mem_append_left _ old) b (by simp) (key'.symm.trans taken)
      · exact .inr ⟨key', rfl⟩

/-- A store whose cache was loaded from a folder stands for the shelf that the folder keeps. -/
lemma Represents.of_loaded (disk : site.Keeps s d) (tidy : s.IsTidy site.root)
    {as : List Aggregate} (all : ∀ a, a ∈ as ↔ s a.name.subjectRef = some a) :
    Represents site
      { root := site.root
        cache := as.foldl (fun cache a => cache.insert a.name.fullName a) .empty } d s where
  root := rfl
  disk := disk
  cache key a := by
    rw [mem_entries_foldl, all]
    intro a ha b hb same
    have boundA := (all a).1 ha
    have boundB := (all b).1 hb
    obtain ⟨ref, -⟩ := SchemaName.eq_of_fullName (tidy _ a boundA).1.name.toHasFolder
      (tidy _ b boundB).1.name.toHasFolder same
    rw [ref, boundB] at boundA
    exact (Option.some.inj boundA).symm

/-- **A store is opened in a folder that keeps a shelf**, and stands for this shelf. The disk stays
as it is. -/
theorem reopen (disk : site.Keeps s d) (tidy : s.IsTidy site.root) :
    ∃ f, d.Runs (openFolder site.root) (.ok f) d ∧ Represents site f d s := by
  obtain ⟨as, read, all⟩ := runs_loadAll disk tidy
  exact ⟨_, (runs_file disk.toIsOpen.runs_makeFolders).bind (read.bind (.pure d _)),
    .of_loaded disk tidy all⟩

/-- **A store opened in an empty folder stands for an empty shelf.** -/
theorem represents_open (site : Site) :
    ∃ f d, site.disk.Runs (openFolder site.root) (.ok f) d ∧ Represents site f d Shelf.empty := by
  obtain ⟨d, made, disk⟩ := site.runs_makeFolders
  obtain ⟨as, read, all⟩ := runs_loadAll disk Shelf.isTidy_empty
  exact ⟨_, d, (runs_file made).bind (read.bind (.pure d _)),
    .of_loaded disk Shelf.isTidy_empty all⟩

/-! ### What a store shows -/

/-- The schemas in the files below a root, or why they are refused. -/
def onDisk (root : Path) (d : Disk) : Except StoreError (Set Aggregate) :=
  (Disk.run (loadAll (schemasPath root)).run d).1.map fun as => {a | a ∈ as}

/-- The schemas in the cache. -/
def remembered (f : FileStore) : Set Aggregate :=
  {a | f.cache.get? a.name.fullName = some a}

/-- A folder that keeps a shelf shows what the shelf binds. -/
lemma onDisk_of_keeps (disk : site.Keeps s d) (tidy : s.IsTidy site.root) :
    onDisk site.root d = .ok s.schemas := by
  obtain ⟨as, read, all⟩ := runs_loadAll disk tidy
  have same : {a | a ∈ as} = s.schemas := Set.ext all
  rw [onDisk, read, Except.map, same]

/-- The cache of a store shows what the shelf binds. -/
lemma Represents.remembered {f : FileStore} (h : Represents site f d s)
    (tidy : s.IsTidy site.root) : f.remembered = s.schemas := by
  refine Set.ext fun a => ?_
  have found : f.cache.get? a.name.fullName = s.find a.name := h.get? tidy.isNeat a.name
  rw [FileStore.remembered, Set.mem_ofPred_eq, found, Shelf.find_eq_some_iff, and_iff_left rfl]
  rfl

end SchemaLedger.FileStore
