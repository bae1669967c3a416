import SchemaLedger.Proofs.Store.Failures

/-!
What the cache of a store shows when it was opened, whatever was found in its folder.

* `FileStore.Lists`: a file that is loaded when a store is opened.
* `FileStore.of_loadAll`: everything that is listed has been loaded, and nothing else.
* `FileStore.Filed`: every file holds the schema that its path names. A folder that a store has
  written is filed (`FileStore.Filed.of_keeps`).
* `FileStore.cache_mirrors_files`: the cache of a store that was opened in a filed folder mirrors the
  files. In other folders it need not (`FileStore.misfiled_schema`): the cache goes by the name in a
  file, and a read by the file's path.
-/

namespace SchemaLedger

namespace FileStore

open Disk Storing
open Program (isCautious_pure)

variable {α β : Type} {root path : Path} {d d' : Disk} {as : List Aggregate} {a b : Aggregate}
  {f : FileStore} {name : SchemaName}

/-! ### Programs that succeed -/

lemma isCautious_listed (path : Path) : (FileStore.listed path).run.IsCautious :=
  ⟨trivial, fun _ => ⟨trivial, fun ⟨fault, failed⟩ => ⟨.backend fault.message, by rw [failed]; rfl⟩⟩⟩

lemma isCautious_gather {f : α → Storing (List β)} (each : ∀ a, (f a).run.IsCautious)
    (items : List α) : (gather f items).run.IsCautious := by
  induction items with
  | nil => exact isCautious_pure _
  | cons a items ih => exact (each a).bind fun bs => ih.bind fun cs => isCautious_pure _

/-- A program of the file system that is part of the store's has succeeded. -/
lemma of_file {p : Filing α} {x : α} (h : d.Runs (file p) (.ok x) d') : d.Runs p (.ok x) d' := by
  have parts : Disk.run (file p).run d =
      Disk.run (p.run.bind fun r => .done (r.mapError .file)) d := rfl
  unfold Disk.Runs at h ⊢
  rw [parts, Disk.run_bind] at h
  cases first : Disk.run p.run d with
  | mk r d₁ =>
    rw [first] at h
    cases r with
    | ok y =>
      cases congrArg Prod.snd h
      cases congrArg Prod.fst h
      rfl
    | error fault => cases congrArg Prod.fst h

/-- What was listed can be listed. -/
lemma list_of_runs {entries : List (String × EntryKind)}
    (h : d.Runs (FileStore.listed path) (.ok entries) d') : d.list path = .ok entries := by
  cases there : d.list path with
  | ok found => rw [(runs_listed there).ok_inj h]
  | error fault =>
    have parts : Disk.run (FileStore.listed path).run d =
        Disk.run ((Filing.list path).run.bind fun r =>
          .done (r.mapError fun fault => .backend fault.message)) d := rfl
    have failed := d.runs_list path
    unfold Disk.Runs at failed h
    rw [parts, Disk.run_bind, failed, there] at h
    cases congrArg Prod.fst h

/-- If items are gathered, each of them has succeeded, and what they gave is gathered. -/
lemma of_gather {f : α → Storing (List β)} {items : List α} {bs : List β}
    (each : ∀ a, (f a).run.IsCautious) (h : d.Runs (gather f items) (.ok bs) d') :
    (∀ a ∈ items, ∃ cs, d.Runs (f a) (.ok cs) d) ∧
      ∀ b, b ∈ bs ↔ ∃ a ∈ items, ∃ cs, d.Runs (f a) (.ok cs) d ∧ b ∈ cs := by
  induction items generalizing bs d' with
  | nil =>
    cases congrArg Prod.fst h
    simp
  | cons a items ih =>
    obtain ⟨cs, d₁, first, rest⟩ := h.of_bind
    obtain rfl := (each a).disk_eq first
    obtain ⟨ds, d₂, others, last⟩ := rest.of_bind
    obtain rfl := (isCautious_gather each items).disk_eq others
    obtain ⟨succeeded, gathered⟩ := ih others
    cases congrArg Prod.fst last
    refine ⟨List.forall_mem_cons.2 ⟨⟨cs, first⟩, succeeded⟩, fun b => ?_⟩
    rw [List.mem_append, gathered, List.exists_mem_cons_iff]
    refine or_congr_left ⟨fun hb => ⟨cs, first, hb⟩, ?_⟩
    rintro ⟨cs', first', hb⟩
    rwa [first.ok_inj first']

/-- If something is gathered from the entries of a folder, the folder can be listed. -/
lemma of_gather_listed {f : String → Storing (List β)}
    {select : List (String × EntryKind) → List String} {bs : List β}
    (each : ∀ x, (f x).run.IsCautious)
    (h : d.Runs (do gather f (select (← FileStore.listed path))) (.ok bs) d') :
    ∃ entries, d.list path = .ok entries ∧
      (∀ x ∈ select entries, ∃ cs, d.Runs (f x) (.ok cs) d) ∧
      ∀ b, b ∈ bs ↔ ∃ x ∈ select entries, ∃ cs, d.Runs (f x) (.ok cs) d ∧ b ∈ cs := by
  obtain ⟨entries, d₁, listed, rest⟩ := Runs.of_bind h
  obtain rfl := (isCautious_listed path).disk_eq listed
  exact ⟨entries, list_of_runs listed, of_gather each rest⟩

/-! ### Loading -/

/-- A schema file three steps below a folder, as it is listed when a store is opened. -/
structure Lists (d : Disk) (path : Path) (t u file : String) : Prop where
  tenant : ∃ entries, d.list path = .ok entries ∧ t ∈ folders entries
  subject : ∃ entries, d.list (path ++ [t]) = .ok entries ∧ u ∈ folders entries
  file : ∃ entries, d.list (path ++ [t, u]) = .ok entries ∧ file ∈ schemaFiles (files entries)

/-- What is known of a folder when everything below it was loaded. -/
structure Loads (d : Disk) (path : Path) (as : List Aggregate) : Prop where
  tenants : ∃ entries, d.list path = .ok entries
  subjects : ∀ t, (∃ entries, d.list path = .ok entries ∧ t ∈ folders entries) →
    ∃ entries, d.list (path ++ [t]) = .ok entries
  files : ∀ t u, (∃ entries, d.list path = .ok entries ∧ t ∈ folders entries) →
    (∃ entries, d.list (path ++ [t]) = .ok entries ∧ u ∈ folders entries) →
      ∃ entries, d.list (path ++ [t, u]) = .ok entries
  read : ∀ t u file, Lists d path t u file →
    ∃ a ∈ as, d.Runs (load (path ++ [t, u] ++ [file])) (.ok a) d
  listed : ∀ a ∈ as, ∃ t u file, Lists d path t u file ∧
    d.Runs (load (path ++ [t, u] ++ [file])) (.ok a) d

/-- The schema in one file of a folder. -/
def loadEntry (folder : Path) (file : String) : Storing (List Aggregate) := do
  return [← load (folder ++ [file])]

/-- The schemas in the files of a subject's folder. -/
def loadSubject (path : Path) (t u : String) : Storing (List Aggregate) := do
  gather (loadEntry (path ++ [t, u])) (schemaFiles (files (← FileStore.listed (path ++ [t, u]))))

/-- The schemas in the files of a tenant's folders. -/
def loadTenant (path : Path) (t : String) : Storing (List Aggregate) := do
  gather (loadSubject path t) (folders (← FileStore.listed (path ++ [t])))

lemma isCautious_loadEntry (folder : Path) (file : String) :
    (loadEntry folder file).run.IsCautious :=
  isCautious_load.bind fun _ => isCautious_pure _

lemma isCautious_loadSubject (path : Path) (t u : String) : (loadSubject path t u).run.IsCautious :=
  (isCautious_listed _).bind fun _ => isCautious_gather (isCautious_loadEntry _) _

lemma isCautious_loadTenant (path : Path) (t : String) : (loadTenant path t).run.IsCautious :=
  (isCautious_listed _).bind fun _ => isCautious_gather (isCautious_loadSubject path t) _

lemma isCautious_loadAll (path : Path) : (loadAll path).run.IsCautious :=
  (isCautious_listed _).bind fun _ => isCautious_gather (isCautious_loadTenant path) _

/-- One schema is loaded from one file. -/
lemma of_loadEntry {folder : Path} {file : String}
    (h : d.Runs (loadEntry folder file) (.ok as) d') :
    ∃ a, as = [a] ∧ d.Runs (load (folder ++ [file])) (.ok a) d := by
  obtain ⟨a, d₁, read, last⟩ := Runs.of_bind h
  obtain rfl := isCautious_load.disk_eq read
  exact ⟨a, (Except.ok.inj (congrArg Prod.fst last)).symm, read⟩

/-- **Everything that is listed has been loaded**, and nothing else. -/
lemma of_loadAll (h : d.Runs (loadAll path) (.ok as) d') : Loads d path as := by
  obtain ⟨tenants, listTenants, eachTenant, all⟩ :=
    of_gather_listed (isCautious_loadTenant path) h
  -- what is gathered for a listed tenant, and for a listed subject of his
  have ofTenant (t : String)
      (ht : ∃ entries, d.list path = .ok entries ∧ t ∈ folders entries) :
      ∃ cs, d.Runs (loadTenant path t) (.ok cs) d ∧ ∀ a ∈ cs, a ∈ as := by
    obtain ⟨entries, list, member⟩ := ht
    cases listTenants.symm.trans list
    obtain ⟨cs, loaded⟩ := eachTenant t member
    exact ⟨cs, loaded, fun a ha => (all a).2 ⟨t, member, cs, loaded, ha⟩⟩
  have ofSubject (t u : String)
      (ht : ∃ entries, d.list path = .ok entries ∧ t ∈ folders entries)
      (hu : ∃ entries, d.list (path ++ [t]) = .ok entries ∧ u ∈ folders entries) :
      ∃ cs, d.Runs (loadSubject path t u) (.ok cs) d ∧ ∀ a ∈ cs, a ∈ as := by
    obtain ⟨cs, loaded, gathered⟩ := ofTenant t ht
    obtain ⟨subjects, list', each, all'⟩ := of_gather_listed (isCautious_loadSubject path t) loaded
    obtain ⟨entries, list, member⟩ := hu
    cases list'.symm.trans list
    obtain ⟨ds, loaded'⟩ := each u member
    exact ⟨ds, loaded', fun a ha => gathered a ((all' a).2 ⟨u, member, ds, loaded', ha⟩)⟩
  refine ⟨⟨tenants, listTenants⟩, fun t ht => ?_, fun t u ht hu => ?_, fun t u file h => ?_,
    fun a ha => ?_⟩
  · obtain ⟨cs, loaded, -⟩ := ofTenant t ht
    obtain ⟨subjects, list, -⟩ := of_gather_listed (isCautious_loadSubject path t) loaded
    exact ⟨subjects, list⟩
  · obtain ⟨cs, loaded, -⟩ := ofSubject t u ht hu
    obtain ⟨entries, list, -⟩ := of_gather_listed (isCautious_loadEntry _) loaded
    exact ⟨entries, list⟩
  · obtain ⟨cs, loaded, gathered⟩ := ofSubject t u h.tenant h.subject
    obtain ⟨entries', list', each, all'⟩ := of_gather_listed (isCautious_loadEntry _) loaded
    obtain ⟨entries, list, member⟩ := h.file
    cases list'.symm.trans list
    obtain ⟨ds, loaded'⟩ := each file member
    obtain ⟨a, rfl, read⟩ := of_loadEntry loaded'
    exact ⟨a, gathered a ((all' a).2 ⟨file, member, [a], loaded', by simp⟩), read⟩
  · obtain ⟨t, ht, cs, tenant, hcs⟩ := (all a).1 ha
    obtain ⟨subjects, listSubjects, -, all'⟩ :=
      of_gather_listed (isCautious_loadSubject path t) tenant
    obtain ⟨u, hu, ds, subject, hds⟩ := (all' a).1 hcs
    obtain ⟨entries, listFiles, -, all''⟩ := of_gather_listed (isCautious_loadEntry _) subject
    obtain ⟨file, hfile, es, entry, hes⟩ := (all'' a).1 hds
    obtain ⟨b, rfl, read⟩ := of_loadEntry entry
    cases List.mem_singleton.1 hes
    exact ⟨t, u, file, ⟨⟨tenants, listTenants, ht⟩, ⟨subjects, listSubjects, hu⟩,
      ⟨entries, listFiles, hfile⟩⟩, read⟩

/-! ### What is found at a path -/

/-- A step that leads one folder down starts in a folder. -/
lemma of_walk_down {place goal : List String} {step : String}
    (isStep : step.utf8ByteSize ≤ maxName → IsStep step) (h : d.walk place [step] = .ok goal) :
    d.node? place = some .folder ∧ goal = place ++ [step] := by
  have named : step ≠ "/" := by
    rintro rfl
    exact (isStep (by decide)).relative rfl
  have isFolder : d.node? place = some .folder := by
    by_contra other
    rw [walk_not_folder other named] at h
    cases h
  have short : step.utf8ByteSize ≤ maxName := by
    by_contra long
    rw [walk_name_long isFolder (Nat.not_le.1 long)] at h
    cases h
  cases there : d.node? (place ++ [step]) with
  | none =>
    rw [walk_missing isFolder (isStep short) there] at h
    cases h
  | some node =>
    rw [walk_step isFolder (isStep short) (by rw [there]; rfl)] at h
    exact ⟨isFolder, (Except.ok.inj h).symm⟩

lemma of_follow {place : List String} (h : d.follow path = .ok place) :
    d.walk d.current path = .ok place := by
  rw [follow] at h
  split at h
  · cases h
  · exact h

/-- A folder that can be listed shows what stands in it. -/
lemma of_list {entries : List (String × EntryKind)} (h : d.list path = .ok entries) :
    ∃ place, d.walk d.current path = .ok place ∧ entries = d.children place := by
  cases leads : d.follow path with
  | error fault =>
    rw [list, leads] at h
    cases h
  | ok place =>
    rw [list, leads] at h
    dsimp only [bind, Except.bind] at h
    split at h
    · cases h
      exact ⟨place, of_follow leads, rfl⟩
    · cases h

/-- A folder inside of a listed one is listed. -/
lemma mem_folders_of_node {place : List String} {step : String}
    (there : d.node? (place ++ [step]) = some .folder) : step ∈ folders (d.children place) :=
  List.mem_map.2 ⟨_, List.mem_filter.2 ⟨mem_children there, rfl⟩, rfl⟩

lemma of_find {node : Node} (h : d.find path = .ok node) :
    ∃ place, d.walk d.current path = .ok place ∧ d.node? place = some node := by
  cases leads : d.follow path with
  | error fault =>
    rw [find_error leads] at h
    cases h
  | ok place =>
    rw [find, leads] at h
    dsimp only [bind, Except.bind] at h
    split at h
    · cases h
      exact ⟨place, of_follow leads, ‹_›⟩
    · cases h

/-- **The file of a schema is listed**, if it is there and everything was loaded. -/
lemma Loads.lists (h : Loads d (schemasPath root) as) (plain : name.IsPlain)
    (schema : IsPart name.schema) {content : ByteArray}
    (found : d.find (name.file root) = .ok (.file content)) :
    Lists d (schemasPath root) name.tenant name.subject (fileName name.schema) := by
  obtain ⟨place, leads, there⟩ := of_find found
  rw [SchemaName.file, SchemaName.folder] at leads
  obtain ⟨folder, leadsFolder, lastStep⟩ := walk_of_append leads
  have leadsFolder' : d.walk d.current (schemasPath root ++ [name.tenant] ++ [name.subject]) =
      .ok folder := by
    rw [← leadsFolder, List.append_assoc]
    rfl
  obtain ⟨tenant, leadsTenant, secondStep⟩ := walk_of_append leadsFolder'
  obtain ⟨top, leadsTop, firstStep⟩ := walk_of_append leadsTenant
  obtain ⟨-, rfl⟩ := of_walk_down plain.tenant.isStep firstStep
  obtain ⟨isTenant, rfl⟩ := of_walk_down plain.subject.isStep secondStep
  have long : 2 < (fileName name.schema).length := by
    rw [fileName_eq, String.length_append]
    exact Nat.lt_of_lt_of_le (by decide) (Nat.le_add_left 5 _)
  obtain ⟨isSubject, rfl⟩ := of_walk_down (isStep_of_length long) lastStep
  obtain ⟨tenants, listTenants⟩ := h.tenants
  obtain ⟨top', leads', rfl⟩ := of_list listTenants
  cases leadsTop.symm.trans leads'
  have tenant : ∃ entries, d.list (schemasPath root) = .ok entries ∧
      name.tenant ∈ folders entries := ⟨_, listTenants, mem_folders_of_node isTenant⟩
  obtain ⟨subjects, listSubjects⟩ := h.subjects _ tenant
  obtain ⟨place', leads', rfl⟩ := of_list listSubjects
  cases leadsTenant.symm.trans leads'
  have subject : ∃ entries, d.list (schemasPath root ++ [name.tenant]) = .ok entries ∧
      name.subject ∈ folders entries := ⟨_, listSubjects, mem_folders_of_node isSubject⟩
  obtain ⟨entries, listFiles⟩ := h.files _ _ tenant subject
  obtain ⟨place', leads', rfl⟩ := of_list listFiles
  cases leadsFolder.symm.trans leads'
  refine ⟨tenant, subject, _, listFiles, List.mem_filter.2 ⟨?_, ?_⟩⟩
  · exact List.mem_map.2 ⟨_, List.mem_filter.2 ⟨mem_children there, rfl⟩, rfl⟩
  · rw [extension?_fileName schema]
    rfl

/-! ### The cache and the files -/

/-- Every file that is listed holds the schema that its path names, and no folder has the name of a
schema's file. -/
structure Filed (root : Path) (d : Disk) : Prop where
  named : ∀ t u file a, Lists d (schemasPath root) t u file →
    d.Runs (load (schemasPath root ++ [t, u] ++ [file])) (.ok a) d →
      a.name.tenant = t ∧ a.name.subject = u ∧ fileName a.name.schema = file
  isFile : ∀ name : SchemaName, name.IsPlain → IsPart name.schema →
    d.find (name.file root) ≠ .ok .folder

/-- **A folder that keeps a shelf is filed.** -/
lemma Filed.of_keeps {site : Site} {s : Shelf} (disk : site.Keeps s d) (tidy : s.IsTidy site.root) :
    Filed site.root d where
  named t u file a listed read := by
    obtain ⟨tenants, list, ht⟩ := listed.tenant
    cases (Disk.list_folder disk.follow_schemas disk.schemas).symm.trans list
    have tenant := (mem_tenants_iff disk t).1 ht
    obtain ⟨-, step, fits⟩ := disk.tenant t .folder tenant
    obtain ⟨subjects, list', hu⟩ := listed.subject
    cases (Disk.list_folder (disk.follow_tenant_folder step fits tenant) tenant).symm.trans list'
    have subject := (mem_subjects_iff disk t u).1 hu
    obtain ⟨hn, inside⟩ := hasFolder disk subject
    obtain ⟨entries, list'', hfile⟩ := listed.file
    cases (Disk.list_folder (inside.follow_folder hn) subject).symm.trans list''
    obtain ⟨b, bound, rfl⟩ := Option.map_eq_some_iff.1 ((mem_files_iff disk tidy t u file).1 hfile)
    obtain ⟨storable, ref⟩ := tidy _ b bound
    have own := runs_load disk storable (by rw [ref, bound])
    have path : b.name.file site.root =
        schemasPath site.root ++ [t, u] ++ [fileName b.name.schema] :=
      congrArg (· ++ [fileName b.name.schema])
        (SchemaName.folder_congr (n := ⟨t, u, "", none⟩) ref)
    rw [path] at own
    cases own.ok_inj read
    exact ⟨congrArg SubjectRef.tenant ref, congrArg SubjectRef.subject ref, rfl⟩
  isFile name plain schema := by
    rcases hasFile_or_missing plain schema site.root d with hn | ⟨fault, missing⟩
    · rw [disk.find_file hn]
      cases s.find name <;> simp
    · simp [missing]

/-- The cache finds the last of the schemas that were put into it under a name. -/
lemma get?_foldl (as : List Aggregate) (key : String) :
    (as.foldl (fun (cache : Dictionary Aggregate) a => cache.insert a.name.fullName a)
      .empty).get? key = as.reverse.find? fun a => a.name.fullName == key := by
  induction as using List.reverseRecOn with
  | nil => rfl
  | append_singleton as a ih =>
    rw [List.foldl_concat, Dictionary.get?_insert, ih, List.reverse_append, List.reverse_singleton,
      List.singleton_append, List.find?_cons]
    by_cases same : a.name.fullName = key
    · rw [if_pos same.symm, beq_iff_eq.2 same]
    · rw [if_neg (Ne.symm same), beq_eq_false_iff_ne.2 same]

/-- **A schema in the cache is that in the file of its name**, if the files are filed. -/
lemma Loads.of_mem (h : Loads d (schemasPath root) as) (filed : Filed root d) (plain : name.IsPlain)
    (schema : IsPart name.schema) (loaded : a ∈ as) (same : a.name.fullName = name.fullName) :
    a.IsNamed name ∧ d.Runs (load (name.file root)) (.ok a) d := by
  obtain ⟨t, u, file, listed, read⟩ := h.listed a loaded
  obtain ⟨rfl, rfl, rfl⟩ := filed.named t u file a listed read
  have scope : name.HasPlainScope := ⟨plain.tenant.no_slash, plain.subject.no_slash⟩
  have names := SchemaName.unversioned_eq_of_fullName
    (scope.of_fullName schema.no_slash same) scope same
  obtain ⟨ref, last⟩ := SchemaName.unversioned_eq_iff.1 names
  refine ⟨⟨congrArg SubjectRef.tenant ref, congrArg SubjectRef.subject ref, last⟩, ?_⟩
  rwa [← SchemaName.file_congr ref last]

/-- What was loaded lies in a file. -/
lemma find_of_runs_load (h : d.Runs (load path) (.ok a) d') :
    ∃ content, d.find path = .ok (.file content) := by
  obtain ⟨text, d₁, read, -⟩ := Runs.of_bind h
  obtain ⟨bytes, d₂, bytesRead, -⟩ := Runs.of_bind (of_file read)
  have answered : d.read path = .ok bytes := congrArg Prod.fst bytesRead
  rw [Disk.read] at answered
  cases found : d.find path with
  | error fault =>
    rw [found] at answered
    cases answered
  | ok node =>
    cases node with
    | file content => exact ⟨content, rfl⟩
    | folder =>
      rw [found] at answered
      cases answered

/-- The file of a name is read in a folder that is filed, and shows what the cache has. -/
lemma Loads.runs_readFile (h : Loads d (schemasPath root) as) (filed : Filed root d)
    (rooted : f.root = root) (plain : name.IsPlain) (schema : IsPart name.schema) :
    d.Runs (f.readFile name)
      (.ok (as.reverse.find? fun a => a.name.fullName == name.fullName)) d := by
  have path := runs_known d (show schemaPath f.root name = .ok (name.file root) by
    rw [rooted, plain.schemaPath schema])
  have present := runs_file (d.runs_isPresent (name.file root))
  refine path.bind ?_
  cases found : d.find (name.file root) with
  | error fault =>
    -- what is in the cache under the name would lie in the file
    have none : as.reverse.find? (fun a => a.name.fullName == name.fullName) = none := by
      refine List.find?_eq_none.2 fun a ha same => ?_
      obtain ⟨-, read⟩ :=
        h.of_mem filed plain schema (List.mem_reverse.1 ha) (beq_iff_eq.1 same)
      obtain ⟨content, there⟩ := find_of_runs_load read
      rw [found] at there
      cases there
    rw [found] at present
    rw [none]
    exact present.bind (.pure d _)
  | ok node =>
    cases node with
    | folder => exact absurd found (filed.isFile name plain schema)
    | file content =>
      obtain ⟨a, loaded, read⟩ := h.read _ _ _ (h.lists plain schema found)
      obtain ⟨tenant, subject, file⟩ := filed.named _ _ _ a (h.lists plain schema found) read
      have same : a.name.fullName = name.fullName := by
        rw [SchemaName.fullName, SchemaName.fullName, tenant, subject, fileName_inj.1 file]
      -- another schema under the same name would have the same file
      have some : (as.reverse.find? fun a => a.name.fullName == name.fullName).isSome = true :=
        List.find?_isSome.2 ⟨a, List.mem_reverse.2 loaded, beq_iff_eq.2 same⟩
      obtain ⟨b, first⟩ := Option.isSome_iff_exists.1 some
      have last := List.find?_some first
      obtain ⟨-, read'⟩ := h.of_mem filed plain schema
        (List.mem_reverse.1 (List.mem_of_find?_eq_some first)) (beq_iff_eq.1 last)
      rw [found] at present
      rw [first]
      exact present.bind (read'.bind (.pure d _))

/-- The cache of an opened store finds what was loaded. -/
lemma of_openFolder (h : d.Runs (openFolder root) (.ok f) d') :
    ∃ as, Loads d' (schemasPath root) as ∧ f.root = root ∧
      ∀ key, f.cache.get? key = as.reverse.find? fun a => a.name.fullName == key := by
  obtain ⟨-, d₁, -, rest⟩ := Runs.of_bind h
  obtain ⟨as, d₂, loaded, last⟩ := Runs.of_bind rest
  obtain rfl := (isCautious_loadAll _).disk_eq loaded
  cases congrArg Prod.snd last
  cases congrArg Prod.fst last
  exact ⟨as, of_loadAll loaded, rfl, get?_foldl as⟩

/-- **The cache mirrors the files** when a store was opened in a folder that is filed, for every name
that is not refused. Reads with and without the cache give the same schema, which has the name, and
a read without the cache changes none of the answers that the cache gives. -/
theorem cache_mirrors_files (opened : d.Runs (openFolder root) (.ok f) d') (filed : Filed root d')
    (plain : name.IsPlain) (schema : IsPart name.schema) :
    ∃ found f', Disk.run (f.answer (.fetch name true)) d' = ((.ok found, f), d') ∧
      Disk.run (f.answer (.fetch name false)) d' = ((.ok found, f'), d') ∧
      (∀ a, found = some a → a.IsNamed name) ∧
      ∀ other, (Disk.run (f'.answer (.fetch other true)) d').1.1 =
        (Disk.run (f.answer (.fetch other true)) d').1.1 := by
  obtain ⟨as, loads, rooted, cache⟩ := of_openFolder opened
  have read := loads.runs_readFile filed rooted plain schema
  rw [← cache] at read
  have named (a : Aggregate) (found : f.cache.get? name.fullName = some a) : a.IsNamed name := by
    rw [cache] at found
    have same := List.find?_some found
    exact (loads.of_mem filed plain schema (List.mem_reverse.1 (List.mem_of_find?_eq_some found))
      (beq_iff_eq.1 same)).1
  refine ⟨f.cache.get? name.fullName, ?_⟩
  cases found : f.cache.get? name.fullName with
  | none =>
    rw [found] at read
    refine ⟨f, ?_, run_keep_ok (read.bind (.pure d' _)), fun a same => (nomatch same), fun _ => rfl⟩
    rw [← found]
    rfl
  | some a =>
    rw [found] at read
    refine ⟨f.remember a, ?_, run_keep_ok (read.bind (.pure d' _)),
      fun b same => named b (found.trans same), fun other => ?_⟩
    · rw [← found]
      rfl
    · -- the schema that was read is the one that the cache had already
      have same : (f.remember a).cache.get? other.fullName = f.cache.get? other.fullName := by
        rw [remember, Dictionary.get?_insert, (named a found).fullName]
        split
        · rename_i here
          rw [here, found]
        · rfl
      exact congrArg Except.ok same

end FileStore

namespace Rehearsal

/-- The name of the rehearsal's schema in another subject. -/
def returns : SchemaName where
  tenant := "shop"
  subject := "returns"
  schema := "Order"

/-- A disk with one schema file, in the folder of the other subject. -/
def misfiled (content : ByteArray) : Disk where
  nodes := [(["data"], .folder), (["data", "schemas"], .folder),
    (["data", "schemas", "shop"], .folder), (["data", "schemas", "shop", "returns"], .folder),
    (["data", "schemas", "shop", "returns", "Order.json"], .file content)]

/-- The store that is opened on this disk. -/
def mistaken : FileStore where
  root := ["data"]
  cache := ⟨[("shop/orders/Order", registered)]⟩

lemma list_misfiled (content : ByteArray) :
    (misfiled content).list ["data", "schemas"] = .ok [("shop", .folder)] ∧
      (misfiled content).list ["data", "schemas", "shop"] = .ok [("returns", .folder)] ∧
      (misfiled content).list ["data", "schemas", "shop", "returns"] = .ok [("Order.json", .file)] := by
  have shows {path : Path} {e : String × EntryKind}
      (listed : (misfiled content).list path = .ok ((misfiled content).children path))
      (one : (misfiled content).children path = [e].mergeSort fun a b => decide (a.1 ≤ b.1)) :
      (misfiled content).list path = .ok [e] := by
    rw [listed, one, List.mergeSort_singleton]
  exact ⟨shows rfl rfl, shows rfl rfl, shows rfl rfl⟩

end Rehearsal

open Rehearsal Storing

/-- The cache of a store that is opened again mirrors the file of the rehearsal. -/
theorem FileStore.orders_mirrored :
    ∃ d f, d.Runs (openFolder ["data"]) (.ok f) d ∧ Filed ["data"] d ∧ orders.IsPlain ∧
      IsPart orders.schema ∧
      ∃ found f', Disk.run (f.answer (.fetch orders true)) d = ((.ok found, f), d) ∧
        Disk.run (f.answer (.fetch orders false)) d = ((.ok found, f'), d) ∧
        (∀ a, found = some a → a.IsNamed orders) ∧
        ∀ other, (Disk.run (f'.answer (.fetch other true)) d).1.1 =
          (Disk.run (f.answer (.fetch other true)) d).1.1 := by
  obtain ⟨f₀, d, -, tidy, represents⟩ := reachable_stocked
  obtain ⟨f, opened, -⟩ := reopen represents.disk tidy
  have filed : Filed ["data"] d := .of_keeps represents.disk tidy
  have plain : orders.IsPlain := ⟨rfl, rfl⟩
  exact ⟨d, f, opened, filed, plain, rfl, cache_mirrors_files opened filed plain rfl⟩

/-- **A schema file in the folder of another subject is not mirrored**: the cache shows the schema
under the name that it carries, and a read without the cache under the name of the path. -/
theorem FileStore.misfiled_schema :
    ∃ (d : Disk) (f : FileStore), d.Runs (openFolder ["data"]) (.ok f) d ∧
      (Disk.run (f.answer (.fetch orders true)) d).1.1 = .ok (some registered) ∧
      (Disk.run (f.answer (.fetch orders false)) d).1.1 = .ok none ∧
      (Disk.run (f.answer (.fetch returns true)) d).1.1 = .ok none ∧
      (Disk.run (f.answer (.fetch returns false)) d).1.1 = .ok (some registered) := by
  let d := misfiled (Wire.aggregate.pretty registered).toUTF8
  let path := ["data", "schemas", "shop", "returns", "Order.json"]
  have read : d.Runs (load path) (.ok registered) d :=
    runs_load_text rfl (decode_pretty isStorable_registered)
  have opened : d.Runs (openFolder ["data"]) (.ok mistaken) d := by
    obtain ⟨tenants, subjects, entries⟩ := list_misfiled (Wire.aggregate.pretty registered).toUTF8
    have made : d.Runs (Filing.makeFolders (["data"] ++ ["schemas"])) (.ok ()) d :=
      Disk.runs_makeFolders_exists rfl rfl
    have subject : d.Runs (loadSubject ["data", "schemas"] "shop" "returns") (.ok [registered]) d :=
      (runs_listed entries).bind (.bind (read.bind (.pure d [registered])) (.pure d _))
    have tenant : d.Runs (loadTenant ["data", "schemas"] "shop") (.ok [registered]) d :=
      (runs_listed subjects).bind (subject.bind (.pure d _))
    have loaded : d.Runs (loadAll ["data", "schemas"]) (.ok [registered]) d :=
      (runs_listed tenants).bind (tenant.bind (.pure d _))
    exact (runs_file made).bind (loaded.bind (.pure d _))
  have found : d.Runs (mistaken.readFile returns) (.ok (some registered)) d := by
    have known : d.Runs (known (schemaPath ["data"] returns)) (.ok path) d := rfl
    have present : d.Runs (file (Filing.isPresent path)) (.ok true) d := rfl
    exact known.bind (present.bind (read.bind (.pure d _)))
  have fetched : Disk.run (mistaken.answer (.fetch returns false)) d =
      ((.ok (some registered), mistaken.remember registered), d) :=
    run_keep_ok (found.bind (.pure d _))
  exact ⟨d, mistaken, opened, rfl, rfl, rfl, congrArg (fun x => x.1.1) fetched⟩

end SchemaLedger
