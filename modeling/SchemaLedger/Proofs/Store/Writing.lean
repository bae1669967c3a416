import SchemaLedger.Proofs.Store.Folder

/-!
What a store changes below its folder.

* One lemma for each change that a store makes to the disk: `Site.Keeps.put_tenant`,
  `Site.Keeps.put_subject` and `Site.Keeps.put_spare` leave the shelf as it is, and so does
  `Site.Keeps.drop_subject`; `Site.Keeps.commit` and `Site.Keeps.drop_file` change what is bound
  to one subject.
* `Site.Keeps.runs_writeFile`: a schema is written to a temporary file, and this becomes its file;
  `Site.Keeps.runs_writeFile_long` if the path is too long for one of them.
* `Site.Keeps.removeFile`, `Site.Keeps.removeFolder`: a schema's file is removed, and then its
  subject's folder if nothing else is in it.
* `Site.runs_makeFolders`: the folder of all schemas is made.
-/

namespace SchemaLedger

open FileStore

namespace Site

variable {site : Site} {d : Disk} {name : SchemaName} {f : String} {s : Shelf} {a : Aggregate}

/-! ### Changes -/

/-- The steps of a subject's folder, one by one. -/
lemma folder_eq (root : Path) (name : SchemaName) :
    name.folder root = schemasPath root ++ [name.tenant] ++ [name.subject] := by
  rw [SchemaName.folder, List.append_assoc]
  rfl

/-- The path to the folder of a subject's tenant is no longer than the one to the subject's. -/
lemma fits_tenant {root : Path} (hn : name.HasFolder root) :
    Path.Fits (schemasPath root ++ [name.tenant]) := by
  have fits := hn.folder
  rw [folder_eq] at fits
  exact fits.of_append (isPart_iff.1 hn.subject).1

/-- The folder of a tenant. -/
lemma Keeps.put_tenant (h : site.Keeps s d) {t : String} (step : Disk.IsStep t)
    (fits : Path.Fits (schemasPath site.root ++ [t])) :
    site.Keeps s (d.put (site.below [t]) .folder) where
  toIsOpen := h.toIsOpen.put (List.cons_ne_nil _ _) .folder
  tenant t' node there := by
    rw [node?_put_below] at there
    split at there
    · rename_i same
      cases there
      cases same
      exact ⟨rfl, step, fits⟩
    · exact h.tenant t' node there
  subject n node there := by
    rw [node?_put_below, if_neg (by simp)] at there
    obtain ⟨folder, path, tenant⟩ := h.subject n node there
    refine ⟨folder, path, ?_⟩
    rw [node?_put_below, tenant]
    split <;> rfl
  owner r a bound := by
    rw [node?_put_below, if_neg (by simp), h.owner r a bound]
  file r f isFile := by
    rw [node?_put_below, if_neg (by simp), h.file r f isFile]
  spare t u f other := by
    rw [node?_put_below, if_neg (by simp)]
    exact h.spare t u f other

/-- The folder of a subject, in that of its tenant. -/
lemma Keeps.put_subject (h : site.Keeps s d) (hn : name.HasFolder site.root)
    (there : d.node? (site.below [name.tenant]) = some .folder) :
    site.Keeps s (d.put (site.below [name.tenant, name.subject]) .folder) where
  toIsOpen := h.toIsOpen.put (List.cons_ne_nil _ _) .folder
  tenant t node found := by
    rw [node?_put_below, if_neg (by simp)] at found
    exact h.tenant t node found
  subject n node found := by
    rw [node?_put_below] at found
    rw [node?_put_below, if_neg (by simp)]
    split at found
    · rename_i same
      cases found
      simp only [List.cons.injEq, and_true] at same
      obtain ⟨tenant, subject⟩ := same
      refine ⟨rfl, ⟨tenant ▸ hn.tenant, subject ▸ hn.subject, ?_⟩, tenant ▸ there⟩
      rw [SchemaName.folder, tenant, subject]
      exact hn.folder
    · exact h.subject n node found
  owner r a bound := by
    rw [node?_put_below, h.owner r a bound]
    split <;> rfl
  file r f isFile := by
    rw [node?_put_below, if_neg (by simp), h.file r f isFile]
  spare t u f other := by
    rw [node?_put_below, if_neg (by simp)]
    exact h.spare t u f other

/-- A file that is no schema file. -/
lemma Keeps.put_spare (h : site.Keeps s d) (t u : String) (other : ¬IsSchemaFile f)
    (bytes : ByteArray) : site.Keeps s (d.put (site.below [t, u, f]) (.file bytes)) where
  toIsOpen := h.toIsOpen.put (List.cons_ne_nil _ _) _
  tenant t node there := by
    rw [node?_put_below, if_neg (by simp)] at there
    exact h.tenant t node there
  subject n node there := by
    rw [node?_put_below, if_neg (by simp)] at there
    rw [node?_put_below, if_neg (by simp)]
    exact h.subject n node there
  owner r a bound := by
    rw [node?_put_below, if_neg (by simp), h.owner r a bound]
  file r g isFile := by
    rw [node?_put_below, if_neg, h.file r g isFile]
    intro same
    simp only [List.cons.injEq, and_true] at same
    exact other (same.2.2 ▸ isFile)
  spare t' u' g other' := by
    rw [node?_put_below]
    split
    · intro folder
      cases folder
    · exact h.spare t' u' g other'

/-- Files of different subjects are at different places. -/
lemma steps_ne {r : SubjectRef} {g : String} (other : r ≠ name.subjectRef) :
    [r.tenant, r.subject, g] ≠ [name.tenant, name.subject, f] := by
  intro same
  simp only [List.cons.injEq] at same
  exact other (SchemaName.eq_subjectRef_iff.2 ⟨same.1, same.2.1⟩)

/-- There is no file of another schema in the folder of a subject. -/
lemma Keeps.no_other_file (h : site.Keeps s d)
    (own : ∀ b, s name.subjectRef = some b → b.name.schema = name.schema) (isFile : IsSchemaFile f)
    (other : f ≠ fileName name.schema) :
    d.node? (site.below [name.tenant, name.subject, f]) = none := by
  refine (h.file name.subjectRef f isFile).trans (fileIn_eq_none fun b bound => ?_)
  rw [own b bound]
  exact other.symm

/-- A schema has the file of its own name only. -/
lemma fileIn_named (named : a.name.schema = name.schema) (f : String) :
    fileIn (some a) f = if f = fileName name.schema then some (.file (content a)) else none := by
  split
  · rename_i same
    rw [same, ← named, fileIn_some]
  · rename_i other
    refine fileIn_eq_none fun b same => ?_
    cases same
    rw [named]
    exact Ne.symm other

/-- A temporary file takes the place of a schema's file: now the schema is bound. -/
lemma Keeps.commit (h : site.Keeps s d) (subject : site.HasSubject name d) (spare : ¬IsSchemaFile f)
    (own : ∀ b, s name.subjectRef = some b → b.name.schema = name.schema)
    (named : a.name.schema = name.schema) :
    site.Keeps (Function.update s name.subjectRef (some a))
      ((d.drop (site.below [name.tenant, name.subject, f])).put
        (site.below [name.tenant, name.subject, fileName name.schema]) (.file (content a))) where
  toIsOpen := (h.toIsOpen.drop (List.cons_ne_nil _ _)).put (List.cons_ne_nil _ _) _
  tenant t node there := by
    rw [node?_put_below, if_neg (by simp), node?_drop_below, if_neg (by simp)] at there
    exact h.tenant t node there
  subject n node there := by
    rw [node?_put_below, if_neg (by simp), node?_drop_below, if_neg (by simp)] at there
    rw [node?_put_below, if_neg (by simp), node?_drop_below, if_neg (by simp)]
    exact h.subject n node there
  owner r b bound := by
    rw [node?_put_below, if_neg (by simp), node?_drop_below, if_neg (by simp)]
    by_cases same : r = name.subjectRef
    · rw [same]
      exact subject.subject
    · rw [Function.update_apply, if_neg same] at bound
      exact h.owner r b bound
  file r g isFile := by
    have kept : [r.tenant, r.subject, g] ≠ [name.tenant, name.subject, f] := by
      intro same
      simp only [List.cons.injEq, and_true] at same
      exact spare (same.2.2 ▸ isFile)
    rw [node?_put_below, node?_drop_below, if_neg kept, Function.update_apply]
    by_cases same : r = name.subjectRef
    · subst same
      rw [if_pos rfl, fileIn_named named]
      by_cases here : g = fileName name.schema
      · rw [if_pos here, if_pos (by rw [here]; rfl)]
      · rw [if_neg here, if_neg (by simp [here])]
        exact h.no_other_file own isFile here
    · rw [if_neg same, if_neg (steps_ne same), h.file r g isFile]
  spare t u g other := by
    rw [node?_put_below]
    split
    · intro folder
      cases folder
    · rw [node?_drop_below]
      split
      · exact (Option.some_ne_none _).symm
      · exact h.spare t u g other

/-- A schema's file is gone: now its subject is free. -/
lemma Keeps.drop_file (h : site.Keeps s d) (stored : s.find name = some a) :
    site.Keeps (Function.update s name.subjectRef none)
      (d.drop (site.below [name.tenant, name.subject, fileName name.schema])) where
  toIsOpen := h.toIsOpen.drop (List.cons_ne_nil _ _)
  tenant t node there := by
    rw [node?_drop_below, if_neg (by simp)] at there
    exact h.tenant t node there
  subject n node there := by
    rw [node?_drop_below, if_neg (by simp)] at there
    rw [node?_drop_below, if_neg (by simp)]
    exact h.subject n node there
  owner r b bound := by
    rw [Function.update_apply] at bound
    split at bound
    · cases bound
    · rw [node?_drop_below, if_neg (by simp), h.owner r b bound]
  file r g isFile := by
    obtain ⟨bound, schema⟩ := Shelf.find_eq_some_iff.1 stored
    have own (b : Aggregate) (bound' : s name.subjectRef = some b) :
        b.name.schema = name.schema := by
      cases bound.symm.trans bound'
      exact schema
    rw [node?_drop_below, Function.update_apply]
    by_cases same : r = name.subjectRef
    · subst same
      rw [if_pos rfl]
      by_cases here : g = fileName name.schema
      · rw [if_pos (by rw [here]; rfl)]
        rfl
      · rw [if_neg (by simp [here])]
        exact h.no_other_file own isFile here
    · rw [if_neg same, if_neg (steps_ne same), h.file r g isFile]
  spare t u g other := by
    rw [node?_drop_below]
    split
    · exact (Option.some_ne_none _).symm
    · exact h.spare t u g other

/-- The folder of a free subject is gone. -/
lemma Keeps.drop_subject (h : site.Keeps s d) (free : s name.subjectRef = none) :
    site.Keeps s (d.drop (site.below [name.tenant, name.subject])) where
  toIsOpen := h.toIsOpen.drop (List.cons_ne_nil _ _)
  tenant t node there := by
    rw [node?_drop_below, if_neg (by simp)] at there
    exact h.tenant t node there
  subject n node there := by
    rw [node?_drop_below] at there
    rw [node?_drop_below, if_neg (by simp)]
    split at there
    · cases there
    · exact h.subject n node there
  owner r a bound := by
    rw [node?_drop_below, if_neg, h.owner r a bound]
    intro same
    simp only [List.cons.injEq, and_true] at same
    rw [SchemaName.eq_subjectRef_iff.2 same, free] at bound
    cases bound
  file r f isFile := by
    rw [node?_drop_below, if_neg (by simp), h.file r f isFile]
  spare t u f other := by
    rw [node?_drop_below, if_neg (by simp)]
    exact h.spare t u f other

/-! ### Folders -/

/-- A tenant without a folder is not found. -/
lemma IsOpen.follow_tenant (h : site.IsOpen d) {t : String} (step : Disk.IsStep t)
    (fits : Path.Fits (schemasPath site.root ++ [t])) (absent : d.node? (site.below [t]) = none) :
    d.follow (schemasPath site.root ++ [t]) = .error .notFound := by
  rw [h.follow fits, walk_below_missing h.schemas step absent]

/-- The folder of a tenant is made. -/
lemma IsOpen.makeFolder_tenant (h : site.IsOpen d) {t : String} (step : Disk.IsStep t)
    (fits : Path.Fits (schemasPath site.root ++ [t])) (absent : d.node? (site.below [t]) = none) :
    d.makeFolder (schemasPath site.root ++ [t]) = .ok (d.put (site.below [t]) .folder) := by
  have made := Disk.makeFolder_missing step.ne_empty (h.follow_tenant step fits absent)
    h.follow_schemas h.schemas (by rw [below_append]; exact absent)
  rwa [below_append] at made

/-- The path to the folder of a tenant leads there. -/
lemma IsOpen.follow_tenant_folder (h : site.IsOpen d) {t : String} (step : Disk.IsStep t)
    (fits : Path.Fits (schemasPath site.root ++ [t]))
    (tenant : d.node? (site.below [t]) = some .folder) :
    d.follow (schemasPath site.root ++ [t]) = .ok (site.below [t]) := by
  rw [h.follow fits, walk_below h.schemas step tenant]
  rfl

/-- The folder of a subject is made in the folder of its tenant. -/
lemma IsOpen.makeFolder_subject (h : site.IsOpen d) (hn : name.HasFolder site.root)
    (tenant : d.node? (site.below [name.tenant]) = some .folder)
    (absent : d.node? (site.below [name.tenant, name.subject]) = none) :
    d.makeFolder (name.folder site.root) =
        .ok (d.put (site.below [name.tenant, name.subject]) .folder) ∧
      site.HasSubject name (d.put (site.below [name.tenant, name.subject]) .folder) := by
  have leads := h.follow_tenant_folder hn.isStep_tenant (fits_tenant hn) tenant
  have missing : d.follow (name.folder site.root) = .error .notFound := by
    rw [SchemaName.folder, h.follow hn.folder, walk_below h.schemas hn.isStep_tenant tenant]
    exact walk_below_missing tenant hn.isStep_subject absent []
  refine ⟨?_, h.put (List.cons_ne_nil _ _) .folder, ?_, ?_⟩
  · rw [folder_eq] at missing ⊢
    have made := Disk.makeFolder_missing (isPart_iff.1 hn.subject).1 missing leads tenant
      (by rw [below_append]; exact absent)
    rwa [below_append] at made
  · rw [node?_put_below, if_neg (by simp), tenant]
  · rw [node?_put_below, if_pos rfl]

/-- The folders of a subject are made as far as they are missing. -/
lemma Keeps.runs_makeFolders (h : site.Keeps s d) (hn : name.HasFolder site.root) :
    ∃ d', d.Runs (Filing.makeFolders (name.folder site.root)) (.ok ()) d' ∧
      site.HasSubject name d' ∧ site.Keeps s d' := by
  have named : name.subject ≠ "" := (isPart_iff.1 hn.subject).1
  rcases h.subject_cases name with absent | there
  · -- the tenant's folder is there from another subject, or it is made first
    rcases h.tenant_cases name.tenant with free | tenant
    · have first := h.makeFolder_tenant hn.isStep_tenant (fits_tenant hn) free
      have keeps := h.put_tenant hn.isStep_tenant (fits_tenant hn)
      have made : (d.put (site.below [name.tenant]) .folder).node? (site.below [name.tenant]) =
          some .folder := by
        rw [node?_put_below, if_pos rfl]
      obtain ⟨second, subject⟩ := keeps.makeFolder_subject hn made
        (by rw [node?_put_below, if_neg (by simp), absent])
      refine ⟨_, ?_, subject, keeps.put_subject hn made⟩
      have missing := h.follow_absent hn absent [] (by rw [List.append_nil]; exact hn.folder)
      rw [List.append_nil] at missing
      rw [folder_eq] at missing second ⊢
      exact Disk.runs_makeFolders_missing
        (Disk.makeFolder_orphan named missing
          (h.follow_tenant hn.isStep_tenant (fits_tenant hn) free))
        (Disk.runs_makeFolders_new first) second
    · obtain ⟨made, subject⟩ := h.makeFolder_subject hn tenant absent
      refine ⟨_, ?_, subject, h.put_subject hn tenant⟩
      rw [folder_eq] at made ⊢
      exact Disk.runs_makeFolders_new made
  · have leads := there.follow_folder hn
    have folder : d.HasFolder (name.folder site.root) := Disk.find_ok leads there.subject
    refine ⟨d, ?_, there, h⟩
    rw [folder_eq] at leads folder ⊢
    exact Disk.runs_makeFolders_exists (Disk.makeFolder_exists named leads there.subject) folder

/-- The folder of a subject is not made if its path is too long. That of the tenant may be made
all the same. -/
lemma Keeps.runs_makeFolders_long (h : site.Keeps s d) (plain : name.IsPlain)
    (long : ¬(name.folder site.root).Fits) :
    ∃ d', d.Runs (Filing.makeFolders (name.folder site.root)) (.error .invalidName) d' ∧
      site.Keeps s d' := by
  have named : name.subject ≠ "" := (isPart_iff.1 plain.subject).1
  obtain ⟨absent, missing⟩ := d.follow_of_not_fits long
  rw [folder_eq] at long missing ⊢
  by_cases fits : Path.Fits (schemasPath site.root ++ [name.tenant])
  · have step := plain.tenant.isStep (fits.steps _ (by simp))
    rcases h.tenant_cases name.tenant with free | tenant
    · have first := h.makeFolder_tenant step fits free
      have keeps := h.put_tenant step fits
      have made : (d.put (site.below [name.tenant]) .folder).node? (site.below [name.tenant]) =
          some .folder := by
        rw [node?_put_below, if_pos rfl]
      have leads := keeps.follow_tenant_folder step fits made
      refine ⟨_, ?_, keeps⟩
      exact Disk.runs_makeFolders_last_fault
        (Disk.makeFolder_orphan named missing (h.follow_tenant step fits free))
        (Disk.runs_makeFolders_new first) (Disk.makeFolder_long leads made long named)
        (Disk.find_error (Disk.follow_long leads made long))
    · have leads := h.follow_tenant_folder step fits tenant
      exact ⟨d, Disk.runs_makeFolders_fault (Disk.makeFolder_long leads tenant long named)
        (by decide) (Disk.find_error missing), h⟩
  · have orphan := Disk.makeFolder_orphan named missing
      (Disk.follow_long h.follow_schemas h.schemas fits)
    exact ⟨d, Disk.runs_makeFolders_fault orphan (by decide) (Disk.find_error missing), h⟩

/-! ### Files -/

/-- What is or comes into the folder of a subject is located there. -/
lemma HasSubject.locate (h : site.HasSubject name d) (hn : name.HasFolder site.root)
    (step : Disk.IsStep f) (fits : Path.Fits (name.folder site.root ++ [f])) :
    d.locate (name.folder site.root ++ [f]) =
      .ok (site.below [name.tenant, name.subject, f]) := by
  cases there : d.node? (site.below [name.tenant, name.subject, f]) with
  | none =>
    have located := Disk.locate_missing (h.follow_absent hn step fits there)
      (h.follow_folder hn) h.subject
    rwa [below_append] at located
  | some node => exact Disk.locate_ok (h.follow_entry hn step fits there)

/-- A file in the folder of a subject is written, whether it is new or not. -/
lemma HasSubject.write (h : site.HasSubject name d) (hn : name.HasFolder site.root)
    (step : Disk.IsStep f) (fits : Path.Fits (name.folder site.root ++ [f]))
    (free : d.node? (site.below [name.tenant, name.subject, f]) ≠ some .folder)
    (bytes : ByteArray) :
    d.write (name.folder site.root ++ [f]) bytes =
      .ok (d.put (site.below [name.tenant, name.subject, f]) (.file bytes)) :=
  Disk.write_located step.ne_empty (h.locate hn step fits) free bytes

/-- The folders of a subject stay when a file in it is written. -/
lemma HasSubject.put (h : site.HasSubject name d) (bytes : ByteArray) :
    site.HasSubject name (d.put (site.below [name.tenant, name.subject, f]) (.file bytes)) :=
  h.of_same rfl fun p other => by rw [d.node?_put (site.below_ne_nil _), if_neg other]

/-- No schema file is a folder. -/
lemma Keeps.file_ne_folder (h : site.Keeps s d) (schema : IsPart name.schema) :
    d.node? (site.below [name.tenant, name.subject, fileName name.schema]) ≠ some .folder := by
  rw [h.file_eq schema]
  cases s.find name with
  | none => exact (Option.some_ne_none _).symm
  | some a =>
    intro folder
    cases folder

/-- The temporary file of a schema is given the name of the schema's file. -/
lemma Keeps.rename (h : site.Keeps s d) (subject : site.HasSubject name d)
    (hn : name.HasFile site.root) (temporary : (name.temporary site.root).Fits)
    (written : d.node? (site.below
      [name.tenant, name.subject, temporaryName (fileName name.schema)]) =
        some (.file (content a))) :
    d.rename (name.temporary site.root) (name.file site.root) =
      .ok ((d.drop (site.below [name.tenant, name.subject, temporaryName (fileName name.schema)])).put
        (site.below [name.tenant, name.subject, fileName name.schema]) (.file (content a))) :=
  Disk.rename_file
    (subject.follow_entry hn.toHasFolder (hn.isStep_temporary temporary) temporary written) written
    (subject.locate hn.toHasFolder hn.isStep_file hn.file) (h.file_ne_folder hn.schema)

/-- **A schema is written to its file**, and to a temporary one before; afterwards the shelf binds
it, and nothing else has changed. -/
lemma Keeps.runs_writeFile (h : site.Keeps s d) (hn : name.HasFile site.root)
    (temporary : (name.temporary site.root).Fits)
    (own : ∀ b, s name.subjectRef = some b → b.name.schema = name.schema)
    (named : a.name.schema = name.schema) :
    ∃ d', d.Runs (writeFile (name.file site.root) a) (.ok ()) d' ∧
      site.Keeps (Function.update s name.subjectRef (some a)) d' := by
  obtain ⟨d₁, made, subject, keeps⟩ := h.runs_makeFolders hn.toHasFolder
  have spare := not_isSchemaFile_temporaryName hn.schema
  have written := subject.write hn.toHasFolder (hn.isStep_temporary temporary) temporary
    (keeps.spare _ _ _ spare) (content a)
  have keeps₂ := keeps.put_spare name.tenant name.subject spare (content a)
  have subject₂ := subject.put (f := temporaryName (fileName name.schema)) (content a)
  have renamed := keeps₂.rename (a := a) subject₂ hn temporary (by rw [node?_put_below, if_pos rfl])
  refine ⟨_, ?_, keeps₂.commit subject₂ spare own named⟩
  rw [writeFile, SchemaName.file, List.dropLast_concat, List.getLast?_concat]
  exact (Storing.runs_file made).bind ((Storing.runs_file (Disk.runs_writeText written)).bind
    (Storing.runs_file (Disk.runs_rename renamed)))

/-- No schema is written if the path of its temporary file is too long. -/
lemma Keeps.runs_writeFile_long (h : site.Keeps s d) (plain : name.IsPlain)
    (schema : IsPart name.schema) (long : ¬(name.temporary site.root).Fits) :
    ∃ d', d.Runs (writeFile (name.file site.root) a) (.error (.file .invalidName)) d' ∧
      site.Keeps s d' := by
  rw [writeFile, SchemaName.file, List.dropLast_concat, List.getLast?_concat]
  by_cases fits : (name.folder site.root).Fits
  · have hn : name.HasFolder site.root := ⟨plain.tenant, plain.subject, fits⟩
    obtain ⟨d', made, subject, keeps⟩ := h.runs_makeFolders hn
    have named : temporaryName (fileName name.schema) ≠ "" := by
      rw [temporaryName_fileName schema]
      simp
    have refused := Disk.write_long (subject.follow_folder hn) subject.subject long named
      (Wire.aggregate.pretty a).toUTF8
    have failed := Disk.runs_writeText_fault refused
    exact ⟨d', (Storing.runs_file made).bind (Storing.runs_file failed).fail, keeps⟩
  · obtain ⟨d', failed, keeps⟩ := h.runs_makeFolders_long plain fits
    exact ⟨d', (Storing.runs_file failed).fail, keeps⟩

/-- **A schema's file is removed.** -/
lemma Keeps.removeFile (h : site.Keeps s d) (hn : name.HasFile site.root)
    (stored : s.find name = some a) :
    ∃ d', d.removeFile (name.file site.root) = .ok d' ∧ site.HasSubject name d' ∧
      site.Keeps (Function.update s name.subjectRef none) d' := by
  have subject := h.hasSubject (Shelf.find_eq_some_iff.1 stored).1
  have there := h.file_eq hn.schema
  rw [stored] at there
  refine ⟨_, Disk.removeFile_file
    (subject.follow_entry hn.toHasFolder hn.isStep_file hn.file there) there, ?_, h.drop_file stored⟩
  exact subject.of_same rfl fun p other => by rw [d.node?_drop (site.below_ne_nil _), if_neg other]

/-- The folder of a free subject is removed if nothing is in it. -/
lemma Keeps.removeFolder (h : site.Keeps s d) (subject : site.HasSubject name d)
    (hn : name.HasFolder site.root) (free : s name.subjectRef = none)
    (empty : (d.children (site.below [name.tenant, name.subject])).isEmpty = true) :
    ∃ d', d.removeFolder (name.folder site.root) = .ok d' ∧ site.Keeps s d' :=
  ⟨_, Disk.removeFolder_empty (subject.follow_folder hn) subject.subject empty,
    h.drop_subject free⟩

/-! ### Opening -/

/-- **The folder of all schemas is made** in an empty folder, and there is nothing in it. -/
lemma runs_makeFolders (site : Site) :
    ∃ d, site.disk.Runs (Filing.makeFolders (schemasPath site.root)) (.ok ()) d ∧
      site.Keeps Shelf.empty d := by
  have missing : site.disk.follow (schemasPath site.root) = .error .notFound := by
    rw [Disk.follow_eq site.fits, schemasPath, Disk.walk_append, site.walk_root]
    exact Disk.walk_missing site.isFolder isStep_schemas (site.node?_below []) []
  have made : site.disk.makeFolder (schemasPath site.root) =
      .ok (site.disk.put (site.below []) .folder) :=
    Disk.makeFolder_missing isStep_schemas.ne_empty missing site.leads site.isFolder
      (site.node?_below [])
  have nodes (steps : List String) (some : steps ≠ []) :
      (site.disk.put (site.below []) .folder).node? (site.below steps) = none := by
    rw [node?_put_below, if_neg some, site.node?_below]
  refine ⟨_, Disk.runs_makeFolders_new made, ?_⟩
  exact
    { current := rfl
      kept := fun p node found => by
        rw [site.disk.node?_put (site.below_ne_nil []), if_neg, found]
        rintro rfl
        rw [site.node?_below] at found
        cases found
      schemas := by rw [node?_put_below, if_pos rfl]
      tenant := fun t node there => by rw [nodes _ (List.cons_ne_nil _ _)] at there; cases there
      subject := fun n node there => by rw [nodes _ (List.cons_ne_nil _ _)] at there; cases there
      owner := fun r a bound => by cases bound
      file := fun r f _ => nodes _ (List.cons_ne_nil _ _)
      spare := fun t u f _ => by
        rw [nodes _ (List.cons_ne_nil _ _)]
        exact (Option.some_ne_none _).symm }

/-- The folder of all schemas is left alone if it is there. -/
lemma IsOpen.runs_makeFolders (h : site.IsOpen d) :
    d.Runs (Filing.makeFolders (schemasPath site.root)) (.ok ()) d :=
  Disk.runs_makeFolders_exists
    (Disk.makeFolder_exists isStep_schemas.ne_empty h.follow_schemas h.schemas)
    (Disk.find_ok h.follow_schemas h.schemas)

end Site

end SchemaLedger
