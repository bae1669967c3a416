import SchemaLedger.Proofs.Files.Disk
import SchemaLedger.Proofs.Name
import SchemaLedger.Store.File

/-!
Calls that both stores serve.

* `SchemaName.eq_of_fullName`, `SchemaName.subjectRef_eq_of_key`: keys tell names apart, because
  no part of a name holds a slash.
* `SchemaName.IsPlain`: the folder of a subject has a path. Every other name is refused
  (`SchemaName.subjectPath_cases`, `SchemaName.schemaPath_cases`).
* `StoreCall.IsProper`: what a call writes is sound and has the name it is written under.
* `StoreCall.IsSound`: besides, the names of a call can be steps of a path that the file system
  takes.
-/

namespace SchemaLedger

/-! ### Parts of names -/

/-- A part of a name that can be a step of a path. -/
def IsPart (part : String) : Prop :=
  FileStore.checkPart part = .ok part

lemma isPart_iff {part : String} :
    IsPart part ↔ part ≠ "" ∧ part ≠ "." ∧ part ≠ ".." ∧
      ∀ c ∈ part.toList, c ≠ '/' ∧ c ≠ '\\' ∧ c ≠ '\x00' := by
  unfold IsPart FileStore.checkPart
  split
  · rename_i refused
    constructor
    · intro h
      cases h
    · rintro ⟨some, stays, up, plain⟩
      rcases refused with empty | dot | dots | special
      · exact absurd empty some
      · exact absurd dot stays
      · exact absurd dots up
      · obtain ⟨c, hc, bad⟩ := List.any_eq_true.1 special
        obtain ⟨slash, backslash, null⟩ := plain c hc
        simp [slash, backslash, null] at bad
  · rename_i taken
    simp only [not_or, List.any_eq_true, not_exists, not_and] at taken
    obtain ⟨some, stays, up, plain⟩ := taken
    refine ⟨fun _ => ⟨some, stays, up, fun c hc => ?_⟩, fun _ => rfl⟩
    have allowed := plain c hc
    simp only [Bool.or_eq_true, beq_iff_eq, not_or] at allowed
    exact ⟨allowed.1.1, allowed.1.2, allowed.2⟩

/-- A part of a name is taken as it is, or it is refused. -/
lemma isPart_or_refused (part : String) :
    IsPart part ∨ FileStore.checkPart part = .error (.invalidKey part) := by
  unfold IsPart FileStore.checkPart
  split
  · exact .inr rfl
  · exact .inl rfl

/-- There is no slash in a part of a name. -/
lemma IsPart.no_slash {part : String} (h : IsPart part) : '/' ∉ part.toList :=
  fun slash => ((isPart_iff.1 h).2.2.2 _ slash).1 rfl

/-- A part of a name leads one folder down. -/
lemma IsPart.isStep {part : String} (h : IsPart part) (short : part.utf8ByteSize ≤ Disk.maxName) :
    Disk.IsStep part := by
  obtain ⟨some, stays, up, plain⟩ := isPart_iff.1 h
  refine ⟨?_, by simp [Path.stays, some, stays], up, short⟩
  rintro rfl
  exact (plain '/' (List.mem_singleton_self _)).1 rfl

/-! ### Names of files -/

namespace FileStore

lemma extension?_fileName {schema : String} (h : IsPart schema) :
    FileName.extension? (fileName schema) = some extension :=
  FileName.extension?_append (isPart_iff.1 h).1 (by decide) (by decide)

lemma stem_fileName {schema : String} (h : IsPart schema) :
    FileName.stem (fileName schema) = schema :=
  FileName.stem_append (isPart_iff.1 h).1 (by decide) (by decide)

lemma temporaryName_fileName {schema : String} (h : IsPart schema) :
    temporaryName (fileName schema) = schema ++ ".json.tmp" := by
  have parts : "." ++ (extension ++ ".tmp") = ".json.tmp" := rfl
  rw [temporaryName, fileName, FileName.withExtension_append (isPart_iff.1 h).1 (by decide)
    (by decide), String.append_assoc, parts]

lemma fileName_eq (schema : String) : fileName schema = schema ++ ".json" := by
  have parts : "." ++ extension = ".json" := rfl
  rw [fileName, String.append_assoc, parts]

/-- Different schemas have different files. -/
lemma fileName_inj {schema schema' : String} : fileName schema = fileName schema' ↔ schema = schema' := by
  rw [fileName_eq, fileName_eq]
  constructor
  · intro h
    have texts := congrArg String.toList h
    rw [String.toList_append, String.toList_append] at texts
    exact String.toList_inj.1 (List.append_cancel_right texts)
  · rintro rfl
    rfl

/-- A name that is long enough leads one folder down. -/
lemma isStep_of_length {name : String} (long : 2 < name.length)
    (short : name.utf8ByteSize ≤ Disk.maxName) : Disk.IsStep name := by
  refine ⟨?_, ?_, ?_, short⟩
  · rintro rfl
    exact absurd long (by decide)
  · simp only [Path.stays, Bool.or_eq_false_iff, beq_eq_false_iff_ne]
    constructor
    · rintro rfl
      exact absurd long (by decide)
    · rintro rfl
      exact absurd long (by decide)
  · rintro rfl
    exact absurd long (by decide)

end FileStore

/-! ### Names of schemas -/

/-- The folder of a subject below a root. -/
def SchemaName.folder (root : Path) (n : SchemaName) : Path :=
  FileStore.schemasPath root ++ [n.tenant, n.subject]

/-- The file of a schema below a root. -/
def SchemaName.file (root : Path) (n : SchemaName) : Path :=
  n.folder root ++ [FileStore.fileName n.schema]

/-- The file under which a schema is first written. -/
def SchemaName.temporary (root : Path) (n : SchemaName) : Path :=
  n.folder root ++ [FileStore.temporaryName (FileStore.fileName n.schema)]

/-- Names of one subject have one folder. -/
lemma SchemaName.folder_congr {root : Path} {m n : SchemaName} (h : m.subjectRef = n.subjectRef) :
    m.folder root = n.folder root :=
  congrArg (fun r => FileStore.schemasPath root ++ [r.tenant, r.subject]) h

/-- Names of one schema have one file. -/
lemma SchemaName.file_congr {root : Path} {m n : SchemaName} (h : m.subjectRef = n.subjectRef)
    (same : m.schema = n.schema) : m.file root = n.file root := by
  rw [file, file, folder_congr h, same]

/-- Tenant and subject can be steps of a path. -/
structure SchemaName.IsPlain (n : SchemaName) : Prop where
  tenant : IsPart n.tenant
  subject : IsPart n.subject

/-- The path of a subject's folder is known, or the name is refused. -/
lemma SchemaName.subjectPath_cases (root : Path) (n : SchemaName) :
    (n.IsPlain ∧ FileStore.subjectPath root n = .ok (n.folder root)) ∨
      ∃ part, FileStore.subjectPath root n = .error (.invalidKey part) := by
  rw [FileStore.subjectPath]
  rcases isPart_or_refused n.tenant with tenant | refused
  · rcases isPart_or_refused n.subject with subject | refused
    · rw [tenant, subject]
      exact .inl ⟨⟨tenant, subject⟩, rfl⟩
    · rw [tenant, refused]
      exact .inr ⟨n.subject, rfl⟩
  · rw [refused]
    exact .inr ⟨n.tenant, rfl⟩

/-- The path of a schema's file is known, or the name is refused. -/
lemma SchemaName.schemaPath_cases (root : Path) (n : SchemaName) :
    (n.IsPlain ∧ IsPart n.schema ∧ FileStore.schemaPath root n = .ok (n.file root)) ∨
      ∃ part, FileStore.schemaPath root n = .error (.invalidKey part) := by
  rw [FileStore.schemaPath]
  rcases isPart_or_refused n.schema with schema | refused
  · rw [schema]
    rcases n.subjectPath_cases root with ⟨plain, folder⟩ | ⟨part, refused⟩
    · rw [folder]
      exact .inl ⟨plain, schema, rfl⟩
    · rw [refused]
      exact .inr ⟨part, rfl⟩
  · rw [refused]
    exact .inr ⟨n.schema, rfl⟩

/-- The subject's folder can be reached below a root. -/
structure SchemaName.HasFolder (root : Path) (n : SchemaName) : Prop where
  tenant : IsPart n.tenant
  subject : IsPart n.subject
  folder : (n.folder root).Fits

/-- The schema's file can be reached below a root. -/
structure SchemaName.HasFile (root : Path) (n : SchemaName) : Prop extends n.HasFolder root where
  schema : IsPart n.schema
  file : (n.file root).Fits

lemma SchemaName.HasFolder.isStep_tenant {root : Path} {n : SchemaName} (h : n.HasFolder root) :
    Disk.IsStep n.tenant :=
  h.tenant.isStep (h.folder.steps _ (by simp [SchemaName.folder]))

lemma SchemaName.HasFolder.isStep_subject {root : Path} {n : SchemaName} (h : n.HasFolder root) :
    Disk.IsStep n.subject :=
  h.subject.isStep (h.folder.steps _ (by simp [SchemaName.folder]))

lemma SchemaName.HasFolder.isPlain {root : Path} {n : SchemaName} (h : n.HasFolder root) :
    n.IsPlain :=
  ⟨h.tenant, h.subject⟩

lemma SchemaName.IsPlain.subjectPath {n : SchemaName} (h : n.IsPlain) (root : Path) :
    FileStore.subjectPath root n = .ok (n.folder root) := by
  rw [FileStore.subjectPath, h.tenant, h.subject]
  rfl

lemma SchemaName.IsPlain.schemaPath {n : SchemaName} (h : n.IsPlain) (schema : IsPart n.schema)
    (root : Path) : FileStore.schemaPath root n = .ok (n.file root) := by
  rw [FileStore.schemaPath, schema, h.subjectPath]
  rfl

/-- With the temporary file of a schema, the file of the schema can be reached. -/
lemma SchemaName.IsPlain.hasFile {root : Path} {n : SchemaName} (h : n.IsPlain)
    (schema : IsPart n.schema) (temporary : (n.temporary root).Fits) : n.HasFile root where
  tenant := h.tenant
  subject := h.subject
  schema := schema
  folder := by
    refine temporary.of_append ?_
    rw [FileStore.temporaryName_fileName schema]
    simp
  file := by
    refine temporary.of_shorter (by simp [folder]) ?_
    rw [FileStore.temporaryName_fileName schema, FileStore.fileName_eq]
    simp only [String.utf8ByteSize_append]
    exact Nat.add_le_add_left (by decide) _

/-- The file of a schema is one step from its subject's folder. -/
lemma SchemaName.HasFile.isStep_file {root : Path} {n : SchemaName} (h : n.HasFile root) :
    Disk.IsStep (FileStore.fileName n.schema) := by
  refine FileStore.isStep_of_length ?_ (h.file.steps _ (by simp [SchemaName.file]))
  rw [FileStore.fileName_eq, String.length_append]
  exact Nat.lt_of_lt_of_le (by decide) (Nat.le_add_left 5 _)

/-- The temporary file is one step from the subject's folder, too. -/
lemma SchemaName.HasFile.isStep_temporary {root : Path} {n : SchemaName} (h : n.HasFile root)
    (fits : (n.temporary root).Fits) :
    Disk.IsStep (FileStore.temporaryName (FileStore.fileName n.schema)) := by
  refine FileStore.isStep_of_length ?_ (fits.steps _ (by simp [SchemaName.temporary]))
  rw [FileStore.temporaryName_fileName h.schema, String.length_append]
  exact Nat.lt_of_lt_of_le (by decide) (Nat.le_add_left 9 _)

/-- A subject is its tenant and its name. -/
lemma SchemaName.eq_subjectRef_iff {n : SchemaName} {r : SubjectRef} :
    r = n.subjectRef ↔ r.tenant = n.tenant ∧ r.subject = n.subject := by
  obtain ⟨tenant, subject⟩ := r
  rw [subjectRef, SubjectRef.mk.injEq]

/-- The folder of a subject can be split into its steps. -/
lemma SchemaName.HasFolder.hasPlainScope {root : Path} {n : SchemaName} (h : n.HasFolder root) :
    n.HasPlainScope :=
  ⟨h.tenant.no_slash, h.subject.no_slash⟩

/-- Different subjects have different keys. -/
lemma SchemaName.subjectRef_eq_of_key {root : Path} {m n : SchemaName} (hm : m.HasFolder root)
    (hn : n.HasFolder root) (h : m.subjectKey = n.subjectKey) : m.subjectRef = n.subjectRef :=
  subjectRef_eq_of_subjectKey hm.hasPlainScope hn.hasPlainScope h

/-- Different schemas have different full names. -/
lemma SchemaName.eq_of_fullName {root : Path} {m n : SchemaName} (hm : m.HasFolder root)
    (hn : n.HasFolder root) (h : m.fullName = n.fullName) :
    m.subjectRef = n.subjectRef ∧ m.schema = n.schema :=
  unversioned_eq_iff.1 (unversioned_eq_of_fullName hm.hasPlainScope hn.hasPlainScope h)

/-! ### Calls -/

/-- A schema that is not refused when it is read. -/
structure Aggregate.IsReadable (a : Aggregate) : Prop where
  contiguous : a.ledger.isContiguous = true
  authentic : a.ledger.isAuthentic = true
  counts : Wire.aggregate.Fits a

/-- A schema that the file system takes and that is not refused when it is read. -/
structure Aggregate.IsStorable (root : Path) (a : Aggregate) : Prop where
  name : a.name.HasFile root
  temporary : (a.name.temporary root).Fits
  contiguous : a.ledger.isContiguous = true
  authentic : a.ledger.isAuthentic = true
  counts : Wire.aggregate.Fits a

/-- A schema that the file system takes, whether or not it is refused when it is read. -/
structure Aggregate.IsWritable (root : Path) (a : Aggregate) : Prop where
  name : a.name.HasFile root
  temporary : (a.name.temporary root).Fits
  counts : Wire.aggregate.Fits a

lemma Aggregate.IsStorable.isWritable {root : Path} {a : Aggregate} (h : a.IsStorable root) :
    a.IsWritable root :=
  ⟨h.name, h.temporary, h.counts⟩

/-- Whether a schema is refused when it is read. -/
def Aggregate.verify (a : Aggregate) : Except StoreError Unit :=
  if !a.ledger.isContiguous then .error (.corrupted a.name.fullName .gap)
  else if !a.ledger.isAuthentic then .error (.corrupted a.name.fullName .tampered)
  else .ok ()

/-- A schema is not refused if its ledger has no gap and its checksums are right. -/
lemma Aggregate.verify_eq_ok_iff {a : Aggregate} :
    a.verify = .ok () ↔ a.ledger.isContiguous = true ∧ a.ledger.isAuthentic = true := by
  rw [verify]
  cases a.ledger.isContiguous <;> cases a.ledger.isAuthentic <;> simp

/-- A schema that is refused has a gap in its ledger, or a wrong checksum. -/
lemma Aggregate.of_verify_error {a : Aggregate} {e : StoreError} (refused : a.verify = .error e) :
    ∃ reason, e = .corrupted a.name.fullName reason ∧
      (a.ledger.isContiguous = false ∨ a.ledger.isAuthentic = false) := by
  rw [verify] at refused
  split at refused
  · rename_i gap
    cases refused
    exact ⟨_, rfl, .inl (by simpa using gap)⟩
  · split at refused
    · rename_i tampered
      cases refused
      exact ⟨_, rfl, .inr (by simpa using tampered)⟩
    · cases refused

/-- What is written has the name it is written under, apart from the version. -/
structure Aggregate.IsNamed (a : Aggregate) (name : SchemaName) : Prop where
  tenant : a.name.tenant = name.tenant
  subject : a.name.subject = name.subject
  schema : a.name.schema = name.schema

/-- What a call writes has the name it is written under, and its counts can be written. -/
def StoreCall.IsTitled : StoreCall → Prop
  | .register name a => a.IsNamed name ∧ Wire.aggregate.Fits a
  | .replace name a _ => a.IsNamed name ∧ Wire.aggregate.Fits a
  | _ => True

/-- What a call writes is sound and has the name it is written under. -/
def StoreCall.IsProper : StoreCall → Prop
  | .register name a => a.IsNamed name ∧ a.IsReadable
  | .replace name a _ => a.IsNamed name ∧ a.IsReadable
  | _ => True

/-- The names of a call can be steps of a path that the file system takes, and what it writes is
sound and has the name it is written under. -/
def StoreCall.IsSound (root : Path) : StoreCall → Prop
  | .fetch name _ => name.HasFile root
  | .fetchRecord name _ => name.HasFolder root
  | .fetchRecords name _ => name.HasFolder root
  | .register name a => a.IsNamed name ∧ a.IsStorable root
  | .replace name a _ => a.IsNamed name ∧ a.IsStorable root
  | .remove name _ => name.HasFile root

lemma StoreCall.IsProper.isTitled {c : StoreCall} (h : c.IsProper) : c.IsTitled := by
  cases c with
  | fetch | fetchRecord | fetchRecords | remove => trivial
  | register name a => exact ⟨h.1, h.2.counts⟩
  | replace name a expected => exact ⟨h.1, h.2.counts⟩

lemma StoreCall.IsSound.isProper {root : Path} {c : StoreCall} (h : c.IsSound root) :
    c.IsProper := by
  cases c with
  | fetch name cached => trivial
  | fetchRecord name cached => trivial
  | fetchRecords name cached => trivial
  | register name a => exact ⟨h.1, h.2.contiguous, h.2.authentic, h.2.counts⟩
  | replace name a expected => exact ⟨h.1, h.2.contiguous, h.2.authentic, h.2.counts⟩
  | remove name expected => trivial

section Named

variable {a : Aggregate} {name : SchemaName} (h : a.IsNamed name)
include h

lemma Aggregate.IsNamed.subjectRef : a.name.subjectRef = name.subjectRef := by
  rw [SchemaName.subjectRef, h.tenant, h.subject]
  rfl

lemma Aggregate.IsNamed.fullName : a.name.fullName = name.fullName := by
  rw [SchemaName.fullName_eq, SchemaName.fullName_eq, h.subjectRef, h.schema]

lemma Aggregate.IsNamed.folder (root : Path) : a.name.folder root = name.folder root := by
  rw [SchemaName.folder, h.tenant, h.subject]
  rfl

lemma Aggregate.IsNamed.file (root : Path) : a.name.file root = name.file root := by
  rw [SchemaName.file, h.folder, h.schema]
  rfl

lemma Aggregate.IsNamed.temporary (root : Path) :
    a.name.temporary root = name.temporary root := by
  rw [SchemaName.temporary, h.folder, h.schema]
  rfl

lemma Aggregate.IsNamed.hasFile {root : Path} (stored : a.name.HasFile root) :
    name.HasFile root where
  tenant := h.tenant ▸ stored.tenant
  subject := h.subject ▸ stored.subject
  folder := h.folder root ▸ stored.folder
  schema := h.schema ▸ stored.schema
  file := h.file root ▸ stored.file

/-- A schema can be written under a name whose files can be reached. -/
lemma Aggregate.IsNamed.isWritable {root : Path} (counts : Wire.aggregate.Fits a)
    (hn : name.HasFile root) (temporary : (name.temporary root).Fits) : a.IsWritable root where
  name :=
    { tenant := h.tenant ▸ hn.tenant
      subject := h.subject ▸ hn.subject
      folder := (h.folder root).symm ▸ hn.folder
      schema := h.schema ▸ hn.schema
      file := (h.file root).symm ▸ hn.file }
  temporary := (h.temporary root).symm ▸ temporary
  counts := counts

/-- A readable schema can be stored there. -/
lemma Aggregate.IsNamed.isStorable {root : Path} (readable : a.IsReadable) (hn : name.HasFile root)
    (temporary : (name.temporary root).Fits) : a.IsStorable root :=
  have writable := h.isWritable readable.counts hn temporary
  ⟨writable.name, writable.temporary, readable.contiguous, readable.authentic, readable.counts⟩

end Named

end SchemaLedger
