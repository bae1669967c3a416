import SchemaLedger.Proofs.Files.Running
import SchemaLedger.Proofs.Store.Shelf

/-!
The folder of a store on a disk.

* `Site`: an empty folder in which a store can be opened.
* `Site.Keeps`: the schema files below the folder are those of the schemas that a shelf binds.
  Folders without schemas and files that are no schema files may be left over from a store that
  was stopped; nothing is read from them.
* `Site.Keeps.find_file`: what a store finds under the path of a schema.
* `Site.Keeps.mem_schemaFiles`: which schema files it finds in the folder of a subject.
-/

namespace SchemaLedger

open FileStore

/-- An empty folder on a disk, a path to it, and room for a folder below. -/
structure Site where
  disk : Disk
  root : Path
  place : List String
  leads : disk.follow root = .ok place
  isFolder : disk.node? place = some .folder
  isEmpty : ∀ steps, steps ≠ [] → disk.node? (place ++ steps) = none
  fits : (schemasPath root).Fits

namespace Site

/-- A place below the folder of all schemas. -/
def below (site : Site) (steps : List String) : List String :=
  site.place ++ "schemas" :: steps

variable {site : Site} {steps steps' : List String} {d : Disk}

lemma below_append (site : Site) (steps more : List String) :
    site.below steps ++ more = site.below (steps ++ more) := by
  simp [below]

lemma below_inj : site.below steps = site.below steps' ↔ steps = steps' := by
  simp [below]

lemma below_ne_nil (site : Site) (steps : List String) : site.below steps ≠ [] := by
  simp [below]

/-- Nothing was below the folder at first. -/
lemma node?_below (site : Site) (steps : List String) : site.disk.node? (site.below steps) = none :=
  site.isEmpty _ (List.cons_ne_nil _ _)

/-- The disk with one more folder or file below the folder of all schemas. -/
lemma node?_put_below (d : Disk) (steps : List String) (node : Node) (steps' : List String) :
    (d.put (site.below steps) node).node? (site.below steps') =
      if steps' = steps then some node else d.node? (site.below steps') := by
  rw [d.node?_put (site.below_ne_nil steps)]
  simp only [below_inj]

lemma node?_drop_below (d : Disk) (steps steps' : List String) :
    (d.drop (site.below steps)).node? (site.below steps') =
      if steps' = steps then none else d.node? (site.below steps') := by
  rw [d.node?_drop (site.below_ne_nil steps)]
  simp only [below_inj]

/-- A step below the folder of all schemas to something that is there. -/
lemma walk_below {node : Node} {x : String} (folder : d.node? (site.below steps) = some .folder)
    (step : Disk.IsStep x) (there : d.node? (site.below (steps ++ [x])) = some node) (rest : Path) :
    d.walk (site.below steps) (x :: rest) = d.walk (site.below (steps ++ [x])) rest := by
  rw [Disk.walk_step folder step, below_append]
  rw [below_append, there]
  rfl

/-- A step below the folder of all schemas to something that is not there. -/
lemma walk_below_missing {x : String} (folder : d.node? (site.below steps) = some .folder)
    (step : Disk.IsStep x) (absent : d.node? (site.below (steps ++ [x])) = none) (rest : Path) :
    d.walk (site.below steps) (x :: rest) = .error .notFound :=
  Disk.walk_missing folder step (by rw [below_append, absent]) rest

/-- The path to the folder is walked on the first disk. -/
lemma walk_root (site : Site) : site.disk.walk site.disk.current site.root = .ok site.place := by
  have leads := site.leads
  rw [Disk.follow] at leads
  split at leads
  · cases leads
  · exact leads

/-! ### The folder of all schemas -/

lemma isStep_schemas : Disk.IsStep "schemas" :=
  ⟨by decide, by decide, by decide, by decide⟩

/-- There is a folder of all schemas, and nothing else was changed outside of it. -/
structure IsOpen (site : Site) (d : Disk) : Prop where
  current : d.current = site.disk.current
  kept : ∀ p node, site.disk.node? p = some node → d.node? p = some node
  schemas : d.node? (site.below []) = some .folder

/-- What is found at first is found later. -/
lemma IsOpen.find_kept (h : site.IsOpen d) {path : Path} {node : Node}
    (found : site.disk.find path = .ok node) : d.find path = .ok node := by
  obtain ⟨place, leads, there⟩ := Disk.exists_of_find found
  obtain ⟨short, walked⟩ := Disk.follow_ok_iff.1 leads
  refine Disk.find_ok (Disk.follow_ok_iff.2 ⟨short, ?_⟩) (h.kept _ _ there)
  rw [h.current]
  exact Disk.walk_mono h.kept walked

/-- A change at one place below the folder of all schemas changes nothing outside of it. -/
lemma IsOpen.of_same (h : site.IsOpen d) {d' : Disk} (some : steps ≠ [])
    (current : d'.current = d.current)
    (same : ∀ p, p ≠ site.below steps → d'.node? p = d.node? p) : site.IsOpen d' where
  current := current.trans h.current
  kept p node found := by
    have other : p ≠ site.below steps := by
      rintro rfl
      rw [site.node?_below] at found
      cases found
    rw [same p other]
    exact h.kept p node found
  schemas := by
    rw [same _ fun here => some (below_inj.1 here).symm, h.schemas]

lemma IsOpen.put (h : site.IsOpen d) (some : steps ≠ []) (node : Node) :
    site.IsOpen (d.put (site.below steps) node) :=
  h.of_same some rfl fun p other => by rw [d.node?_put (site.below_ne_nil steps), if_neg other]

lemma IsOpen.drop (h : site.IsOpen d) (some : steps ≠ []) :
    site.IsOpen (d.drop (site.below steps)) :=
  h.of_same some rfl fun p other => by rw [d.node?_drop (site.below_ne_nil steps), if_neg other]

/-- Paths lead through the folder of all schemas. -/
lemma IsOpen.follow (h : site.IsOpen d) (fits : Path.Fits (schemasPath site.root ++ steps)) :
    d.follow (schemasPath site.root ++ steps) = d.walk (site.below []) steps := by
  have root : d.walk d.current site.root = .ok site.place := by
    rw [h.current]
    exact Disk.walk_mono h.kept site.walk_root
  have folder : d.node? site.place = some .folder := h.kept _ _ site.isFolder
  have there : (d.node? (site.place ++ ["schemas"])).isSome = true := by
    rw [show site.place ++ ["schemas"] = site.below [] from rfl, h.schemas]
    rfl
  rw [Disk.follow_eq fits, schemasPath, List.append_assoc, List.singleton_append,
    Disk.walk_append, root]
  exact Disk.walk_step folder isStep_schemas there steps

/-- The path to the folder of all schemas leads there. -/
lemma IsOpen.follow_schemas (h : site.IsOpen d) :
    d.follow (schemasPath site.root) = .ok (site.below []) := by
  have leads := h.follow (show Path.Fits (schemasPath site.root ++ []) by
    rw [List.append_nil]
    exact site.fits)
  rwa [List.append_nil] at leads

variable {name : SchemaName} {f : String}

/-- The folders of a subject and of its tenant are there. -/
structure HasSubject (site : Site) (name : SchemaName) (d : Disk) : Prop extends site.IsOpen d where
  tenant : d.node? (site.below [name.tenant]) = some .folder
  subject : d.node? (site.below [name.tenant, name.subject]) = some .folder

/-- A change in the folder of a subject leaves the folder where it is. -/
lemma HasSubject.of_same (h : site.HasSubject name d) {d' : Disk} (current : d'.current = d.current)
    (same : ∀ p, p ≠ site.below [name.tenant, name.subject, f] → d'.node? p = d.node? p) :
    site.HasSubject name d' where
  toIsOpen := h.toIsOpen.of_same (List.cons_ne_nil _ _) current same
  tenant := by
    rw [same _ (by simp [below_inj]), h.tenant]
  subject := by
    rw [same _ (by simp [below_inj]), h.subject]

/-- The steps of a subject's path lead to the folder of the subject. -/
lemma HasSubject.walk (h : site.HasSubject name d) (hn : name.HasFolder site.root) (rest : Path) :
    d.walk (site.below []) (name.tenant :: name.subject :: rest) =
      d.walk (site.below [name.tenant, name.subject]) rest := by
  rw [walk_below h.schemas hn.isStep_tenant h.tenant, List.nil_append,
    walk_below h.tenant hn.isStep_subject h.subject]
  rfl

lemma HasSubject.follow_folder (h : site.HasSubject name d) (hn : name.HasFolder site.root) :
    d.follow (name.folder site.root) = .ok (site.below [name.tenant, name.subject]) := by
  rw [SchemaName.folder, h.follow hn.folder, h.walk hn]
  rfl

/-- Something that is in the folder of a subject is found. -/
lemma HasSubject.follow_entry (h : site.HasSubject name d) (hn : name.HasFolder site.root)
    (step : Disk.IsStep f) (fits : Path.Fits (name.folder site.root ++ [f])) {node : Node}
    (there : d.node? (site.below [name.tenant, name.subject, f]) = some node) :
    d.follow (name.folder site.root ++ [f]) =
      .ok (site.below [name.tenant, name.subject, f]) := by
  rw [SchemaName.folder, List.append_assoc] at fits ⊢
  rw [h.follow fits, List.cons_append, List.singleton_append, h.walk hn,
    walk_below h.subject step there]
  rfl

/-- Something that is not in the folder of a subject is not found. -/
lemma HasSubject.follow_absent (h : site.HasSubject name d) (hn : name.HasFolder site.root)
    (step : Disk.IsStep f) (fits : Path.Fits (name.folder site.root ++ [f]))
    (absent : d.node? (site.below [name.tenant, name.subject, f]) = none) :
    d.follow (name.folder site.root ++ [f]) = .error .notFound := by
  rw [SchemaName.folder, List.append_assoc] at fits ⊢
  rw [h.follow fits, List.cons_append, List.singleton_append, h.walk hn,
    walk_below_missing h.subject step absent]

/-! ### One file for each schema -/

/-- The text that is stored for a schema. -/
def content (a : Aggregate) : ByteArray :=
  (Wire.aggregate.pretty a).toUTF8

/-- The file of a given name in the folder of a subject, if its schema has that file. -/
def fileIn (x : Option Aggregate) (f : String) : Option Node :=
  (x.filter fun a => fileName a.name.schema == f).map fun a => .file (content a)

lemma fileIn_some (a : Aggregate) :
    fileIn (some a) (fileName a.name.schema) = some (.file (content a)) := by
  simp [fileIn, Option.filter]

lemma fileIn_eq_none {x : Option Aggregate} {f : String}
    (other : ∀ a, x = some a → fileName a.name.schema ≠ f) : fileIn x f = none := by
  cases x with
  | none => rfl
  | some a => simp [fileIn, Option.filter, other a rfl]

/-- What stands under the name of a schema file is the file of the schema with that name. -/
lemma fileIn_eq_some_iff {x : Option Aggregate} {f : String} {node : Node} :
    fileIn x f = some node ↔
      ∃ a, x = some a ∧ fileName a.name.schema = f ∧ node = .file (content a) := by
  simp only [fileIn, Option.map_eq_some_iff, Option.filter_eq_some_iff, beq_iff_eq, and_assoc,
    eq_comm (a := node)]

/-- The name is that of a schema file, by its extension. -/
def IsSchemaFile (f : String) : Prop :=
  FileName.extension? f = some extension

lemma isSchemaFile_fileName {schema : String} (h : IsPart schema) : IsSchemaFile (fileName schema) :=
  extension?_fileName h

/-- No temporary file has the name of a schema file. -/
lemma not_isSchemaFile_temporaryName {schema : String} (h : IsPart schema) :
    ¬IsSchemaFile (temporaryName (fileName schema)) := by
  have parts : schema ++ ".json.tmp" = schema ++ ".json" ++ "." ++ "tmp" := by
    simp [String.append_assoc]
  rw [IsSchemaFile, temporaryName_fileName h, parts,
    FileName.extension?_append (by simp) (by decide) (by decide)]
  decide

/-- Below the folder of all schemas stand the folders of tenants, and in these the folders of
subjects. A subject to which the shelf binds a schema has its folder, and of schema files there is
nothing in it but that of the schema. -/
structure Keeps (site : Site) (s : Shelf) (d : Disk) : Prop extends site.IsOpen d where
  tenant : ∀ t node, d.node? (site.below [t]) = some node →
    node = .folder ∧ Disk.IsStep t ∧ Path.Fits (schemasPath site.root ++ [t])
  subject : ∀ (n : SchemaName) (node : Node),
    d.node? (site.below [n.tenant, n.subject]) = some node →
      node = .folder ∧ n.HasFolder site.root ∧ d.node? (site.below [n.tenant]) = some .folder
  owner : ∀ r a, s r = some a → d.node? (site.below [r.tenant, r.subject]) = some .folder
  file : ∀ r f, IsSchemaFile f →
    d.node? (site.below [r.tenant, r.subject, f]) = fileIn (s r) f
  spare : ∀ t u f, ¬IsSchemaFile f → d.node? (site.below [t, u, f]) ≠ some .folder

variable {s : Shelf} {a b : Aggregate}

/-- A subject has no folder, or its folder can be entered. -/
lemma Keeps.subject_cases (h : site.Keeps s d) (name : SchemaName) :
    d.node? (site.below [name.tenant, name.subject]) = none ∨ site.HasSubject name d := by
  cases there : d.node? (site.below [name.tenant, name.subject]) with
  | none => exact .inl rfl
  | some node =>
    obtain ⟨rfl, -, tenant⟩ := h.subject name node there
    exact .inr ⟨h.toIsOpen, tenant, there⟩

/-- A tenant has no folder, or its folder is there. -/
lemma Keeps.tenant_cases (h : site.Keeps s d) (t : String) :
    d.node? (site.below [t]) = none ∨ d.node? (site.below [t]) = some .folder := by
  cases there : d.node? (site.below [t]) with
  | none => exact .inl rfl
  | some node =>
    obtain ⟨rfl, -, -⟩ := h.tenant t node there
    exact .inr rfl

/-- The folder of a bound subject is there. -/
lemma Keeps.hasSubject (h : site.Keeps s d) (bound : s name.subjectRef = some a) :
    site.HasSubject name d := by
  have subject : d.node? (site.below [name.tenant, name.subject]) = some .folder :=
    h.owner _ a bound
  obtain ⟨-, -, tenant⟩ := h.subject name .folder subject
  exact ⟨h.toIsOpen, tenant, subject⟩

/-- A subject without folder is free. -/
lemma Keeps.free_of_absent (h : site.Keeps s d)
    (absent : d.node? (site.below [name.tenant, name.subject]) = none) :
    s name.subjectRef = none := by
  rw [Option.eq_none_iff_forall_ne_some]
  intro a bound
  have subject : d.node? (site.below [name.tenant, name.subject]) = some .folder :=
    h.owner _ a bound
  rw [absent] at subject
  cases subject

/-- A folder of a subject that is not there cannot be entered. -/
lemma Keeps.follow_absent (h : site.Keeps s d) (hn : name.HasFolder site.root)
    (absent : d.node? (site.below [name.tenant, name.subject]) = none) (rest : Path)
    (fits : Path.Fits (name.folder site.root ++ rest)) :
    d.follow (name.folder site.root ++ rest) = .error .notFound := by
  rw [SchemaName.folder, List.append_assoc] at fits ⊢
  rw [h.follow fits, List.cons_append, List.singleton_append]
  rcases h.tenant_cases name.tenant with missing | there
  · rw [walk_below_missing h.schemas hn.isStep_tenant missing]
  · rw [walk_below h.schemas hn.isStep_tenant there, List.nil_append,
      walk_below_missing there hn.isStep_subject absent]

/-- Nothing is found where the folder of a subject would be. -/
lemma Keeps.find_absent (h : site.Keeps s d) (plain : name.IsPlain)
    (absent : d.node? (site.below [name.tenant, name.subject]) = none) :
    ∃ fault, d.find (name.folder site.root) = .error fault := by
  by_cases fits : (name.folder site.root).Fits
  · have missing := h.follow_absent ⟨plain.tenant, plain.subject, fits⟩ absent []
      (by rwa [List.append_nil])
    rw [List.append_nil] at missing
    exact ⟨_, Disk.find_error missing⟩
  · exact d.find_of_not_fits fits

/-- The path of a schema's file leads to the file that the shelf asks for. -/
lemma Keeps.file_eq (h : site.Keeps s d) (schema : IsPart name.schema) :
    d.node? (site.below [name.tenant, name.subject, fileName name.schema]) =
      (s.find name).map fun a => .file (content a) := by
  have file : d.node? (site.below [name.tenant, name.subject, fileName name.schema]) =
      fileIn (s name.subjectRef) (fileName name.schema) :=
    h.file name.subjectRef _ (isSchemaFile_fileName schema)
  have test : (fun a : Aggregate => fileName a.name.schema == fileName name.schema) =
      fun a => a.name.schema == name.schema := by
    funext a
    rw [Bool.eq_iff_iff, beq_iff_eq, beq_iff_eq, fileName_inj]
  rw [file, fileIn, test]
  rfl

/-- What is found under the path of a schema. -/
lemma Keeps.find_file (h : site.Keeps s d) (hn : name.HasFile site.root) :
    d.find (name.file site.root) =
      match s.find name with
      | some a => .ok (.file (content a))
      | none => .error .notFound := by
  have step := hn.isStep_file
  have file := h.file_eq hn.schema
  rcases h.subject_cases name with absent | subject
  · rw [Shelf.find_of_free (h.free_of_absent absent)]
    exact Disk.find_error (h.follow_absent hn.toHasFolder absent _ hn.file)
  · cases stored : s.find name with
    | none =>
      rw [stored] at file
      exact Disk.find_error (subject.follow_absent hn.toHasFolder step hn.file file)
    | some a =>
      rw [stored] at file
      exact Disk.find_ok (subject.follow_entry hn.toHasFolder step hn.file file) file

/-- The schema files in the folder of a subject. -/
lemma Keeps.mem_schemaFiles (h : site.Keeps s d) (name : SchemaName) (f : String) :
    f ∈ schemaFiles (d.children (site.below [name.tenant, name.subject])) ↔
      IsSchemaFile f ∧ ∃ a, s name.subjectRef = some a ∧ fileName a.name.schema = f := by
  rw [schemaFiles, List.mem_filter, Disk.mem_names_children, below_append, beq_iff_eq]
  refine and_comm.trans (and_congr_right fun isFile => ?_)
  have file : d.node? (site.below [name.tenant, name.subject, f]) = fileIn (s name.subjectRef) f :=
    h.file name.subjectRef f isFile
  rw [List.cons_append, List.singleton_append, file, Option.isSome_iff_exists]
  simp only [fileIn_eq_some_iff]
  constructor
  · rintro ⟨-, a, bound, same, -⟩
    exact ⟨a, bound, same⟩
  · rintro ⟨a, bound, same⟩
    exact ⟨_, a, bound, same, rfl⟩

end Site

end SchemaLedger
