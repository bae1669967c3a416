import SchemaLedger.Proofs.Files.Course
import SchemaLedger.Proofs.Store.File

/-!
The store on files when calls fail.

* `Site.makesFolder`: whatever making folders comes to, the folder keeps its shelf.
* `FileStore.withstands_writeFile`: until the temporary file is renamed nothing has changed, and
  from then on everything has.
* `FileStore.isCautious_readFile` and its like: what the store reads it reads cautiously.
* `FileStore.Represents.course`: wherever a call is stopped, the folder keeps the shelf before it or
  the shelf after it. A call that ends has been answered as by the shelf, or it has failed; then the
  cache is as it was and so are the files, except that a removal may have removed its file.
-/

namespace SchemaLedger

open FileStore Disk

/-! ### The way to the folder -/

namespace Site

variable {site : Site} {d d' : Disk} {s : Shelf} {name : SchemaName} {a : Aggregate}

/-- The place is not in the folder of the site. -/
def IsOutside (site : Site) (place : List String) : Prop :=
  ∀ steps, steps ≠ [] → place ≠ site.place ++ steps

/-- What was there at first is not in the folder. -/
lemma isOutside_of_node {place : List String} {node : Node}
    (there : site.disk.node? place = some node) :
    site.IsOutside place := by
  rintro steps some rfl
  rw [site.isEmpty steps some] at there
  cases there

/-- Every step on the first disk leads to a place outside of the folder. -/
lemma isOutside_walk {place next : List String} {step : String}
    (leads : site.disk.walk place [step] = .ok next) : site.IsOutside next := by
  simp only [walk] at leads
  by_cases slash : step = "/"
  · rw [if_pos slash] at leads
    cases leads
    exact fun steps some same => some (List.append_eq_nil_iff.1 same.symm).2
  · rw [if_neg slash] at leads
    cases here : site.disk.node? place with
    | none =>
      rw [here] at leads
      cases leads
    | some node =>
      cases node with
      | file content =>
        rw [here] at leads
        cases leads
      | folder =>
        have outside := isOutside_of_node here
        rw [here] at leads
        dsimp only at leads
        split_ifs at leads with stays up long absent
        · cases leads
          exact outside
        · cases leads
          -- a place whose folder is inside is inside itself
          intro steps some same
          rcases List.eq_nil_or_concat' place with rfl | ⟨before, last, rfl⟩
          · exact some (List.append_eq_nil_iff.1 same.symm).2
          · rw [List.dropLast_concat] at same
            exact outside (steps ++ [last]) (by simp) (by rw [same, List.append_assoc])
        · cases leads
          obtain ⟨node, there⟩ := Option.ne_none_iff_exists'.1 (by simpa using absent)
          exact isOutside_of_node there

end Site

namespace Disk

variable {d : Disk} {path : Path} {place goal : List String}

/-- A path that can be walked is located where it leads, if its text is not too long. -/
lemma locate_of_walk (leads : d.walk d.current path = .ok place) :
    d.locate path = .ok place ∨ ∃ fault, d.locate path = .error fault := by
  by_cases long : maxPath < path.render.utf8ByteSize
  · right
    have follow : d.follow path = .error .invalidName := if_pos long
    rw [locate, follow]
    cases parent : d.follow path.dropLast with
    | error fault => exact ⟨fault, rfl⟩
    | ok place => exact ⟨.invalidName, rfl⟩
  · left
    have follow : d.follow path = .ok place := (if_neg long).trans leads
    rw [locate, follow]

/-- A folder is made where a path leads, if nothing is there. -/
lemma makeFolder_cases (leads : d.walk d.current (withoutSlash path) = .ok place) :
    (∃ fault, d.makeFolder path = .error fault) ∨
      d.node? place = none ∧ d.makeFolder path = .ok (d.put place .folder) := by
  rcases locate_of_walk leads with located | ⟨fault, located⟩
  · rw [makeFolder, located]
    cases there : d.node? place with
    | none =>
      right
      refine ⟨rfl, ?_⟩
      simp only [bind, Except.bind, there]
    | some node =>
      left
      refine ⟨.alreadyExists, ?_⟩
      simp only [bind, Except.bind, there]
  · left
    rw [makeFolder, located]
    exact ⟨fault, rfl⟩

/-- On the way along a path, its first part is walked. -/
lemma walk_of_append {first second : Path} (leads : d.walk place (first ++ second) = .ok goal) :
    ∃ middle, d.walk place first = .ok middle ∧ d.walk middle second = .ok goal := by
  rw [walk_append] at leads
  cases before : d.walk place first with
  | error fault =>
    rw [before] at leads
    cases leads
  | ok middle =>
    rw [before] at leads
    exact ⟨middle, rfl, leads⟩

/-- Only a folder can be followed by a slash. -/
lemma folder_of_walk_slash (leads : d.walk place [""] = .ok goal) :
    d.node? place = some .folder := by
  simp only [walk] at leads
  rw [if_neg (by decide)] at leads
  cases here : d.node? place with
  | none =>
    rw [here] at leads
    cases leads
  | some node =>
    cases node with
    | file content =>
      rw [here] at leads
      cases leads
    | folder => rfl

end Disk

namespace Site

variable {site : Site} {d d' : Disk} {s : Shelf} {name : SchemaName} {a : Aggregate}

/-- Making a folder on the way to that of the site fails, or the folder is made outside. -/
lemma IsOpen.makeFolder_way (h : site.IsOpen d) {path : Path} (some : path ≠ [])
    (way : path <+: site.root) :
    (∃ fault, d.makeFolder path = .error fault) ∨
      ∃ place, site.IsOutside place ∧ d.node? place = none ∧
        d.makeFolder path = .ok (d.put place .folder) := by
  obtain ⟨rest, root⟩ := way
  obtain ⟨before, step, rfl⟩ := (List.eq_nil_or_concat' path).resolve_left some
  have walked := site.walk_root
  rw [← root] at walked
  obtain ⟨place, leads, -⟩ := walk_of_append walked
  obtain ⟨middle, first, second⟩ := walk_of_append leads
  have now {path : Path} {place : List String}
      (leads : site.disk.walk site.disk.current path = .ok place) :
      d.walk d.current path = .ok place := by
    rw [h.current]
    exact walk_mono h.kept leads
  by_cases slash : step = ""
  · subst slash
    have ending : withoutSlash (before ++ [""]) = before := by
      rw [withoutSlash, List.getLast?_concat, if_pos rfl, List.dropLast_concat]
    refine .inl ((makeFolder_cases (by rw [ending]; exact now first)).resolve_right ?_)
    rintro ⟨absent, -⟩
    rw [h.kept _ _ (folder_of_walk_slash second)] at absent
    cases absent
  · refine (makeFolder_cases (by rw [withoutSlash_append slash]; exact now leads)).imp_right ?_
    exact fun made => ⟨place, isOutside_walk second, made⟩

/-- What happens outside of the folder does not change what the folder keeps. -/
lemma Keeps.put_outside (h : site.Keeps s d) {place : List String} (outside : site.IsOutside place)
    (absent : d.node? place = none) : site.Keeps s (d.put place .folder) := by
  have below : place ≠ [] := by
    rintro rfl
    cases absent
  have same (steps : List String) :
      (d.put place .folder).node? (site.below steps) = d.node? (site.below steps) := by
    rw [d.node?_put below, if_neg fun here => outside _ (List.cons_ne_nil _ _) here.symm]
  exact
    { current := h.current
      kept := fun p node found => by
        have there := h.kept p node found
        rw [d.node?_put below, if_neg, there]
        rintro rfl
        rw [absent] at there
        cases there
      schemas := by rw [same, h.schemas]
      tenant := fun t node there => h.tenant t node (by rwa [same] at there)
      subject := fun n node there => by
        rw [same]
        exact h.subject n node (by rwa [same] at there)
      owner := fun r a bound => by rw [same, h.owner r a bound]
      file := fun r f isFile => by rw [same, h.file r f isFile]
      spare := fun t u f other => by
        rw [same]
        exact h.spare t u f other }

/-- Making the folder of a subject: it is there, or it is made, or that of the tenant is missing. -/
lemma Keeps.makeFolder_subject_cases (h : site.Keeps s d) (hn : name.HasFolder site.root) :
    (∃ fault, d.makeFolder (name.folder site.root) = .error fault) ∨
      ∃ d', d.makeFolder (name.folder site.root) = .ok d' ∧ site.Keeps s d' ∧
        site.HasSubject name d' := by
  have named : name.subject ≠ "" := (isPart_iff.1 hn.subject).1
  rcases h.subject_cases name with absent | there
  · rcases h.tenant_cases name.tenant with free | tenant
    · have missing := h.follow_absent hn absent [] (by rw [List.append_nil]; exact hn.folder)
      rw [List.append_nil] at missing
      rw [folder_eq] at missing ⊢
      exact .inl ⟨_, makeFolder_orphan named missing
        (h.follow_tenant hn.isStep_tenant (fits_tenant hn) free)⟩
    · obtain ⟨made, subject⟩ := h.makeFolder_subject hn tenant absent
      exact .inr ⟨_, made, h.put_subject hn tenant, subject⟩
  · have leads := there.follow_folder hn
    rw [folder_eq] at leads ⊢
    exact .inl ⟨_, makeFolder_exists named leads there.subject⟩

/-- **Making folders keeps the shelf**, whatever the calls come to. -/
lemma makesFolder (site : Site) (s : Shelf) (plain : name.IsPlain) {path : Path}
    (some : path ≠ []) (way : path <+: name.folder site.root) :
    MakesFolder (site.Keeps s) (name.folder site.root) path := by
  have longer {short : Path} (h : short <+: schemasPath site.root ++ [name.tenant]) :
      short ≠ name.folder site.root := by
    rintro rfl
    have length := h.length_le
    rw [folder_eq, List.length_append] at length
    simp at length
  refine .of_answers fun d h => ?_
  rw [folder_eq, List.prefix_concat_iff] at way
  rcases way with rfl | way
  · by_cases fits : (name.folder site.root).Fits
    · rw [← folder_eq]
      have hn : name.HasFolder site.root := ⟨plain.tenant, plain.subject, fits⟩
      refine (h.makeFolder_subject_cases hn).imp_right ?_
      rintro ⟨d', made, keeps, subject⟩
      exact ⟨d', made, keeps, fun _ => Disk.find_ok (subject.follow_folder hn) subject.subject⟩
    · rw [folder_eq] at fits
      exact .inl (d.makeFolder_of_not_fits fits (isPart_iff.1 plain.subject).1)
  · have other := longer way
    rw [List.prefix_concat_iff] at way
    rcases way with rfl | way
    · by_cases fits : Path.Fits (schemasPath site.root ++ [name.tenant])
      · have step := plain.tenant.isStep (fits.steps _ (by simp))
        rcases h.tenant_cases name.tenant with free | tenant
        · exact .inr ⟨_, h.makeFolder_tenant step fits free, h.put_tenant step fits,
            fun same => absurd same other⟩
        · have leads := h.follow_tenant_folder step fits tenant
          exact .inl ⟨_, makeFolder_exists step.ne_empty leads tenant⟩
      · exact .inl (d.makeFolder_of_not_fits fits (isPart_iff.1 plain.tenant).1)
    · rw [schemasPath, List.prefix_concat_iff] at way
      rcases way with rfl | way
      · exact .inl ⟨_, makeFolder_exists isStep_schemas.ne_empty h.follow_schemas h.schemas⟩
      · refine (h.makeFolder_way some way).imp_right ?_
        rintro ⟨place, outside, absent, made⟩
        exact ⟨_, made, h.put_outside outside absent, fun same => absurd same other⟩

end Site

/-! ### Programs of the store -/

namespace Storing

variable {α : Type} {d : Disk} {safe : Disk → Prop}

/-- A fault of the file system is a failure of the store. -/
lemma withstands_file {p : Filing α} {mid : Except FileFault α → Disk → Prop}
    (h : d.Withstands p safe mid) :
    d.Withstands (file p) safe fun r d' => ∃ x, r = x.mapError .file ∧ mid x d' := by
  intro r d' course
  have parts : (file p).run = p.run.bind fun r => .done (r.mapError .file) := rfl
  rw [parts] at course
  obtain ⟨r', before, result⟩ := course.of_bind_done
  obtain ⟨here, right⟩ := h _ _ before
  refine ⟨here, fun y hy => ?_⟩
  obtain ⟨x, hx, rfl⟩ := result y hy
  exact ⟨x, rfl, right x hx⟩

lemma isCautious_file {p : Filing α} (h : p.run.IsCautious) : (file p).run.IsCautious := by
  have parts : (file p).run = p.run.bind fun r => .done (r.mapError .file) := rfl
  rw [parts]
  generalize p.run = p at h
  induction p with
  | done r => trivial
  | ask q next ih =>
    obtain ⟨read, next⟩ := h
    refine ⟨read, fun x => ⟨ih x (next x).1, fun fails => ?_⟩⟩
    obtain ⟨e, failed⟩ := (next x).2 fails
    exact ⟨.file e, congrArg (fun p : Program FileSystem (Except FileFault α) =>
      p.bind fun r => .done (r.mapError StoreError.file)) failed⟩

lemma isCautious_known (r : Except StoreError α) : (known r).run.IsCautious :=
  trivial

end Storing

namespace FileStore

open Storing Program

variable {site : Site} {f : FileStore} {d : Disk} {s : Shelf} {name : SchemaName} {a b : Aggregate}
  {path : Path}

/-! ### Reading -/

lemma isCautious_isPresent : (file (Filing.isPresent path)).run.IsCautious :=
  isCautious_file ⟨trivial, fun _ => ⟨trivial, fun fails => fails.elim⟩⟩

lemma isCautious_isFolder : (file (Filing.isFolder path)).run.IsCautious :=
  isCautious_file ⟨trivial, fun _ => ⟨trivial, fun fails => fails.elim⟩⟩

lemma isCautious_list : (file (Filing.list path)).run.IsCautious :=
  isCautious_file
    ⟨trivial, fun _ => ⟨trivial, fun ⟨fault, failed⟩ => ⟨fault, congrArg done failed⟩⟩⟩

lemma isCautious_load : (load path).run.IsCautious := by
  refine IsCautious.bind (isCautious_file (IsCautious.bind ?_ fun bytes => ?_))
    fun content => isCautious_known _
  · exact ⟨trivial, fun _ => ⟨trivial, fun ⟨fault, failed⟩ => ⟨fault, congrArg done failed⟩⟩⟩
  · split
    · exact isCautious_pure _
    · exact isCautious_throw _

lemma isCautious_readFile : (f.readFile name).run.IsCautious := by
  refine (isCautious_known _).bind fun path => isCautious_isPresent.bind fun there => ?_
  cases there with
  | true => exact isCautious_load.bind fun a => isCautious_pure _
  | false => exact isCautious_pure _

lemma isCautious_firstFile {skip : Option String} : (firstFile path skip).run.IsCautious := by
  refine isCautious_isFolder.bind fun there => ?_
  cases there with
  | true => exact isCautious_list.bind fun entries => isCautious_pure _
  | false => exact isCautious_pure _

lemma isCautious_bound {useCache : Bool} : (f.bound name useCache).run.IsCautious := by
  cases useCache with
  | true => exact isCautious_pure _
  | false =>
    refine (isCautious_known _).bind fun folder => isCautious_firstFile.bind fun file => ?_
    cases file with
    | none => exact isCautious_pure _
    | some file => exact isCautious_load.bind fun a => isCautious_pure _

lemma isCautious_fetch {useCache : Bool} : (f.fetch name useCache).run.IsCautious := by
  cases useCache with
  | true => exact isCautious_pure _
  | false =>
    refine isCautious_readFile.bind fun stored => ?_
    cases stored with
    | none => exact isCautious_pure _
    | some a => exact isCautious_pure _

/-! ### Writing -/

/-- The folders of a subject are made; without a failure, they are there. -/
lemma withstands_makeSubject (h : site.Keeps s d) (plain : name.IsPlain) :
    d.Withstands (file (Filing.makeFolders (name.folder site.root))) (site.Keeps s)
      fun r d' => site.Keeps s d' ∧ ∀ u, r = .ok u → site.HasSubject name d' := by
  have folders := withstands_file (withstands_makeFolders
    (List.append_ne_nil_of_right_ne_nil _ (List.cons_ne_nil _ _))
    (fun p => site.makesFolder s plain) h)
  refine folders.mono (fun _ => id) ?_
  rintro r d' ⟨x, rfl, keeps, made⟩
  refine ⟨keeps, fun u ok => (keeps.subject_cases name).resolve_left fun absent => ?_⟩
  obtain ⟨fault, missing⟩ := keeps.find_absent plain absent
  cases x with
  | ok u =>
    have there : d'.find (name.folder site.root) = .ok .folder := made rfl
    rw [missing] at there
    cases there
  | error fault => cases ok

/-- The temporary file of a schema is written, as a whole or in part. -/
lemma withstands_writeTemporary (h : site.Keeps s d) (subject : site.HasSubject name d)
    (hn : name.HasFile site.root) (temporary : (name.temporary site.root).Fits) :
    d.Withstands (file (Filing.writeText (name.temporary site.root) (Wire.aggregate.pretty a)))
      (site.Keeps s) fun r d' => site.Keeps s d' ∧ ∀ u, r = .ok u → site.HasSubject name d' ∧
        d'.node? (site.below [name.tenant, name.subject, temporaryName (fileName name.schema)]) =
          some (.file (Site.content a)) := by
  have spare := Site.not_isSchemaFile_temporaryName hn.schema
  have write := subject.write hn.toHasFolder (hn.isStep_temporary temporary) temporary
    (h.spare _ _ _ spare)
  have whole : d.write (name.temporary site.root) (Wire.aggregate.pretty a).toUTF8 = .ok _ :=
    write (Site.content a)
  have written :
      d.Withstands (Filing.writeText (name.temporary site.root) (Wire.aggregate.pretty a))
      (site.Keeps s) fun r d' => site.Keeps s d' ∧ (r = .ok () → site.HasSubject name d' ∧
        d'.node? (site.below [name.tenant, name.subject, temporaryName (fileName name.schema)]) =
          some (.file (Site.content a))) := by
    refine .call (q := .write _ _) (k := id) rfl h fun x d' outcome => ?_
    cases outcome with
    | answered q =>
      have keeps := h.put_spare name.tenant name.subject spare (Site.content a)
      have there := @Site.node?_put_below site d
        [name.tenant, name.subject, temporaryName (fileName name.schema)]
        (.file (Site.content a)) [name.tenant, name.subject, temporaryName (fileName name.schema)]
      rw [if_pos rfl] at there
      rw [Disk.answer, whole]
      exact ⟨keeps, keeps, fun _ => ⟨subject.put _, there⟩⟩
    | failed fails =>
      obtain ⟨fault, rfl⟩ := fails
      exact ⟨h, h, fun ok => by cases ok⟩
    | torn torn =>
      have part := (write _).symm.trans torn
      cases part
      have keeps := h.put_spare name.tenant name.subject spare
      exact ⟨keeps _, keeps _, fun ok => by cases ok⟩
  refine (withstands_file written).mono (fun _ => id) ?_
  rintro r d' ⟨x, rfl, keeps, right⟩
  refine ⟨keeps, fun u ok => ?_⟩
  cases x with
  | ok u => exact right rfl
  | error fault => cases ok

/-- Without a failure the shelf has changed, and with one it has not. -/
def IsAtomic (site : Site) (s s' : Shelf) {α : Type} (r : Except StoreError α) (d : Disk) : Prop :=
  match r with
  | .ok _ => site.Keeps s' d
  | .error _ => site.Keeps s d

/-- The temporary file becomes that of the schema. -/
lemma withstands_rename (h : site.Keeps s d) (subject : site.HasSubject name d)
    (hn : name.HasFile site.root) (temporary : (name.temporary site.root).Fits)
    (written : d.node? (site.below
      [name.tenant, name.subject, temporaryName (fileName name.schema)]) =
        some (.file (Site.content a)))
    (own : ∀ b, s name.subjectRef = some b → b.name.schema = name.schema)
    (named : a.name.schema = name.schema) :
    d.Withstands (file (Filing.rename (name.temporary site.root) (name.file site.root)))
      (fun d' => site.Keeps s d' ∨ site.Keeps (Function.update s name.subjectRef (some a)) d')
      (IsAtomic site s (Function.update s name.subjectRef (some a))) := by
  have renamed := h.rename subject hn temporary written
  have keeps := h.commit subject (Site.not_isSchemaFile_temporaryName hn.schema) own named
  have moved : d.Withstands (Filing.rename (name.temporary site.root) (name.file site.root))
      (fun d' => site.Keeps s d' ∨ site.Keeps (Function.update s name.subjectRef (some a)) d')
      fun r d' => IsAtomic site s (Function.update s name.subjectRef (some a))
        (r.mapError StoreError.file) d' := by
    refine .call (q := .rename _ _) (k := id) rfl (.inl h) fun x d' outcome => ?_
    cases outcome with
    | answered q =>
      rw [Disk.answer, renamed]
      exact ⟨.inr keeps, keeps⟩
    | failed fails =>
      obtain ⟨fault, rfl⟩ := fails
      exact ⟨.inl h, h⟩
  refine (withstands_file moved).mono (fun _ => id) ?_
  rintro r d' ⟨x, rfl, right⟩
  exact right

/-- **A schema is written as a whole or not at all**, whatever the calls come to. -/
lemma withstands_writeFile (h : site.Keeps s d) (hn : name.HasFile site.root)
    (temporary : (name.temporary site.root).Fits)
    (own : ∀ b, s name.subjectRef = some b → b.name.schema = name.schema)
    (named : a.name.schema = name.schema) :
    d.Withstands (writeFile (name.file site.root) a)
      (fun d' => site.Keeps s d' ∨ site.Keeps (Function.update s name.subjectRef (some a)) d')
      (IsAtomic site s (Function.update s name.subjectRef (some a))) := by
  rw [writeFile, SchemaName.file, List.dropLast_concat, List.getLast?_concat]
  refine ((withstands_makeSubject h hn.isPlain).mono (fun _ => .inl) fun _ _ => id).bind
    (fun e d₁ made => made.1) fun u d₁ made => ?_
  have subject := made.2 u rfl
  refine ((withstands_writeTemporary made.1 subject hn temporary).mono (fun _ => .inl)
    fun _ _ => id).bind (fun e d₂ wrote => wrote.1) fun u d₂ wrote => ?_
  obtain ⟨subject, written⟩ := wrote.2 u rfl
  exact withstands_rename wrote.1 subject hn temporary written own named

/-- No schema is written if the path of its temporary file is too long. -/
lemma withstands_writeFile_long (h : site.Keeps s d) (plain : name.IsPlain)
    (schema : IsPart name.schema) (long : ¬(name.temporary site.root).Fits) :
    d.Withstands (writeFile (name.file site.root) a) (site.Keeps s)
      fun r d' => (∃ e, r = .error e) ∧ site.Keeps s d' := by
  have named : temporaryName (fileName name.schema) ≠ "" := by
    rw [temporaryName_fileName schema]
    simp
  rw [writeFile, SchemaName.file, List.dropLast_concat, List.getLast?_concat]
  refine (withstands_makeSubject h plain).bind (fun e d₁ made => ⟨⟨e, rfl⟩, made.1⟩)
    fun u d₁ made => ?_
  have subject := made.2 u rfl
  obtain ⟨-, hn, -⟩ := made.1.subject name .folder subject.subject
  have failing (bytes : ByteArray) :
      d₁.write (name.temporary site.root) bytes = .error .invalidName :=
    Disk.write_long (subject.follow_folder hn) subject.subject long named bytes
  have written :
      d₁.Withstands (Filing.writeText (name.temporary site.root) (Wire.aggregate.pretty a))
      (site.Keeps s) fun r d' => (∃ e, r = .error e) ∧ site.Keeps s d' := by
    refine .call (q := .write _ _) (k := id) rfl made.1 fun x d' outcome => ?_
    cases outcome with
    | answered q =>
      rw [Disk.answer, failing]
      exact ⟨made.1, ⟨_, rfl⟩, made.1⟩
    | failed fails =>
      obtain ⟨fault, rfl⟩ := fails
      exact ⟨made.1, ⟨fault, rfl⟩, made.1⟩
    | torn torn => cases (failing _).symm.trans torn
  refine (withstands_file written).bind (fun e d₂ wrote => ?_) fun u d₂ wrote => ?_
  · obtain ⟨x, -, -, keeps⟩ := wrote
    exact ⟨⟨e, rfl⟩, keeps⟩
  · obtain ⟨x, same, ⟨e, rfl⟩, -⟩ := wrote
    cases same

/-- The file of a schema is removed; without a failure, its subject is free and has its folder. -/
lemma withstands_removeFile (h : site.Keeps s d) (hn : name.HasFile site.root)
    (stored : s.find name = some a) :
    d.Withstands (file (Filing.removeFile (name.file site.root)))
      (fun d' => site.Keeps s d' ∨ site.Keeps (Function.update s name.subjectRef none) d')
      fun r d' => match r with
        | .ok _ => site.Keeps (Function.update s name.subjectRef none) d' ∧ site.HasSubject name d'
        | .error _ => site.Keeps s d' := by
  obtain ⟨d₁, removed, subject, keeps⟩ := h.removeFile hn stored
  have gone : d.Withstands (Filing.removeFile (name.file site.root))
      (fun d' => site.Keeps s d' ∨ site.Keeps (Function.update s name.subjectRef none) d')
      fun r d' => match r with
        | .ok _ => site.Keeps (Function.update s name.subjectRef none) d' ∧ site.HasSubject name d'
        | .error _ => site.Keeps s d' := by
    refine .call (q := .removeFile _) (k := id) rfl (.inl h) fun x d' outcome => ?_
    cases outcome with
    | answered q =>
      rw [Disk.answer, removed]
      exact ⟨.inr keeps, keeps, subject⟩
    | failed fails =>
      obtain ⟨fault, rfl⟩ := fails
      exact ⟨.inl h, h⟩
  refine (withstands_file gone).mono (fun _ => id) ?_
  rintro r d' ⟨x, rfl, right⟩
  cases x with
  | ok u => exact right
  | error fault => exact right

/-- The folder of a free subject is removed; the shelf is the same with the folder and without. -/
lemma withstands_removeFolder (h : site.Keeps s d) (subject : site.HasSubject name d)
    (hn : name.HasFolder site.root) (free : s name.subjectRef = none)
    (empty : (d.children (site.below [name.tenant, name.subject])).isEmpty = true) :
    d.Withstands (file (Filing.removeFolder (name.folder site.root))) (site.Keeps s)
      fun _ d' => site.Keeps s d' := by
  obtain ⟨d₁, removed, keeps⟩ := h.removeFolder subject hn free empty
  have gone : d.Withstands (Filing.removeFolder (name.folder site.root)) (site.Keeps s)
      fun _ d' => site.Keeps s d' := by
    refine .call (q := .removeFolder _) (k := id) rfl h fun x d' outcome => ?_
    cases outcome with
    | answered q =>
      rw [Disk.answer, removed]
      exact ⟨keeps, keeps⟩
    | failed fails => exact ⟨h, h⟩
  refine (withstands_file gone).mono (fun _ => id) ?_
  rintro r d' ⟨x, -, right⟩
  exact right

/-! ### Calls -/

/-- What a call that changes a shelf comes to: it succeeds and the shelf has changed, or it fails.
Then the files are as before, or they have changed all the same if `late` failures are possible. -/
def Ends (site : Site) (s s' : Shelf) (late : Prop) (r : Except StoreError FileStore) (d : Disk) :
    Prop :=
  match r with
  | .ok f' => Represents site f' d s'
  | .error _ => site.Keeps s d ∨ late ∧ site.Keeps s' d

/-- A call is refused, or fails, and the files are as before. -/
def Refuses (site : Site) (s : Shelf) {α : Type} (r : Except StoreError α) (d : Disk) : Prop :=
  (∃ e, r = .error e) ∧ site.Keeps s d

variable {l : Prop}

/-- A schema is written if nothing is bound to its subject. -/
lemma Represents.withstands_register_write (h : Represents site f d s) (tidy : s.IsTidy site.root)
    (plain : name.IsPlain) (schema : IsPart name.schema) (free : s name.subjectRef = none)
    {safe : Disk → Prop} {post : Except StoreError FileStore → Disk → Prop} (here : safe d)
    (failed : ∀ e, post (.error e) d)
    (rest : d.Withstands (do
      writeFile (name.file site.root) a
      return f.remember a) safe post) : d.Withstands (f.register name a) safe post := by
  obtain ⟨present, first⟩ := h.runs_vacant tidy.isNeat plain schema free
  refine .after_read (isCautious_known _) (h.runs_schemaPath plain schema d) here failed ?_
  refine .after_read isCautious_isPresent present here failed ?_
  refine .after_read (isCautious_known _) (h.runs_subjectPath plain d) here failed ?_
  exact .after_read isCautious_firstFile first here failed rest

/-- A schema is registered if nothing is bound to its subject. -/
lemma Represents.withstands_register (h : Represents site f d s) (tidy : s.IsTidy site.root)
    (named : a.IsNamed name) (storable : a.IsStorable site.root)
    (free : s name.subjectRef = none) :
    d.Withstands (f.register name a)
      (fun d' => site.Keeps s d' ∨ site.Keeps (Function.update s name.subjectRef (some a)) d')
      (Ends site s (Function.update s name.subjectRef (some a)) l) := by
  have hn := named.hasFile storable.name
  have own (b : Aggregate) (bound : s name.subjectRef = some b) : False := by
    rw [free] at bound
    cases bound
  have written := withstands_writeFile h.disk hn (named.temporary site.root ▸ storable.temporary)
    (fun b bound => (own b bound).elim) named.schema
  refine h.withstands_register_write tidy hn.isPlain hn.schema free (.inl h.disk)
    (fun e => .inl h.disk) ?_
  refine written.bind (fun e d' keeps => .inl keeps) fun u d' keeps => ?_
  exact .pure (.inr keeps) (h.remember tidy.isNeat hn.toHasFolder named
    (fun b bound => (own b bound).elim) keeps)

/-- A schema is replaced if it has the expected revision. -/
lemma Represents.withstands_replace (h : Represents site f d s) (tidy : s.IsTidy site.root)
    (named : a.IsNamed name) (storable : a.IsStorable site.root) {expected : Revision}
    (checked : checkRevision name.fullName (s.find name) expected = .ok ()) :
    d.Withstands (f.replace name a expected)
      (fun d' => site.Keeps s d' ∨ site.Keeps (Function.update s name.subjectRef (some a)) d')
      (Ends site s (Function.update s name.subjectRef (some a)) l) := by
  have hn := named.hasFile storable.name
  obtain ⟨b, stored, -⟩ := checkRevision_eq_ok_iff.1 checked
  obtain ⟨-, schema⟩ := Shelf.find_eq_some_iff.1 stored
  have written := withstands_writeFile h.disk hn (named.temporary site.root ▸ storable.temporary)
    (fun c bound => by rw [Shelf.eq_of_find stored bound, schema]) named.schema
  have here : site.Keeps s d ∨ site.Keeps (Function.update s name.subjectRef (some a)) d :=
    .inl h.disk
  have failed (e : StoreError) :
      Ends site s (Function.update s name.subjectRef (some a)) l (.error e) d := .inl h.disk
  refine .after_read isCautious_readFile (h.runs_readFile_plain tidy hn.isPlain hn.schema) here
    failed ?_
  refine .after_read (isCautious_known _) (runs_known d checked) here failed ?_
  refine .after_read (isCautious_known _) (h.runs_schemaPath hn.isPlain hn.schema d) here failed ?_
  refine written.bind (fun e d' keeps => .inl keeps) fun u d' keeps => ?_
  exact .pure (.inr keeps) (h.remember tidy.isNeat hn.toHasFolder named
    (fun c bound => by rw [Shelf.eq_of_find stored bound, tidy.fullName stored]) keeps)

/-- A schema is removed if it has the expected revision. A failure may be late. -/
lemma Represents.withstands_remove (h : Represents site f d s) (tidy : s.IsTidy site.root)
    {expected : Revision}
    (checked : checkRevision name.fullName (s.find name) expected = .ok ()) :
    d.Withstands (f.remove name expected)
      (fun d' => site.Keeps s d' ∨ site.Keeps (Function.update s name.subjectRef none) d')
      (Ends site s (Function.update s name.subjectRef none) True) := by
  obtain ⟨b, stored, -⟩ := checkRevision_eq_ok_iff.1 checked
  obtain ⟨hn, -⟩ := tidy.hasFile stored
  have here : site.Keeps s d ∨ site.Keeps (Function.update s name.subjectRef none) d :=
    .inl h.disk
  have failed (e : StoreError) :
      Ends site s (Function.update s name.subjectRef none) True (.error e) d := .inl h.disk
  refine .after_read isCautious_readFile (h.runs_readFile_plain tidy hn.isPlain hn.schema) here
    failed ?_
  refine .after_read (isCautious_known _) (runs_known d checked) here failed ?_
  refine .after_read (isCautious_known _) (h.runs_schemaPath hn.isPlain hn.schema d) here failed ?_
  refine (withstands_removeFile h.disk hn stored).bind (fun e d' keeps => .inl keeps) ?_
  rintro u d₁ ⟨keeps, subject⟩
  -- from here on the file is gone, and every failure is a late one
  have gone : site.Keeps s d₁ ∨ site.Keeps (Function.update s name.subjectRef none) d₁ :=
    .inr keeps
  have late (e : StoreError) :
      Ends site s (Function.update s name.subjectRef none) True (.error e) d₁ :=
    .inr ⟨trivial, keeps⟩
  have listed := runs_file (d₁.runs_list (name.folder site.root))
  rw [Disk.list_folder (subject.follow_folder hn.toHasFolder) subject.subject] at listed
  refine .after_read (isCautious_known _) (h.runs_subjectPath hn.isPlain d₁) gone late ?_
  refine .after_read isCautious_list listed gone late ?_
  cases empty : (d₁.children (site.below [name.tenant, name.subject])).isEmpty with
  | true =>
    refine ((withstands_removeFolder keeps subject hn.toHasFolder (Function.update_self ..)
      empty).mono (fun _ => .inr) fun _ _ => id).bind (fun e d₂ keeps => .inr ⟨trivial, keeps⟩) ?_
    exact fun u d₂ keeps => .pure (.inr keeps) (h.forget tidy.isNeat hn.toHasFolder stored keeps)
  | false => exact .pure gone (h.forget tidy.isNeat hn.toHasFolder stored keeps)

/-- Nothing is registered if something is bound to the subject. -/
lemma Represents.withstands_register_bound (h : Represents site f d s) (tidy : s.IsTidy site.root)
    (plain : name.IsPlain) (schema : IsPart name.schema) (bound : s name.subjectRef = some b) :
    d.Withstands (f.register name a) (site.Keeps s) (Refuses site s) := by
  have present := h.runs_isPresent tidy.isNeat plain schema
  have failed (e : StoreError) : Refuses (α := FileStore) site s (.error e) d :=
    ⟨⟨e, rfl⟩, h.disk⟩
  refine .after_read (isCautious_known _) (h.runs_schemaPath plain schema d) h.disk failed ?_
  refine .after_read isCautious_isPresent present h.disk failed ?_
  rw [Shelf.find_of_bound bound]
  by_cases same : b.name.schema = name.schema
  · rw [if_pos same]
    exact .after_failure (isCautious_throw _) (.throw d _) h.disk failed
  · rw [if_neg same]
    refine .after_read (isCautious_known _) (h.runs_subjectPath plain d) h.disk failed ?_
    have first := h.runs_firstFile_other tidy.isNeat plain bound same
    refine .after_read isCautious_firstFile first h.disk failed ?_
    exact .throw h.disk (failed _)

/-- A new schema is not written if its path is too long. -/
lemma Represents.withstands_register_long (h : Represents site f d s) (tidy : s.IsTidy site.root)
    (plain : name.IsPlain) (schema : IsPart name.schema) (free : s name.subjectRef = none)
    (long : ¬(name.temporary site.root).Fits) :
    d.Withstands (f.register name a) (site.Keeps s) (Refuses site s) := by
  refine h.withstands_register_write tidy plain schema free h.disk
    (fun e => ⟨⟨e, rfl⟩, h.disk⟩) ?_
  refine (withstands_writeFile_long h.disk plain schema long).bind
    (fun e d' refused => ⟨⟨e, rfl⟩, refused.2⟩) fun u d' refused => ?_
  obtain ⟨⟨e, no⟩, -⟩ := refused
  cases no

/-- Nothing is registered under a name that is no path. -/
lemma Represents.withstands_register_refused (h : Represents site f d s) {e : StoreError}
    (refused : schemaPath site.root name = .error e) :
    d.Withstands (f.register name a) (site.Keeps s) (Refuses site s) :=
  .after_failure (isCautious_known _) (runs_known d (by rw [h.root, refused])) h.disk
    fun e => ⟨⟨e, rfl⟩, h.disk⟩

/-- Nothing is replaced or removed if it is not there, has another revision or has no path. -/
lemma Represents.withstands_refused (h : Represents site f d s) (tidy : s.IsTidy site.root)
    {expected : Revision} {rest : Unit → Storing FileStore}
    (refused : checkRevision name.fullName (s.find name) expected ≠ .ok ()) :
    d.Withstands (do
      let stored ← f.readFile name
      known (checkRevision name.fullName stored expected) >>= rest) (site.Keeps s)
      (Refuses site s) := by
  have failed (e : StoreError) : Refuses (α := FileStore) site s (.error e) d :=
    ⟨⟨e, rfl⟩, h.disk⟩
  have read := h.runs_readFile tidy name
  cases path : schemaPath site.root name with
  | ok path' =>
    rw [path] at read
    refine .after_read isCautious_readFile read h.disk failed ?_
    cases checked : checkRevision name.fullName (s.find name) expected with
    | ok u => exact absurd checked refused
    | error e => exact .after_failure (isCautious_known _) (runs_known d rfl) h.disk failed
  | error e =>
    rw [path] at read
    exact .after_failure isCautious_readFile read h.disk failed

/-! ### Answers -/

/-- The answer that a result gives, and the store after it. -/
def kept {α : Type} (f : FileStore) :
    Except StoreError (α × FileStore) → Except StoreError α × FileStore
  | .ok (x, f') => (.ok x, f')
  | .error e => (.error e, f)

lemma keep_eq {α : Type} (f : FileStore) (p : Storing (α × FileStore)) :
    f.keep p = p.run.bind fun r => .done (f.kept r) := by
  rw [keep]
  congr
  funext r
  cases r <;> rfl

/-- The course of an answer is that of the program behind it. -/
lemma course_keep {α : Type} {p : Storing (α × FileStore)} {d' : Disk}
    {r : Option (Except StoreError α × FileStore)} (course : Disk.Course (f.keep p) d r d') :
    ∃ r', Disk.Course p.run d r' d' ∧ ∀ x, r = some x → ∃ y, r' = some y ∧ x = f.kept y := by
  rw [keep_eq] at course
  exact course.of_bind_done

variable {c : StoreCall} {d' : Disk}

/-- What the course of a call may leave behind on the disk. -/
def Leaves (site : Site) (s : Shelf) (c : StoreCall) (d : Disk) : Prop :=
  site.Keeps s d ∨ site.Keeps (s.reply site.root c).2 d

/-- What a call may come to: it is answered as by the shelf, or it fails and the cache is as it was.
Then so are the files, unless the call was to remove a schema. -/
def Concludes (site : Site) (f : FileStore) (s : Shelf) (c : StoreCall)
    (x : c.Answer × FileStore) (d : Disk) : Prop :=
  (x.1 = (s.reply site.root c).1 ∧ Represents site x.2 d (s.reply site.root c).2) ∨
    ((∃ e, x.1 = .error e) ∧ x.2 = f ∧ (site.Keeps s d ∨
      (∃ name expected, c = .remove name expected) ∧ site.Keeps (s.reply site.root c).2 d))

/-- A call that reads cautiously, and that is answered without a change of the shelf. -/
lemma Represents.course_read (h : Represents site f d s) (tidy : s.IsTidy site.root)
    (proper : c.IsProper) {p : Storing (c.Result × FileStore)}
    (cautious : p.run.IsCautious) (reads : f.answer c = f.keep p)
    {r : Option (c.Answer × FileStore)} (course : Disk.Course (f.answer c) d r d') :
    Leaves site s c d' ∧ ∀ x, r = some x → Concludes site f s c x d' := by
  obtain ⟨f₁, d₁, answered, after⟩ := h.reply tidy proper
  rw [reads] at course answered
  obtain ⟨r', course', result⟩ := course_keep course
  obtain ⟨rfl, honest⟩ := cautious.course course'
  have whole : (f.kept (Disk.run p.run d').1, (Disk.run p.run d').2) =
      (((s.reply site.root c).1, f₁), d₁) := by
    rw [keep_eq, Disk.run_bind] at answered
    exact answered
  rw [cautious.run_snd, Prod.mk.injEq] at whole
  obtain ⟨honestly, rfl⟩ := whole
  refine ⟨.inl h.disk, fun x hx => ?_⟩
  obtain ⟨y, hy, rfl⟩ := result x hx
  rcases honest y hy with rfl | ⟨e, rfl⟩
  · rw [honestly]
    exact .inl ⟨rfl, after⟩
  · exact .inr ⟨⟨e, rfl⟩, rfl, .inl h.disk⟩

/-- A write that succeeds on the shelf. -/
lemma course_write {s' : Shelf} {p : Storing FileStore}
    (withstands : d.Withstands p (fun d' => site.Keeps s d' ∨ site.Keeps s' d')
      (Ends site s s' l)) {r : Option (Except StoreError Unit × FileStore)}
    (course : Disk.Course (f.keep do return ((), ← p)) d r d') :
    (site.Keeps s d' ∨ site.Keeps s' d') ∧ ∀ x, r = some x →
      (x.1 = .ok () ∧ Represents site x.2 d' s') ∨
        ((∃ e, x.1 = .error e) ∧ x.2 = f ∧ (site.Keeps s d' ∨ l ∧ site.Keeps s' d')) := by
  have whole : d.Withstands (do return ((), ← p)) (fun d' => site.Keeps s d' ∨ site.Keeps s' d')
      fun (r : Except StoreError (Unit × FileStore)) d' =>
        Ends site s s' l (r.map Prod.snd) d' :=
    Withstands.bind withstands (fun e d' h => h) fun f' d' h => .pure (.inr h.disk) h
  obtain ⟨r', course', result⟩ := course_keep course
  obtain ⟨here, right⟩ := whole _ _ course'
  refine ⟨here, fun x hx => ?_⟩
  obtain ⟨y, hy, rfl⟩ := result x hx
  have ends := right y hy
  cases y with
  | ok y => exact .inl ⟨rfl, ends⟩
  | error e => exact .inr ⟨⟨e, rfl⟩, rfl, ends⟩

/-- A write that is refused gives no answer but a failure. -/
lemma withstands_answer {p : Storing FileStore}
    (withstands : d.Withstands p (site.Keeps s) (Refuses site s)) :
    d.Withstands (do return ((), ← p)) (site.Keeps s) (Refuses site s) :=
  withstands.bind (fun e d' h => ⟨⟨e, rfl⟩, h.2⟩) fun f' d' h => by
    obtain ⟨⟨e, no⟩, -⟩ := h
    cases no

/-- A call that is refused. -/
lemma course_refused {p : Storing (c.Result × FileStore)}
    (withstands : d.Withstands p (site.Keeps s) (Refuses site s)) (same : f.answer c = f.keep p)
    {r : Option (c.Answer × FileStore)} (course : Disk.Course (f.answer c) d r d') :
    Leaves site s c d' ∧ ∀ x, r = some x → Concludes site f s c x d' := by
  rw [same] at course
  obtain ⟨r', course', result⟩ := course_keep course
  obtain ⟨here, right⟩ := withstands _ _ course'
  refine ⟨.inl here, fun x hx => .inr ?_⟩
  obtain ⟨y, hy, rfl⟩ := result x hx
  obtain ⟨⟨e, rfl⟩, keeps⟩ := right y hy
  exact ⟨⟨e, rfl⟩, rfl, .inl keeps⟩

/-- **The course of a call.** Wherever the call is stopped, the folder keeps the shelf before it or
the shelf after it; and if it ends, it has been answered as by the shelf or it has failed. -/
theorem Represents.course (h : Represents site f d s) (tidy : s.IsTidy site.root)
    (proper : c.IsProper) {r : Option (c.Answer × FileStore)}
    (course : Disk.Course (f.answer c) d r d') :
    Leaves site s c d' ∧ ∀ x, r = some x → Concludes site f s c x d' := by
  cases c with
  | fetch name cached => exact h.course_read tidy proper isCautious_fetch rfl course
  | fetchRecord name cached =>
    refine h.course_read tidy proper (isCautious_bound.bind fun bound => ?_) rfl course
    cases bound with
    | none => exact isCautious_pure _
    | some a => exact (isCautious_known _).bind fun r => isCautious_pure _
  | fetchRecords name cached =>
    exact h.course_read tidy proper (isCautious_bound.bind fun bound => isCautious_pure _) rfl
      course
  | register name a =>
    rcases name.schemaPath_cases site.root with ⟨plain, schema, path⟩ | ⟨e, refused⟩
    · cases bound : s name.subjectRef with
      | some b =>
        exact course_refused
          (withstands_answer (h.withstands_register_bound tidy plain schema bound)) rfl course
      | none =>
        by_cases short : (name.temporary site.root).Fits
        · have storable := proper.1.isStorable proper.2 (plain.hasFile schema short) short
          have written := course_write
            (h.withstands_register (l := False) tidy proper.1 storable bound) course
          rw [Leaves]
          unfold Concludes
          rw [Shelf.reply_of_accept (Shelf.accept_register_of_fits path short), Shelf.answer, bound]
          refine ⟨written.1, fun x hx => (written.2 x hx).imp_right ?_⟩
          rintro ⟨e, same, left⟩
          exact ⟨e, same, .inl (left.resolve_right And.left)⟩
        · exact course_refused
            (withstands_answer (h.withstands_register_long tidy plain schema bound short)) rfl
            course
    · exact course_refused (withstands_answer (h.withstands_register_refused refused)) rfl course
  | replace name a expected =>
    by_cases checked : checkRevision name.fullName (s.find name) expected = .ok ()
    · obtain ⟨b, found, -⟩ := checkRevision_eq_ok_iff.1 checked
      obtain ⟨hn, short⟩ := tidy.hasFile found
      have written := course_write (h.withstands_replace (l := False) tidy proper.1
        (proper.1.isStorable proper.2 hn short) checked) course
      rw [Leaves]
      unfold Concludes
      rw [Shelf.reply_of_accept (Shelf.accept_replace (hn.isPlain.schemaPath hn.schema _)),
        Shelf.answer, checked]
      refine ⟨written.1, fun x hx => (written.2 x hx).imp_right ?_⟩
      rintro ⟨e, same, left⟩
      exact ⟨e, same, .inl (left.resolve_right And.left)⟩
    · exact course_refused (withstands_answer (h.withstands_refused tidy checked)) rfl course
  | remove name expected =>
    by_cases checked : checkRevision name.fullName (s.find name) expected = .ok ()
    · obtain ⟨b, found, -⟩ := checkRevision_eq_ok_iff.1 checked
      obtain ⟨hn, -⟩ := tidy.hasFile found
      have written := course_write (h.withstands_remove tidy checked) course
      rw [Leaves]
      unfold Concludes
      rw [Shelf.reply_of_accept (Shelf.accept_remove (hn.isPlain.schemaPath hn.schema _)),
        Shelf.answer, checked]
      refine ⟨written.1, fun x hx => (written.2 x hx).imp_right ?_⟩
      rintro ⟨e, same, left⟩
      exact ⟨e, same, left.imp_right fun late => ⟨⟨name, expected, rfl⟩, late.2⟩⟩
    · exact course_refused (withstands_answer (h.withstands_refused tidy checked)) rfl course

end FileStore

end SchemaLedger
