import SchemaLedger.Proofs.Store.Writing
import SchemaLedger.Proofs.Wire

/-!
What the store on files does.

* `FileStore.Represents`: the cache and the files of a store stand for a shelf.
* `FileStore.decode_pretty_eq`: a schema that was written is read, unless it is refused; one that
  was stored is not refused (`FileStore.decode_pretty`).
* `FileStore.Represents.respond`: the store answers every call as the shelf does, apart from names
  and schemas that it refuses, and stands for the same shelf afterwards.
  `FileStore.Represents.reply` is the case of a tidy shelf and a proper call, and
  `FileStore.Represents.answer` that of a sound call.
-/

namespace SchemaLedger.FileStore

open Disk Storing

/-- The cache holds the schemas of a shelf by their full names, and the files below the root are
those of the shelf. -/
structure Represents (site : Site) (f : FileStore) (d : Disk) (s : Shelf) : Prop where
  root : f.root = site.root
  cache : ∀ key a, (key, a) ∈ f.cache.entries ↔
    key = a.name.fullName ∧ s a.name.subjectRef = some a
  disk : site.Keeps s d

variable {site : Site} {f : FileStore} {d : Disk} {s : Shelf} {name : SchemaName} {a b : Aggregate}

/-! ### The cache -/

/-- A key that is inserted has the new value, and every other key has what it had. -/
lemma mem_entries_insert {c : Dictionary Aggregate} {key key' : String} :
    (key, b) ∈ (c.insert key' a).entries ↔
      ((key, b) ∈ c.entries ∧ key ≠ key') ∨ (key = key' ∧ b = a) := by
  simp [Dictionary.insert, Dictionary.erase]

/-- A key that is erased has no value, and every other key has what it had. -/
lemma mem_entries_erase {c : Dictionary Aggregate} {key key' : String} :
    (key, b) ∈ (c.erase key').entries ↔ (key, b) ∈ c.entries ∧ key ≠ key' := by
  simp [Dictionary.erase]

/-- The cache finds the schema of a name. -/
lemma Represents.get? (h : Represents site f d s) (neat : s.IsNeat site.root) (name : SchemaName) :
    f.cache.get? name.fullName = s.find name := by
  rw [Dictionary.get?]
  cases found : f.cache.entries.lookup name.fullName with
  | none =>
    symm
    rw [Option.eq_none_iff_forall_ne_some]
    intro a stored
    obtain ⟨bound, -⟩ := Shelf.find_eq_some_iff.1 stored
    obtain ⟨-, ref⟩ := neat _ a bound
    have cached := (h.cache name.fullName a).2 ⟨(neat.fullName stored).symm, by rw [ref, bound]⟩
    have other := List.lookup_eq_none_iff.1 found _ cached
    simp at other
  | some a =>
    obtain ⟨before, after, entries, -⟩ := List.lookup_eq_some_iff.1 found
    have cached : (name.fullName, a) ∈ f.cache.entries := by
      rw [entries]
      simp
    obtain ⟨key, bound⟩ := (h.cache _ a).1 cached
    have own := (neat _ a bound).1.name
    have plain := own.hasPlainScope.of_fullName own.schema.no_slash key
    obtain ⟨ref, schema⟩ := SchemaName.unversioned_eq_iff.1
      (SchemaName.unversioned_eq_of_fullName plain own.hasPlainScope key)
    exact (Shelf.find_eq_some_iff.2 ⟨by rw [ref, bound], schema.symm⟩).symm

/-- The cache finds the schema that is bound to a subject. -/
lemma Represents.findValue? (h : Represents site f d s) (neat : s.IsNeat site.root)
    (name : SchemaName) :
    (f.cache.findValue? fun a => a.name.subjectKey == name.subjectKey) = s name.subjectRef := by
  rw [Dictionary.findValue?]
  cases found : f.cache.entries.find? fun e => e.2.name.subjectKey == name.subjectKey with
  | none =>
    symm
    rw [Option.map_none, Option.eq_none_iff_forall_ne_some]
    intro a bound
    obtain ⟨-, ref⟩ := neat _ a bound
    have cached := (h.cache a.name.fullName a).2 ⟨rfl, by rw [ref, bound]⟩
    have other := List.find?_eq_none.1 found _ cached
    exact other (beq_iff_eq.2 (congrArg SubjectRef.key ref))
  | some e =>
    obtain ⟨key, a⟩ := e
    obtain ⟨-, bound⟩ := (h.cache key a).1 (List.mem_of_find?_eq_some found)
    have same : a.name.subjectKey = name.subjectKey := by simpa using List.find?_some found
    have own := (neat _ a bound).1.name.hasPlainScope
    have plain := own.of_subjectKey same.symm
    rw [Option.map_some, ← bound, SchemaName.subjectRef_eq_of_subjectKey own plain same]

/-- A schema that was read or written is put into the cache. -/
lemma Represents.remember (h : Represents site f d s) (neat : s.IsNeat site.root)
    (hn : name.HasFolder site.root) (named : a.IsNamed name)
    (own : ∀ b, s name.subjectRef = some b → b.name.fullName = name.fullName) {d' : Disk}
    (disk : site.Keeps (Function.update s name.subjectRef (some a)) d') :
    Represents site (f.remember a) d' (Function.update s name.subjectRef (some a)) where
  root := h.root
  disk := disk
  cache key b := by
    rw [FileStore.remember, mem_entries_insert, h.cache, Function.update_apply]
    by_cases ref : b.name.subjectRef = name.subjectRef
    · rw [if_pos ref]
      constructor
      · rintro (⟨⟨key', bound⟩, other⟩ | ⟨key', same⟩)
        · rw [ref] at bound
          rw [named.fullName] at other
          exact absurd (key'.trans (own b bound)) other
        · exact ⟨by rw [key', same], by rw [same]⟩
      · rintro ⟨key', same⟩
        cases same
        exact .inr ⟨key', rfl⟩
    · rw [if_neg ref]
      constructor
      · rintro (⟨stored, -⟩ | ⟨-, rfl⟩)
        · exact stored
        · exact absurd named.subjectRef ref
      · rintro ⟨key', bound⟩
        refine .inl ⟨⟨key', bound⟩, fun same => ref ?_⟩
        rw [key', named.fullName] at same
        exact (SchemaName.eq_of_fullName (neat _ b bound).1.name.toHasFolder hn same).1

/-- A schema that was removed is dropped from the cache. -/
lemma Represents.forget (h : Represents site f d s) (neat : s.IsNeat site.root)
    (hn : name.HasFolder site.root) (stored : s.find name = some a) {d' : Disk}
    (disk : site.Keeps (Function.update s name.subjectRef none) d') :
    Represents site { f with cache := f.cache.erase name.fullName } d'
      (Function.update s name.subjectRef none) where
  root := h.root
  disk := disk
  cache key b := by
    obtain ⟨bound, -⟩ := Shelf.find_eq_some_iff.1 stored
    rw [mem_entries_erase, h.cache, Function.update_apply]
    by_cases ref : b.name.subjectRef = name.subjectRef
    · rw [if_pos ref]
      constructor
      · rintro ⟨⟨key', bound'⟩, other⟩
        rw [ref, bound] at bound'
        cases bound'
        exact absurd (key'.trans (neat.fullName stored)) other
      · rintro ⟨-, none⟩
        cases none
    · rw [if_neg ref]
      constructor
      · rintro ⟨stored, -⟩
        exact stored
      · rintro ⟨key', bound'⟩
        refine ⟨⟨key', bound'⟩, fun same => ref ?_⟩
        rw [key'] at same
        exact (SchemaName.eq_of_fullName (neat _ b bound').1.name.toHasFolder hn same).1

/-! ### Reading -/

/-- A schema that was written is read, unless it is refused. -/
lemma decode_pretty_eq (counts : Wire.aggregate.Fits a) :
    decode (Wire.aggregate.pretty a) = a.verify.map fun _ => a := by
  rw [decode, Wire.read_pretty_aggregate counts, Aggregate.verify]
  simp only [Except.mapError, bind, Except.bind]
  split
  · rfl
  · split <;> rfl

/-- **A schema that was stored is not refused when it is read.** -/
lemma decode_pretty {root : Path} (h : a.IsStorable root) :
    decode (Wire.aggregate.pretty a) = .ok a := by
  rw [decode_pretty_eq h.counts, Aggregate.verify_eq_ok_iff.2 ⟨h.contiguous, h.authentic⟩]
  rfl

/-- A file is loaded if its text is not refused. -/
lemma runs_load_text {path : Path} {text : String} {r : Except StoreError Aggregate}
    (read : d.read path = .ok text.toUTF8) (decoded : decode text = r) :
    d.Runs (load path) r d :=
  (runs_file (runs_readText read)).bind (runs_known d decoded)

/-- A schema that was written is loaded from its file, unless it is refused. -/
lemma runs_load_written (disk : site.Keeps s d) (writable : a.IsWritable site.root)
    (bound : s a.name.subjectRef = some a) :
    d.Runs (load (a.name.file site.root)) (a.verify.map fun _ => a) d := by
  have found := disk.find_file writable.name
  rw [Shelf.find_eq_some_iff.2 ⟨bound, rfl⟩] at found
  exact runs_load_text (Disk.read_of_find found) (decode_pretty_eq writable.counts)

lemma runs_load_found (disk : site.Keeps s d) (writable : a.IsWritable site.root)
    (bound : s a.name.subjectRef = some a) :
    d.Runs (do return some (← load (a.name.file site.root)))
      ((Shelf.verifyFound (some a)).map fun _ => some a) d := by
  have read := (runs_load_written disk writable bound).map some
  rw [Shelf.verifyFound]
  cases verified : a.verify <;> rwa [verified] at read

/-- A stored schema is loaded from its file. -/
lemma runs_load (disk : site.Keeps s d) (storable : a.IsStorable site.root)
    (bound : s a.name.subjectRef = some a) :
    d.Runs (load (a.name.file site.root)) (.ok a) d := by
  have loaded := runs_load_written disk storable.isWritable bound
  rwa [Aggregate.verify_eq_ok_iff.2 ⟨storable.contiguous, storable.authentic⟩] at loaded

/-- The path of a schema's file is known. -/
lemma Represents.runs_schemaPath (h : Represents site f d s) (plain : name.IsPlain)
    (schema : IsPart name.schema) (d' : Disk) :
    d'.Runs (known (schemaPath f.root name)) (.ok (name.file site.root)) d' :=
  runs_known d' (by rw [h.root, plain.schemaPath schema])

/-- The path of a subject's folder is known. -/
lemma Represents.runs_subjectPath (h : Represents site f d s) (plain : name.IsPlain) (d' : Disk) :
    d'.Runs (known (subjectPath f.root name)) (.ok (name.folder site.root)) d' :=
  runs_known d' (by rw [h.root, plain.subjectPath])

/-- The file system takes the path of a schema's file, or nothing is found there. -/
lemma hasFile_or_missing (plain : name.IsPlain) (schema : IsPart name.schema) (root : Path)
    (d : Disk) : name.HasFile root ∨ ∃ fault, d.find (name.file root) = .error fault := by
  by_cases fits : (name.folder root).Fits ∧ (name.file root).Fits
  · exact .inl ⟨⟨plain.tenant, plain.subject, fits.1⟩, schema, fits.2⟩
  · refine .inr (d.find_of_not_fits fun file => fits ⟨file.of_append ?_, file⟩)
    rw [fileName_eq]
    simp

/-- The file of a name is there if the name is found on the shelf. -/
lemma Represents.runs_isPresent (h : Represents site f d s) (neat : s.IsNeat site.root)
    (plain : name.IsPlain) (schema : IsPart name.schema) :
    d.Runs (file (Filing.isPresent (name.file site.root))) (.ok (s.find name).isSome) d := by
  have present := runs_file (d.runs_isPresent (name.file site.root))
  cases stored : s.find name with
  | none =>
    have absent : ∃ fault, d.find (name.file site.root) = .error fault := by
      rcases hasFile_or_missing plain schema site.root d with hn | missing
      · have found := h.disk.find_file hn
        rw [stored] at found
        exact ⟨_, found⟩
      · exact missing
    obtain ⟨fault, absent⟩ := absent
    rw [absent] at present
    exact present
  | some a =>
    rw [h.disk.find_file (neat.hasFile stored).1, stored] at present
    exact present

/-- The file of a name is read, unless the name is refused, or what is found there. -/
lemma Represents.runs_readFile_verified (h : Represents site f d s) (neat : s.IsNeat site.root)
    (name : SchemaName) :
    d.Runs (f.readFile name)
      (((schemaPath site.root name).bind fun _ => Shelf.verifyFound (s.find name)).map
        fun _ => s.find name) d := by
  rcases name.schemaPath_cases site.root with ⟨plain, schema, path⟩ | ⟨e, refused⟩
  · have present := h.runs_isPresent neat plain schema
    rw [path]
    refine (h.runs_schemaPath plain schema d).bind ?_
    refine present.bind ?_
    cases stored : s.find name with
    | none => exact .pure d none
    | some a =>
      obtain ⟨bound, same⟩ := Shelf.find_eq_some_iff.1 stored
      obtain ⟨writable, ref⟩ := neat _ a bound
      have read := runs_load_found h.disk writable (by rw [ref, bound])
      rw [SchemaName.file_congr ref same] at read
      exact read
  · rw [refused]
    exact (runs_known d (by rw [h.root, refused])).fail

/-- The file of a name is read, if neither is refused. -/
lemma Represents.runs_readFile_found (h : Represents site f d s) (neat : s.IsNeat site.root)
    (plain : name.IsPlain) (schema : IsPart name.schema)
    (verified : Shelf.verifyFound (s.find name) = .ok ()) :
    d.Runs (f.readFile name) (.ok (s.find name)) d := by
  have read := h.runs_readFile_verified neat name
  rwa [plain.schemaPath schema, verified] at read

/-- The file of a name is read, unless the name is refused. -/
lemma Represents.runs_readFile (h : Represents site f d s) (tidy : s.IsTidy site.root)
    (name : SchemaName) :
    d.Runs (f.readFile name) ((schemaPath site.root name).map fun _ => s.find name) d := by
  have read := h.runs_readFile_verified tidy.isNeat name
  rw [tidy.verify_find] at read
  cases path : schemaPath site.root name with
  | ok path' => rwa [path] at read
  | error e => rwa [path] at read

lemma Represents.runs_readFile_plain (h : Represents site f d s) (tidy : s.IsTidy site.root)
    (plain : name.IsPlain) (schema : IsPart name.schema) :
    d.Runs (f.readFile name) (.ok (s.find name)) d :=
  h.runs_readFile_found tidy.isNeat plain schema (tidy.verify_find name)

/-! ### The folder of a subject -/

/-- The first item that passes a test, where there is at most one item. -/
lemma find?_of_mem_iff {l : List String} {x : Option String} (only : ∀ y, y ∈ l ↔ x = some y)
    (p : String → Bool) : l.find? p = x.filter p := by
  cases x with
  | none =>
    rw [List.eq_nil_iff_forall_not_mem.2 fun y hy => Option.some_ne_none y ((only y).1 hy).symm]
    rfl
  | some x =>
    rw [Option.filter_some]
    split
    · rename_i passes
      obtain ⟨y, found⟩ := Option.isSome_iff_exists.1 (List.find?_isSome.2 ⟨x, (only x).2 rfl, passes⟩)
      rw [found, (only y).1 (List.mem_of_find?_eq_some found)]
    · rename_i fails
      rw [List.find?_eq_none]
      intro y hy
      cases (only y).1 hy
      exact fails

/-- The folder of a subject holds the file of the schema that is bound to it, and no other schema
file. -/
lemma mem_schemaFiles_iff (disk : site.Keeps s d) (neat : s.IsNeat site.root) (file : String) :
    file ∈ schemaFiles (d.children (site.below [name.tenant, name.subject])) ↔
      (s name.subjectRef).map (fun a => fileName a.name.schema) = some file := by
  rw [disk.mem_schemaFiles, Option.map_eq_some_iff]
  constructor
  · rintro ⟨-, a, bound, same⟩
    exact ⟨a, bound, same⟩
  · rintro ⟨a, bound, rfl⟩
    exact ⟨Site.isSchemaFile_fileName (neat _ a bound).1.name.schema, a, bound, rfl⟩

/-- The folder of a subject is searched for a schema file. -/
lemma Represents.runs_firstFile (h : Represents site f d s) (neat : s.IsNeat site.root)
    (plain : name.IsPlain) (skip : Option String) :
    d.Runs (firstFile (name.folder site.root) skip)
      (.ok (((s name.subjectRef).map fun a => fileName a.name.schema).filter
        fun file => some file != skip)) d := by
  have isFolder := runs_file (d.runs_isFolder (name.folder site.root))
  rcases h.disk.subject_cases name with absent | subject
  · obtain ⟨fault, missing⟩ := h.disk.find_absent plain absent
    rw [missing] at isFolder
    rw [h.disk.free_of_absent absent]
    refine isFolder.bind ?_
    exact .pure d none
  · obtain ⟨-, hn, -⟩ := h.disk.subject name .folder subject.subject
    have leads := subject.follow_folder hn
    have listed := runs_file (d.runs_list (name.folder site.root))
    rw [Disk.list_folder leads subject.subject] at listed
    rw [Disk.find_ok leads subject.subject] at isFolder
    refine isFolder.bind ?_
    refine listed.bind ?_
    dsimp only
    rw [find?_of_mem_iff (mem_schemaFiles_iff h.disk neat)]
    exact .pure d _

/-- The schema bound to a subject is found in the cache. -/
lemma Represents.runs_bound_cached (h : Represents site f d s) (neat : s.IsNeat site.root)
    (name : SchemaName) : d.Runs (f.bound name true) (.ok (s name.subjectRef)) d := by
  rw [← h.findValue? neat name]
  exact .pure d _

/-- The schema bound to a subject is read from its file, unless it is refused. -/
lemma Represents.runs_bound_read (h : Represents site f d s) (neat : s.IsNeat site.root)
    (plain : name.IsPlain) :
    d.Runs (f.bound name false)
      ((Shelf.verifyFound (s name.subjectRef)).map fun _ => s name.subjectRef) d := by
  have first := h.runs_firstFile neat plain none
  refine (h.runs_subjectPath plain d).bind ?_
  refine first.bind ?_
  cases bound : s name.subjectRef with
  | none => exact .pure d none
  | some a =>
    obtain ⟨writable, ref⟩ := neat _ a bound
    have read := runs_load_found h.disk writable (by rw [ref, bound])
    have path : a.name.file site.root = name.folder site.root ++ [fileName a.name.schema] := by
      rw [SchemaName.file, SchemaName.folder_congr ref]
    rw [path] at read
    exact read

/-- The schema bound to a subject is read, unless the subject is refused, or the schema. -/
lemma Represents.runs_bound (h : Represents site f d s) (neat : s.IsNeat site.root)
    (name : SchemaName) (cached : Bool) :
    d.Runs (f.bound name cached)
      ((s.grant site.root (.fetchRecords name cached)).map fun _ => s name.subjectRef) d := by
  cases cached with
  | true => exact h.runs_bound_cached neat name
  | false =>
    rw [Shelf.grant, Shelf.accept, if_neg Bool.false_ne_true]
    rcases name.subjectPath_cases site.root with ⟨plain, path⟩ | ⟨e, refused⟩
    · rw [path]
      exact h.runs_bound_read neat plain
    · rw [refused]
      exact (runs_known d (by rw [h.root, refused])).fail

/-! ### Calls -/

/-- A schema is fetched from the cache or from its file, and then put into the cache. -/
lemma Represents.run_fetch_verified (h : Represents site f d s) (neat : s.IsNeat site.root)
    (name : SchemaName) (cached : Bool) :
    ∃ f', Disk.run (f.answer (.fetch name cached)) d =
        (((s.respond site.root (.fetch name cached)).1, f'), d) ∧ Represents site f' d s := by
  cases cached with
  | true =>
    refine ⟨f, run_keep_ok ?_, h⟩
    rw [← h.get? neat name]
    exact .pure d _
  | false =>
    have read := h.runs_readFile_verified neat name
    rw [Shelf.respond_fst, Shelf.grant, Shelf.accept, if_neg Bool.false_ne_true, Shelf.loads,
      if_neg Bool.false_ne_true]
    cases path : schemaPath site.root name with
    | error e =>
      rw [path] at read
      exact ⟨f, run_keep_error read.fail, h⟩
    | ok path' =>
      rw [path] at read
      dsimp only [Except.map, Except.bind, Shelf.answer] at read ⊢
      cases verified : Shelf.verifyFound (s.find name) with
      | error e =>
        rw [verified] at read
        exact ⟨f, run_keep_error read.fail, h⟩
      | ok u =>
        rw [verified] at read
        dsimp only at read ⊢
        cases stored : s.find name with
        | none =>
          rw [stored] at read
          exact ⟨f, run_keep_ok (read.bind (.pure d _)), h⟩
        | some a =>
          rw [stored] at read
          refine ⟨f.remember a, run_keep_ok (read.bind (.pure d _)), ?_⟩
          obtain ⟨bound, -⟩ := Shelf.find_eq_some_iff.1 stored
          have same : Function.update s name.subjectRef (some a) = s := by
            rw [← bound, Function.update_eq_self]
          rw [← same]
          refine h.remember neat (neat.hasFolder bound) (neat.isNamed stored) (fun b bound' => ?_)
            (by rw [same]; exact h.disk)
          rw [bound] at bound'
          cases bound'
          exact neat.fullName stored

/-- What is read from the schema bound to a subject, unless the subject is refused, or the
schema. -/
lemma Represents.run_bound (h : Represents site f d s) (neat : s.IsNeat site.root)
    (name : SchemaName) (cached : Bool) {α : Type}
    {rest : Option Aggregate → Storing (α × FileStore)} {x : Except StoreError α}
    (read : d.Runs (rest (s name.subjectRef)) (x.map fun r => (r, f)) d) :
    Disk.run (f.keep do rest (← f.bound name cached)) d =
      (((s.grant site.root (.fetchRecords name cached)).bind fun _ => x, f), d) := by
  have bound := h.runs_bound neat name cached
  cases granted : s.grant site.root (.fetchRecords name cached) with
  | error e =>
    rw [granted] at bound
    exact run_keep_error bound.fail
  | ok u =>
    rw [granted] at bound
    cases x with
    | ok r => exact run_keep_ok (bound.bind read)
    | error e => exact run_keep_error (bound.bind read)

/-- A record is selected from the schema that is bound to its subject. -/
lemma Represents.run_fetchRecord_verified (h : Represents site f d s) (neat : s.IsNeat site.root)
    (name : SchemaName) (cached : Bool) :
    Disk.run (f.answer (.fetchRecord name cached)) d =
      (((s.respond site.root (.fetchRecord name cached)).1, f), d) := by
  rw [Shelf.respond_fst]
  refine h.run_bound neat name cached ?_
  rw [Shelf.answer]
  cases stored : s name.subjectRef with
  | none => exact .pure d (none, f)
  | some a =>
    dsimp only
    cases selectRecord a name with
    | ok r => exact (runs_known d rfl).bind (.pure d (r, f))
    | error e => exact (runs_known d rfl).fail

/-- All records of the schema that is bound to a subject are read. -/
lemma Represents.run_fetchRecords_verified (h : Represents site f d s) (neat : s.IsNeat site.root)
    (name : SchemaName) (cached : Bool) :
    Disk.run (f.answer (.fetchRecords name cached)) d =
      (((s.respond site.root (.fetchRecords name cached)).1, f), d) := by
  rw [Shelf.respond_fst]
  exact h.run_bound neat name cached (.pure d (_, f))

section Tidy

variable (h : Represents site f d s) (tidy : s.IsTidy site.root) (name : SchemaName) (cached : Bool)
include h tidy

lemma Represents.run_fetch :
    ∃ f', Disk.run (f.answer (.fetch name cached)) d =
        (((s.reply site.root (.fetch name cached)).1, f'), d) ∧ Represents site f' d s := by
  rw [← tidy.respond_eq]
  exact h.run_fetch_verified tidy.isNeat name cached

lemma Represents.run_fetchRecord :
    Disk.run (f.answer (.fetchRecord name cached)) d =
      (((s.reply site.root (.fetchRecord name cached)).1, f), d) := by
  rw [← tidy.respond_eq]
  exact h.run_fetchRecord_verified tidy.isNeat name cached

lemma Represents.run_fetchRecords :
    Disk.run (f.answer (.fetchRecords name cached)) d =
      (((s.reply site.root (.fetchRecords name cached)).1, f), d) := by
  rw [← tidy.respond_eq]
  exact h.run_fetchRecords_verified tidy.isNeat name cached

end Tidy

/-- Nothing is found for a subject to which nothing is bound. -/
lemma Represents.runs_vacant (h : Represents site f d s) (neat : s.IsNeat site.root)
    (plain : name.IsPlain) (schema : IsPart name.schema) (free : s name.subjectRef = none) :
    d.Runs (file (Filing.isPresent (name.file site.root))) (.ok false) d ∧
      d.Runs (firstFile (name.folder site.root) (some (fileName name.schema))) (.ok none) d := by
  have present := h.runs_isPresent neat plain schema
  have first := h.runs_firstFile neat plain (some (fileName name.schema))
  rw [Shelf.find_of_free free] at present
  rw [free] at first
  exact ⟨present, first⟩

/-- The file of another schema is found for a subject to which another schema is bound. -/
lemma Represents.runs_firstFile_other (h : Represents site f d s) (neat : s.IsNeat site.root)
    (plain : name.IsPlain) (bound : s name.subjectRef = some b)
    (other : b.name.schema ≠ name.schema) :
    d.Runs (firstFile (name.folder site.root) (some (fileName name.schema)))
      (.ok (some (fileName b.name.schema))) d := by
  have first := h.runs_firstFile neat plain (some (fileName name.schema))
  have differs : some (fileName b.name.schema) ≠ some (fileName name.schema) := fun same =>
    other (fileName_inj.1 (Option.some.inj same))
  rwa [bound, Option.map_some, Option.filter_some, if_pos (bne_iff_ne.2 differs)] at first

/-- A schema is written if nothing is bound to its subject. -/
lemma Represents.runs_register_write (h : Represents site f d s) (neat : s.IsNeat site.root)
    (plain : name.IsPlain) (schema : IsPart name.schema) (free : s name.subjectRef = none)
    {r : Except StoreError FileStore} {d' : Disk}
    (rest : d.Runs (do
      writeFile (name.file site.root) a
      return f.remember a) r d') : d.Runs (f.register name a) r d' := by
  obtain ⟨present, first⟩ := h.runs_vacant neat plain schema free
  refine (h.runs_schemaPath plain schema d).bind ?_
  refine present.bind ?_
  refine (h.runs_subjectPath plain d).bind ?_
  exact first.bind rest

/-- A schema is registered if nothing is bound to its subject. -/
lemma Represents.runs_register (h : Represents site f d s) (neat : s.IsNeat site.root)
    (named : a.IsNamed name) (hn : name.HasFile site.root)
    (temporary : (name.temporary site.root).Fits) (free : s name.subjectRef = none) :
    ∃ f' d', d.Runs (f.register name a) (.ok f') d' ∧
      Represents site f' d' (Function.update s name.subjectRef (some a)) := by
  obtain ⟨d', written, disk⟩ := h.disk.runs_writeFile (a := a) hn temporary
    (fun b bound => by rw [free] at bound; cases bound) named.schema
  refine ⟨f.remember a, d', ?_, h.remember neat hn.toHasFolder named
    (fun b bound => by rw [free] at bound; cases bound) disk⟩
  exact h.runs_register_write neat hn.isPlain hn.schema free (written.bind (.pure d' _))

/-- A new schema is not written if its path is too long. -/
lemma Represents.runs_register_long (h : Represents site f d s) (neat : s.IsNeat site.root)
    (plain : name.IsPlain) (schema : IsPart name.schema) (free : s name.subjectRef = none)
    (long : ¬(name.temporary site.root).Fits) :
    ∃ d', d.Runs (f.register name a) (.error (.file .invalidName)) d' ∧ site.Keeps s d' := by
  obtain ⟨d', failed, keeps⟩ := h.disk.runs_writeFile_long (a := a) plain schema long
  exact ⟨d', h.runs_register_write neat plain schema free failed.fail, keeps⟩

/-- Nothing is registered if something is bound to the subject. -/
lemma Represents.runs_register_bound (h : Represents site f d s) (neat : s.IsNeat site.root)
    (plain : name.IsPlain) (schema : IsPart name.schema) (bound : s name.subjectRef = some b) :
    d.Runs (f.register name a) (.error (Shelf.refusal name b)) d := by
  have present := h.runs_isPresent neat plain schema
  rw [Shelf.find_of_bound bound] at present
  refine (h.runs_schemaPath plain schema d).bind ?_
  rw [Shelf.refusal]
  by_cases same : b.name.schema = name.schema
  · rw [if_pos same] at present ⊢
    refine present.bind ?_
    exact (Runs.throw d _).fail
  · rw [if_neg same] at present ⊢
    refine present.bind ?_
    refine (h.runs_subjectPath plain d).bind ?_
    obtain ⟨storable, ref⟩ := neat _ b bound
    have full : name.subjectKey ++ "/" ++ FileName.stem (fileName b.name.schema) =
        b.name.fullName := by
      rw [stem_fileName storable.name.schema, SchemaName.subjectKey_eq, SchemaName.fullName_eq, ref]
    refine (h.runs_firstFile_other neat plain bound same).bind ?_
    dsimp only
    rw [full]
    exact .throw d _

/-- A schema is replaced if it is not refused and has the expected revision. -/
lemma Represents.runs_replace (h : Represents site f d s) (neat : s.IsNeat site.root)
    (named : a.IsNamed name) (verified : Shelf.verifyFound (s.find name) = .ok ())
    {expected : Revision}
    (checked : checkRevision name.fullName (s.find name) expected = .ok ()) :
    ∃ f' d', d.Runs (f.replace name a expected) (.ok f') d' ∧
      Represents site f' d' (Function.update s name.subjectRef (some a)) := by
  obtain ⟨b, stored, -⟩ := checkRevision_eq_ok_iff.1 checked
  obtain ⟨hn, temporary⟩ := neat.hasFile stored
  obtain ⟨-, schema⟩ := Shelf.find_eq_some_iff.1 stored
  obtain ⟨d', written, disk⟩ := h.disk.runs_writeFile (a := a) hn temporary
    (fun c bound => by rw [Shelf.eq_of_find stored bound, schema]) named.schema
  refine ⟨f.remember a, d', ?_, h.remember neat hn.toHasFolder named
    (fun c bound => by rw [Shelf.eq_of_find stored bound, neat.fullName stored]) disk⟩
  refine (h.runs_readFile_found neat hn.isPlain hn.schema verified).bind ?_
  refine (runs_known d checked).bind ?_
  refine (h.runs_schemaPath hn.isPlain hn.schema d).bind ?_
  exact written.bind (.pure d' _)

/-- A schema is neither replaced nor removed if it has another revision or is not there. -/
lemma Represents.runs_stale (h : Represents site f d s) (neat : s.IsNeat site.root)
    (plain : name.IsPlain) (schema : IsPart name.schema)
    (verified : Shelf.verifyFound (s.find name) = .ok ()) {expected : Revision} {e : StoreError}
    {rest : Unit → Storing FileStore}
    (checked : checkRevision name.fullName (s.find name) expected = .error e) :
    d.Runs (do rest (← known (checkRevision name.fullName (← f.readFile name) expected)))
      (.error e) d := by
  refine (h.runs_readFile_found neat plain schema verified).bind ?_
  exact (runs_known d checked).fail

/-- Nor is it if its name is no path, or if it is refused. -/
lemma Represents.runs_refused (h : Represents site f d s) (neat : s.IsNeat site.root)
    {e : StoreError}
    (refused : ((schemaPath site.root name).bind fun _ => Shelf.verifyFound (s.find name)) =
      .error e) {rest : Option Aggregate → Storing FileStore} :
    d.Runs (do rest (← f.readFile name)) (.error e) d := by
  have read := h.runs_readFile_verified neat name
  rw [refused] at read
  exact read.fail

/-- A schema is removed if it is not refused and has the expected revision. -/
lemma Represents.runs_remove (h : Represents site f d s) (neat : s.IsNeat site.root)
    (verified : Shelf.verifyFound (s.find name) = .ok ()) {expected : Revision}
    (checked : checkRevision name.fullName (s.find name) expected = .ok ()) :
    ∃ f' d', d.Runs (f.remove name expected) (.ok f') d' ∧
      Represents site f' d' (Function.update s name.subjectRef none) := by
  obtain ⟨b, stored, -⟩ := checkRevision_eq_ok_iff.1 checked
  obtain ⟨hn, -⟩ := neat.hasFile stored
  obtain ⟨d₁, removed, subject, disk⟩ := h.disk.removeFile hn stored
  have folder := subject.follow_folder hn.toHasFolder
  have listed := runs_file (d₁.runs_list (name.folder site.root))
  rw [Disk.list_folder folder subject.subject] at listed
  have start {r : Except StoreError FileStore} {d' : Disk} (rest : d₁.Runs (do
        if (d₁.children (site.below [name.tenant, name.subject])).isEmpty then
          file (Filing.removeFolder (name.folder site.root))
        return { f with cache := f.cache.erase name.fullName }) r d') :
      d.Runs (f.remove name expected) r d' :=
    (h.runs_readFile_found neat hn.isPlain hn.schema verified).bind <|
      (runs_known d checked).bind <| (h.runs_schemaPath hn.isPlain hn.schema d).bind <|
      (runs_file (runs_removeFile removed)).bind <|
      (h.runs_subjectPath hn.isPlain d₁).bind <| listed.bind rest
  cases empty : (d₁.children (site.below [name.tenant, name.subject])).isEmpty with
  | true =>
    obtain ⟨d₂, cleared, disk₂⟩ := disk.removeFolder subject hn.toHasFolder (Function.update_self ..)
      empty
    refine ⟨_, d₂, start ?_, h.forget neat hn.toHasFolder stored disk₂⟩
    rw [empty]
    exact (runs_file (runs_removeFolder cleared)).bind (.pure d₂ _)
  | false =>
    refine ⟨_, d₁, start ?_, h.forget neat hn.toHasFolder stored disk⟩
    rw [empty]
    exact .pure d₁ _

/-- **The store on files answers every call as the shelf does**, if what is written has the name it
is written under, unless it refuses the name or what it reads; and it stands for the same shelf
afterwards. -/
theorem Represents.respond (h : Represents site f d s) (neat : s.IsNeat site.root) {c : StoreCall}
    (titled : c.IsTitled) :
    ∃ f' d', Disk.run (f.answer c) d = (((s.respond site.root c).1, f'), d') ∧
      Represents site f' d' (s.respond site.root c).2 := by
  cases c with
  | fetch name cached =>
    obtain ⟨f', fetched, after⟩ := h.run_fetch_verified neat name cached
    rw [s.respond_read site.root rfl]
    exact ⟨f', d, fetched, after⟩
  | fetchRecord name cached =>
    rw [s.respond_read site.root rfl]
    exact ⟨f, d, h.run_fetchRecord_verified neat name cached, h⟩
  | fetchRecords name cached =>
    rw [s.respond_read site.root rfl]
    exact ⟨f, d, h.run_fetchRecords_verified neat name cached, h⟩
  | register name a =>
    rw [Shelf.respond_register]
    rcases name.schemaPath_cases site.root with ⟨plain, schema, path⟩ | ⟨part, refused⟩
    · cases bound : s name.subjectRef with
      | some b =>
        have refused := h.runs_register_bound (a := a) neat plain schema bound
        rw [Shelf.reply_of_accept (Shelf.accept_register_of_bound path bound), Shelf.answer, bound]
        exact ⟨f, d, run_keep_error refused.fail, h⟩
      | none =>
        by_cases short : (name.temporary site.root).Fits
        · obtain ⟨f', d', registered, after⟩ :=
            h.runs_register neat titled.1 (plain.hasFile schema short) short bound
          rw [Shelf.reply_of_accept (Shelf.accept_register_of_fits path short), Shelf.answer, bound]
          exact ⟨f', d', run_keep_ok (registered.bind (.pure d' ((), f'))), after⟩
        · obtain ⟨d', failed, keeps⟩ := h.runs_register_long (a := a) neat plain schema bound short
          rw [Shelf.reply_of_refuse (Shelf.accept_register_of_long path bound short)]
          exact ⟨f, d', run_keep_error failed.fail, h.root, h.cache, keeps⟩
    · have failed : d.Runs (f.register name a) (.error (.invalidKey part)) d :=
        (runs_known d (by rw [h.root, refused])).fail
      rw [Shelf.reply_of_refuse (Shelf.accept_write_of_refused rfl refused)]
      exact ⟨f, d, run_keep_error failed.fail, h⟩
  | replace name a expected =>
    cases granted : s.grant site.root (.replace name a expected) with
    | error e =>
      rw [Shelf.respond_of_refuse granted]
      rw [Shelf.grant_replace] at granted
      exact ⟨f, d, run_keep_error (h.runs_refused neat granted).fail, h⟩
    | ok u =>
      rw [Shelf.respond_of_grant granted, Shelf.answer]
      rw [Shelf.grant_replace] at granted
      obtain ⟨plain, schema, verified⟩ := Shelf.of_granted granted
      cases checked : checkRevision name.fullName (s.find name) expected with
      | ok u =>
        obtain ⟨f', d', replaced, after⟩ := h.runs_replace neat titled.1 verified checked
        exact ⟨f', d', run_keep_ok (replaced.bind (.pure d' ((), f'))), after⟩
      | error e =>
        exact ⟨f, d, run_keep_error (h.runs_stale neat plain schema verified checked).fail, h⟩
  | remove name expected =>
    cases granted : s.grant site.root (.remove name expected) with
    | error e =>
      rw [Shelf.respond_of_refuse granted]
      rw [Shelf.grant_remove] at granted
      exact ⟨f, d, run_keep_error (h.runs_refused neat granted).fail, h⟩
    | ok u =>
      rw [Shelf.respond_of_grant granted, Shelf.answer]
      rw [Shelf.grant_remove] at granted
      obtain ⟨plain, schema, verified⟩ := Shelf.of_granted granted
      cases checked : checkRevision name.fullName (s.find name) expected with
      | ok u =>
        obtain ⟨f', d', removed, after⟩ := h.runs_remove neat verified checked
        exact ⟨f', d', run_keep_ok (removed.bind (.pure d' ((), f'))), after⟩
      | error e =>
        exact ⟨f, d, run_keep_error (h.runs_stale neat plain schema verified checked).fail, h⟩

/-- **The store on files answers every proper call as the shelf does**, unless it refuses the name;
and it stands for the same shelf afterwards. -/
theorem Represents.reply (h : Represents site f d s) (tidy : s.IsTidy site.root) {c : StoreCall}
    (proper : c.IsProper) :
    ∃ f' d', Disk.run (f.answer c) d = (((s.reply site.root c).1, f'), d') ∧
      Represents site f' d' (s.reply site.root c).2 := by
  rw [← tidy.respond_eq]
  exact h.respond tidy.isNeat proper.isTitled

/-- **The store on files answers every sound call as the shelf does**, and stands for the same
shelf afterwards. -/
theorem Represents.answer (h : Represents site f d s) (tidy : s.IsTidy site.root) {c : StoreCall}
    (sound : c.IsSound site.root) :
    ∃ f' d', Disk.run (f.answer c) d = (((s.answer c).1, f'), d') ∧
      Represents site f' d' (s.answer c).2 := by
  rw [← s.reply_of_isSound sound]
  exact h.reply tidy sound.isProper

end SchemaLedger.FileStore
