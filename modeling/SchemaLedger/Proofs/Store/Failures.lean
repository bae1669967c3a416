import SchemaLedger.Proofs.Store.Agreement
import SchemaLedger.Proofs.Store.Faults

/-!
What a call that fails leaves behind.

* `FileStore.Reachable`: stores that were opened in an empty folder, have answered calls, have
  failed, and were opened again.
* `FileStore.Mirrors`: the files and the cache show the same schemas, and reads agree.
* `StoreCall.change`: the schemas after a call that succeeded.
* `FileStore.failure_contained`: a write that succeeds has changed the files and the cache, and one
  that fails has changed neither. The exception is a removal that fails when the file of the schema
  is gone: the cache still shows the schema then (`FileStore.removal_half_done`).
-/

namespace SchemaLedger

open FileStore

/-! ### What a call changes -/

/-- The schemas after a call that succeeded. -/
def StoreCall.change (S : Set Aggregate) : StoreCall → Set Aggregate
  | .register _ a => insert a S
  | .replace name a _ => insert a {b ∈ S | b.name.fullName ≠ name.fullName}
  | .remove name _ => {b ∈ S | b.name.fullName ≠ name.fullName}
  | _ => S

namespace Shelf.IsTidy

variable {root : Path} {s : Shelf} {name : SchemaName} {a b : Aggregate} {c : StoreCall}

/-- A schema that has the full name of another is the one bound to the other's subject. -/
lemma bound_of_fullName (tidy : s.IsTidy root) (hn : name.HasFolder root) (stored : b ∈ s.schemas)
    (same : b.name.fullName = name.fullName) : s name.subjectRef = some b := by
  have own := (tidy _ b stored).1.name.toHasFolder
  rw [← (SchemaName.eq_of_fullName own hn same).1]
  exact stored

/-- The schemas when another one, or none, is bound to a subject. -/
lemma schemas_update (tidy : s.IsTidy root) (hn : name.HasFolder root) {x : Option Aggregate}
    (own : ∀ b, s name.subjectRef = some b → b.name.fullName = name.fullName)
    (new : ∀ b, x = some b → b.name.subjectRef = name.subjectRef) :
    Shelf.schemas (Function.update s name.subjectRef x) =
      {b | x = some b} ∪ {b ∈ s.schemas | b.name.fullName ≠ name.fullName} := by
  ext b
  rw [Shelf.schemas, Set.mem_ofPred_eq, Function.update_apply]
  constructor
  · intro bound
    split at bound
    · exact .inl bound
    · rename_i other
      refine .inr ⟨bound, fun same => other ?_⟩
      have here := tidy.bound_of_fullName hn bound same
      exact (tidy _ b here).2
  · rintro (bound | ⟨bound, other⟩)
    · rw [if_pos (new b bound)]
      exact bound
    · rw [if_neg]
      · exact bound
      · intro same
        exact other (own b (same ▸ bound))

/-- The schemas after a call that succeeded. -/
lemma schemas_reply (tidy : s.IsTidy root) (proper : c.IsProper) {u : c.Result}
    (succeeded : (s.reply root c).1 = .ok u) :
    (s.reply root c).2.schemas = c.change s.schemas := by
  cases accepted : s.accept root c with
  | error e =>
    rw [Shelf.reply_of_refuse accepted] at succeeded
    cases succeeded
  | ok _ =>
    rw [Shelf.reply_of_accept accepted] at succeeded ⊢
    cases c with
    | fetch name cached => rfl
    | fetchRecord name cached => rfl
    | fetchRecords name cached => rfl
    | register name a =>
      rw [Shelf.answer] at succeeded ⊢
      cases free : s name.subjectRef with
      | some b =>
        rw [free] at succeeded
        cases succeeded
      | none =>
        obtain ⟨named, storable⟩ := Shelf.isSound_of_accept free proper accepted
        have hn := (named.hasFile storable.name).toHasFolder
        have others : {b ∈ s.schemas | b.name.fullName ≠ name.fullName} = s.schemas := by
          refine Set.ext fun b => and_iff_left_of_imp fun stored same => ?_
          rw [tidy.bound_of_fullName hn stored same] at free
          cases free
        have changed := tidy.schemas_update hn (x := some a)
          (fun b bound => by rw [free] at bound; cases bound)
          (fun b same => by cases same; exact named.subjectRef)
        rw [others] at changed
        simpa [StoreCall.change, Set.insert_def, eq_comm, Set.ext_iff] using changed
    | replace name a expected =>
      rw [Shelf.answer] at succeeded ⊢
      cases checked : checkRevision name.fullName (s.find name) expected with
      | error e =>
        rw [checked] at succeeded
        cases succeeded
      | ok _ =>
        obtain ⟨b, found, -⟩ := checkRevision_eq_ok_iff.1 checked
        obtain ⟨bound, -⟩ := Shelf.find_eq_some_iff.1 found
        have changed := tidy.schemas_update (tidy.hasFolder bound) (x := some a)
          (fun c bound' => by rw [bound] at bound'; cases bound'; exact tidy.fullName found)
          (fun c same => by cases same; exact proper.1.subjectRef)
        simpa [StoreCall.change, Set.insert_def, eq_comm, Set.ext_iff] using changed
    | remove name expected =>
      rw [Shelf.answer] at succeeded ⊢
      cases checked : checkRevision name.fullName (s.find name) expected with
      | error e =>
        rw [checked] at succeeded
        cases succeeded
      | ok _ =>
        obtain ⟨b, found, -⟩ := checkRevision_eq_ok_iff.1 checked
        obtain ⟨bound, -⟩ := Shelf.find_eq_some_iff.1 found
        have changed := tidy.schemas_update (tidy.hasFolder bound) (x := none)
          (fun c bound' => by rw [bound] at bound'; cases bound'; exact tidy.fullName found)
          (fun c same => by cases same)
        simpa [StoreCall.change] using changed

end Shelf.IsTidy

namespace FileStore

variable {site : Site} {f f' : FileStore} {d d' : Disk} {s : Shelf} {c : StoreCall}

/-! ### Stores that can be reached -/

/-- Stores with their files: opened in an empty folder; after a proper call that was answered; after
any course of a call that was not to remove a schema; and opened again, whatever became of a call
before. -/
inductive Reachable (site : Site) : FileStore → Disk → Prop
  | opened {f : FileStore} {d : Disk} (opened : site.disk.Runs (openFolder site.root) (.ok f) d) :
    Reachable site f d
  | answered {f f' : FileStore} {d d' : Disk} {c : StoreCall} {x : c.Answer}
    (before : Reachable site f d) (proper : c.IsProper)
    (answered : Disk.run (f.answer c) d = ((x, f'), d')) : Reachable site f' d'
  | ended {f f' : FileStore} {d d' : Disk} {c : StoreCall} {x : c.Answer}
    (before : Reachable site f d) (proper : c.IsProper)
    (stays : ∀ name expected, c ≠ .remove name expected)
    (course : Disk.Course (f.answer c) d (some (x, f')) d') : Reachable site f' d'
  | reopened {f f' : FileStore} {d d' d'' : Disk} {c : StoreCall}
    {r : Option (c.Answer × FileStore)}
    (before : Reachable site f d) (proper : c.IsProper) (course : Disk.Course (f.answer c) d r d')
    (opened : d'.Runs (openFolder site.root) (.ok f') d'') : Reachable site f' d''

/-- What the course of a call leaves behind is a tidy shelf. -/
lemma Leaves.keeps {d : Disk} (left : Leaves site s c d) (tidy : s.IsTidy site.root)
    (proper : c.IsProper) : ∃ s', s'.IsTidy site.root ∧ site.Keeps s' d :=
  left.elim (fun keeps => ⟨s, tidy, keeps⟩) fun keeps => ⟨_, tidy.reply proper, keeps⟩

/-- **Every store that can be reached stands for a tidy shelf.** -/
lemma Reachable.represents (h : Reachable site f d) :
    ∃ s, s.IsTidy site.root ∧ Represents site f d s := by
  induction h with
  | opened opened =>
    obtain ⟨f₁, d₁, first, represents⟩ := represents_open site
    cases opened.symm.trans first
    exact ⟨_, Shelf.isTidy_empty, represents⟩
  | answered _ proper answered ih =>
    obtain ⟨s, tidy, represents⟩ := ih
    obtain ⟨f₁, d₁, first, after⟩ := represents.reply tidy proper
    cases answered.symm.trans first
    exact ⟨_, tidy.reply proper, after⟩
  | ended _ proper stays course ih =>
    obtain ⟨s, tidy, represents⟩ := ih
    rcases (represents.course tidy proper course).2 _ rfl with ⟨-, after⟩ | ⟨-, same, left⟩
    · exact ⟨_, tidy.reply proper, after⟩
    · have keeps := left.resolve_right fun ⟨⟨name, expected, removes⟩, _⟩ =>
        stays name expected removes
      dsimp only at same
      exact ⟨s, tidy, same ▸ represents.root, same ▸ represents.cache, keeps⟩
  | reopened _ proper course opened ih =>
    obtain ⟨s, tidy, represents⟩ := ih
    obtain ⟨s', tidy', keeps⟩ := (represents.course tidy proper course).1.keeps tidy proper
    obtain ⟨f₁, first, after⟩ := reopen keeps tidy'
    cases opened.symm.trans first
    exact ⟨s', tidy', after⟩

/-! ### Failures -/

/-- The files and the cache show the same schemas, and reads with and without the cache agree on
every name that files do not refuse. -/
structure Mirrors (site : Site) (f : FileStore) (d : Disk) (S : Set Aggregate) : Prop where
  onDisk : onDisk site.root d = .ok S
  remembered : f.remembered = S
  fetch : ∀ name path, schemaPath site.root name = .ok path →
    (Disk.run (f.answer (.fetch name true)) d).1.1 = (Disk.run (f.answer (.fetch name false)) d).1.1
  fetchRecord : ∀ name path, subjectPath site.root name = .ok path →
    (Disk.run (f.answer (.fetchRecord name true)) d).1.1 =
      (Disk.run (f.answer (.fetchRecord name false)) d).1.1
  fetchRecords : ∀ name path, subjectPath site.root name = .ok path →
    (Disk.run (f.answer (.fetchRecords name true)) d).1.1 =
      (Disk.run (f.answer (.fetchRecords name false)) d).1.1

/-- A store that stands for a shelf shows it in its files and in its cache. -/
lemma Represents.mirrors (h : Represents site f d s) (tidy : s.IsTidy site.root) :
    Mirrors site f d s.schemas where
  onDisk := onDisk_of_keeps h.disk tidy
  remembered := h.remembered tidy
  fetch name path known := by
    obtain ⟨f₁, fast, -⟩ := h.run_fetch tidy name true
    obtain ⟨f₂, slow, -⟩ := h.run_fetch tidy name false
    have admitted : s.accept site.root (.fetch name false) = .ok () := by
      rw [Shelf.accept, if_neg Bool.false_ne_true, known]
      rfl
    rw [fast, slow, Shelf.reply_of_accept admitted]
    rfl
  fetchRecord name path known := by
    have admitted : s.accept site.root (.fetchRecord name false) = .ok () := by
      rw [Shelf.accept, if_neg Bool.false_ne_true, known]
      rfl
    rw [h.run_fetchRecord tidy, h.run_fetchRecord tidy, Shelf.reply_of_accept admitted]
    rfl
  fetchRecords name path known := by
    have admitted : s.accept site.root (.fetchRecords name false) = .ok () := by
      rw [Shelf.accept, if_neg Bool.false_ne_true, known]
      rfl
    rw [h.run_fetchRecords tidy, h.run_fetchRecords tidy, Shelf.reply_of_accept admitted]
    rfl

/-- A call that fails leaves the cache as it was. -/
lemma course_error {e : StoreError} (course : Disk.Course (f.answer c) d (some (.error e, f')) d') :
    f' = f := by
  have same : ∃ p : Storing (c.Result × FileStore), f.answer c = f.keep p := by
    cases c <;> exact ⟨_, rfl⟩
  obtain ⟨p, same⟩ := same
  rw [same] at course
  obtain ⟨y, -, result⟩ := course_keep course
  obtain ⟨y, -, kept⟩ := result _ rfl
  cases y with
  | ok y => cases congrArg Prod.fst kept
  | error e => exact congrArg Prod.snd kept

/-- **Failures are contained.** Calls to the file system may fail while a proper call is answered by
a store that can be reached. If it succeeds, the files and the cache show the new schemas. If it
fails, both show the old ones; only a removal may fail when the files have changed already, while
the cache has not. -/
theorem failure_contained (site : Site) {f f' : FileStore} {d d' : Disk} {c : StoreCall}
    {x : c.Answer} (reachable : Reachable site f d) (proper : c.IsProper)
    (course : Disk.Course (f.answer c) d (some (x, f')) d') :
    ∃ S, Mirrors site f d S ∧
      match x with
      | .ok _ => Mirrors site f' d' (c.change S)
      | .error _ => f' = f ∧ (Mirrors site f' d' S ∨
          (∃ name expected, c = .remove name expected) ∧ onDisk site.root d' = .ok (c.change S) ∧
            f'.remembered = S) := by
  obtain ⟨s, tidy, represents⟩ := reachable.represents
  refine ⟨s.schemas, represents.mirrors tidy, ?_⟩
  have concludes := (represents.course tidy proper course).2 _ rfl
  cases x with
  | ok u =>
    rcases concludes with ⟨same, after⟩ | ⟨⟨e, failed⟩, -, -⟩
    · have mirrors := after.mirrors (tidy.reply proper)
      rwa [tidy.schemas_reply proper same.symm] at mirrors
    · cases failed
  | error e =>
    have cache := course_error course
    subst cache
    have unchanged (keeps : site.Keeps s d') : Mirrors site f' d' s.schemas :=
      Represents.mirrors ⟨represents.root, represents.cache, keeps⟩ tidy
    refine ⟨rfl, ?_⟩
    rcases concludes with ⟨same, after⟩ | ⟨-, -, keeps | ⟨removes, keeps⟩⟩
    · rw [Shelf.reply_error same.symm] at after
      exact .inl (unchanged after.disk)
    · exact .inl (unchanged keeps)
    · cases succeeded : (s.reply site.root c).1 with
      | error e =>
        rw [Shelf.reply_error succeeded] at keeps
        exact .inl (unchanged keeps)
      | ok u =>
        refine .inr ⟨removes, ?_, represents.remembered tidy⟩
        rw [onDisk_of_keeps keeps (tidy.reply proper), tidy.schemas_reply proper succeeded]

/-! ### Removals that fail late -/

variable {name : SchemaName} {a : Aggregate}

/-- When the file of a schema has been removed, the folder of its subject may not be listed. Then
the removal fails, and the schema is gone from the files. -/
lemma Represents.lapse_remove (h : Represents site f d s) (tidy : s.IsTidy site.root)
    (stored : s.find name = some a) (fault : FileFault) :
    ∃ d', Disk.Lapse (f.answer (.remove name a.revision)) d (.error (.file fault), f) d' ∧
      site.Keeps (Function.update s name.subjectRef none) d' := by
  obtain ⟨hn, -⟩ := tidy.hasFile stored
  obtain ⟨d₁, removed, -, keeps⟩ := h.disk.removeFile hn stored
  have checked : checkRevision name.fullName (s.find name) a.revision = .ok () :=
    checkRevision_eq_ok_iff.2 ⟨a, stored, rfl⟩
  have listing : Disk.Lapse (Storing.file (Filing.list (name.folder site.root))).run d₁
      (.error (.file fault)) d₁ :=
    Disk.Lapse.now (q := .list (name.folder site.root)) (x := Except.error fault)
      ⟨fault, rfl⟩
  have removing : Disk.Lapse (f.remove name a.revision).run d (.error (.file fault)) d₁ :=
    .after (h.runs_readFile_plain tidy hn.isPlain hn.schema) <|
    .after (Storing.runs_known d checked) <|
    .after (h.runs_schemaPath hn.isPlain hn.schema d) <|
    .after (Storing.runs_file (Disk.runs_removeFile removed)) <|
    .after (h.runs_subjectPath hn.isPlain d₁) (listing.fail _)
  have answered : Disk.Lapse
      (do return ((), ← f.remove name a.revision) : Storing (Unit × FileStore)).run d
      (.error (.file fault)) d₁ := removing.fail _
  refine ⟨d₁, ?_, keeps⟩
  have whole := answered.bind fun r => .done (f.kept r)
  rw [← keep_eq] at whole
  exact whole

/-- A schema that is gone from the files only is found if the cache may be used. -/
lemma Represents.fetch_half_removed (h : Represents site f d s) (tidy : s.IsTidy site.root)
    (stored : s.find name = some a)
    (keeps : site.Keeps (Function.update s name.subjectRef none) d') :
    (Disk.run (f.answer (.fetch name true)) d').1.1 = .ok (some a) ∧
      (Disk.run (f.answer (.fetch name false)) d').1.1 = .ok none := by
  obtain ⟨hn, -⟩ := tidy.hasFile stored
  have cached : d'.Runs (f.fetch name true) (.ok (some a, f)) d' := by
    rw [← stored, ← h.get? tidy.isNeat name]
    exact .pure d' _
  -- the files are read as by a store that has forgotten the schema
  have forgotten := h.forget tidy.isNeat hn.toHasFolder stored keeps
  have gone := forgotten.runs_readFile_plain (tidy.update fun b h => nomatch h) hn.isPlain hn.schema
  rw [Shelf.find_of_free (Function.update_self ..)] at gone
  have read : d'.Runs (f.readFile name) (.ok none) d' := gone
  have uncached : d'.Runs (f.fetch name false) (.ok (none, f)) d' := read.bind (.pure d' _)
  exact ⟨congrArg (fun x => x.1.1) (Storing.run_keep_ok cached),
    congrArg (fun x => x.1.1) (Storing.run_keep_ok uncached)⟩

end FileStore

namespace Rehearsal

/-- A shelf with one schema. -/
def stocked : Shelf :=
  Function.update Shelf.empty orders.subjectRef (some registered)

lemma find_stocked : stocked.find orders = some registered :=
  Shelf.find_eq_some_iff.2 ⟨Function.update_self .., rfl⟩

/-- A store in which one schema is registered. -/
lemma reachable_stocked : ∃ f d, Reachable site f d ∧ stocked.IsTidy site.root ∧
    Represents site f d stocked := by
  obtain ⟨f, d, opened, represents⟩ := represents_open site
  have sound : (StoreCall.register orders registered).IsSound site.root :=
    ⟨⟨rfl, rfl, rfl⟩, isStorable_registered⟩
  obtain ⟨f', d', answered, after⟩ := represents.answer Shelf.isTidy_empty sound
  exact ⟨f', d', .answered (.opened opened) sound.isProper answered,
    Shelf.isTidy_empty.answer sound, after⟩

lemma schemas_stocked : stocked.schemas = {registered} := by
  refine Set.ext fun a => ?_
  rw [Shelf.schemas, Set.mem_ofPred_eq, stocked, Function.update_apply, Set.mem_singleton_iff]
  constructor
  · intro bound
    split at bound
    · exact (Option.some.inj bound).symm
    · cases bound
  · rintro rfl
    exact if_pos rfl

lemma schemas_cleared : Shelf.schemas (Function.update stocked orders.subjectRef none) = ∅ := by
  have cleared : Function.update stocked orders.subjectRef none = Shelf.empty := by
    rw [stocked, Function.update_idem]
    exact Function.update_eq_self orders.subjectRef Shelf.empty
  rw [cleared]
  exact Set.eq_empty_of_forall_notMem fun a bound => nomatch bound

end Rehearsal

open Rehearsal

/-- Whatever the removal of the schema comes to, it is contained. -/
theorem FileStore.failure_of_removal :
    ∃ f d d', Reachable site f d ∧ (StoreCall.remove orders registered.revision).IsProper ∧
      Disk.Course (f.answer (.remove orders registered.revision)) d
        (some (.error (.file .permissionDenied), f)) d' ∧
      ∃ S, Mirrors site f d S ∧ (Mirrors site f d' S ∨
        (∃ name expected, StoreCall.remove orders registered.revision = .remove name expected) ∧
          onDisk site.root d' = .ok ((StoreCall.remove orders registered.revision).change S) ∧
            f.remembered = S) := by
  obtain ⟨f, d, reachable, tidy, represents⟩ := reachable_stocked
  obtain ⟨d', lapse, -⟩ := represents.lapse_remove tidy find_stocked .permissionDenied
  obtain ⟨S, before, -, after⟩ := failure_contained site
    (c := .remove orders registered.revision) reachable trivial lapse.course
  exact ⟨f, d, d', reachable, trivial, lapse.course, S, before, after⟩

/-- A removal fails when the file of the schema is gone: a read that may use the cache still finds
the schema, and one that may not does not. -/
theorem FileStore.removal_half_done :
    ∃ f d d', Reachable site f d ∧
      Disk.Lapse (f.answer (.remove orders registered.revision)) d
        (.error (.file .permissionDenied), f) d' ∧
      onDisk site.root d = .ok {registered} ∧ onDisk site.root d' = .ok ∅ ∧
      f.remembered = {registered} ∧
      (Disk.run (f.answer (.fetch orders true)) d').1.1 = .ok (some registered) ∧
      (Disk.run (f.answer (.fetch orders false)) d').1.1 = .ok none := by
  obtain ⟨f, d, reachable, tidy, represents⟩ := reachable_stocked
  obtain ⟨d', lapse, keeps⟩ := represents.lapse_remove tidy find_stocked .permissionDenied
  have before := represents.mirrors tidy
  have after := onDisk_of_keeps keeps (tidy.update fun b h => nomatch h)
  rw [schemas_stocked] at before
  rw [schemas_cleared] at after
  exact ⟨f, d, d', reachable, lapse, before.onDisk, after, before.remembered,
    represents.fetch_half_removed tidy find_stocked keeps⟩

end SchemaLedger
