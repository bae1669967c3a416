import SchemaLedger.Proofs.Store.Memory
import SchemaLedger.Proofs.Store.Sound

/-!
A store as its callers see it.

* `Shelf`: the schema bound to each subject, and nothing else. `Shelf.answer` answers a call, and
  `Shelf.reply` answers it as files do, which refuse some names (`Shelf.accept`).
* `Shelf.IsTidy`: what is bound can be stored. A proper call leaves a tidy shelf
  (`Shelf.IsTidy.reply`).
* `Shelf.Performs`: what a write does that succeeds, with one case for each kind of write.
* `Shelf.IsAheadOf`: the shelf has another revision than a write expects. A conflict is reported of
  such writes only (`Shelf.isAheadOf_of_conflict`).
* `Tables.Represents`, `Tables.Represents.answer`: the two tables of the store in memory stand
  for a shelf, and answer every sound call as the shelf does.
-/

namespace SchemaLedger

open FileStore

/-- The schema bound to each subject. -/
abbrev Shelf := SubjectRef → Option Aggregate

namespace Shelf

/-- Nothing is bound. -/
def empty : Shelf := fun _ => none

/-- The schema of a name. -/
def find (s : Shelf) (name : SchemaName) : Option Aggregate :=
  (s name.subjectRef).filter fun a => a.name.schema == name.schema

/-- Why nothing is registered under a name whose subject is bound. -/
def refusal (name : SchemaName) (b : Aggregate) : StoreError :=
  if b.name.schema = name.schema then .alreadyStored name.fullName
  else .subjectBound name.subjectKey b.name.fullName

/-- The answer to a call, and the shelf after it. -/
def answer (s : Shelf) : (c : StoreCall) → c.Answer × Shelf
  | .fetch name _ => (.ok (s.find name), s)
  | .fetchRecord name _ =>
    (match s name.subjectRef with
      | some a => selectRecord a name
      | none => .ok none, s)
  | .fetchRecords name _ => (.ok ((s name.subjectRef).map (·.ledger.records)), s)
  | .register name a =>
    match s name.subjectRef with
    | none => (.ok (), Function.update s name.subjectRef (some a))
    | some b => (.error (refusal name b), s)
  | .replace name a expected =>
    match checkRevision name.fullName (s.find name) expected with
    | .ok () => (.ok (), Function.update s name.subjectRef (some a))
    | .error e => (.error e, s)
  | .remove name expected =>
    match checkRevision name.fullName (s.find name) expected with
    | .ok () => (.ok (), Function.update s name.subjectRef none)
    | .error e => (.error e, s)

/-- All schemas that are bound to their subjects. -/
def schemas (s : Shelf) : Set Aggregate :=
  {a | s a.name.subjectRef = some a}

/-- What is bound to a subject can be stored, and has the subject's name. -/
def IsTidy (root : Path) (s : Shelf) : Prop :=
  ∀ r a, s r = some a → a.IsStorable root ∧ a.name.subjectRef = r

/-- What is bound to a subject has the subject's name, and was written.  It may be refused when it
is read. -/
def IsNeat (root : Path) (s : Shelf) : Prop :=
  ∀ r a, s r = some a → a.IsWritable root ∧ a.name.subjectRef = r

lemma IsTidy.isNeat {root : Path} {s : Shelf} (tidy : s.IsTidy root) : s.IsNeat root :=
  fun r a bound => ⟨(tidy r a bound).1.isWritable, (tidy r a bound).2⟩

variable {root : Path} {s : Shelf} {name n : SchemaName} {a b : Aggregate}

lemma isTidy_empty : empty.IsTidy root := by
  intro r a h
  cases h

/-- The schema of a name is the one bound to its subject. -/
lemma find_eq_some_iff :
    s.find name = some a ↔ s name.subjectRef = some a ∧ a.name.schema = name.schema := by
  rw [find, Option.filter_eq_some_iff, beq_iff_eq]

lemma find_of_bound (bound : s name.subjectRef = some a) :
    s.find name = if a.name.schema = name.schema then some a else none := by
  rw [find, bound]
  simp [Option.filter_some]

lemma find_of_free (free : s name.subjectRef = none) : s.find name = none := by
  rw [find, free]
  rfl

/-- Nothing but the schema that is found is bound to the subject. -/
lemma eq_of_find (found : s.find name = some a) (bound : s name.subjectRef = some b) : b = a := by
  obtain ⟨bound', -⟩ := find_eq_some_iff.1 found
  exact Option.some.inj (bound.symm.trans bound')

/-- A schema that is found has the name under which it is looked for. -/
lemma IsNeat.isNamed (neat : s.IsNeat root) (found : s.find name = some a) : a.IsNamed name := by
  obtain ⟨bound, schema⟩ := find_eq_some_iff.1 found
  have ref := (neat _ a bound).2
  exact ⟨congrArg SubjectRef.tenant ref, congrArg SubjectRef.subject ref, schema⟩

/-- A schema that is found has the full name under which it is looked for. -/
lemma IsNeat.fullName (neat : s.IsNeat root) (found : s.find name = some a) :
    a.name.fullName = name.fullName :=
  (neat.isNamed found).fullName

/-- The files of a schema that is found can be reached. -/
lemma IsNeat.hasFile (neat : s.IsNeat root) (found : s.find name = some a) :
    name.HasFile root ∧ (name.temporary root).Fits := by
  have named := neat.isNamed found
  have writable := (neat _ a (find_eq_some_iff.1 found).1).1
  exact ⟨named.hasFile writable.name, named.temporary root ▸ writable.temporary⟩

/-- The folder of a subject that is bound can be reached. -/
lemma IsNeat.hasFolder (neat : s.IsNeat root) (bound : s name.subjectRef = some a) :
    name.HasFolder root := by
  obtain ⟨writable, ref⟩ := neat _ a bound
  obtain ⟨tenant, subject⟩ := SchemaName.eq_subjectRef_iff.1 ref
  exact ⟨tenant ▸ writable.name.tenant, subject ▸ writable.name.subject,
    (SchemaName.folder_congr ref : a.name.folder root = name.folder root) ▸ writable.name.folder⟩

section Tidy

variable (tidy : s.IsTidy root)
include tidy

lemma IsTidy.isNamed (found : s.find name = some a) : a.IsNamed name :=
  tidy.isNeat.isNamed found

lemma IsTidy.fullName (found : s.find name = some a) : a.name.fullName = name.fullName :=
  tidy.isNeat.fullName found

lemma IsTidy.hasFile (found : s.find name = some a) :
    name.HasFile root ∧ (name.temporary root).Fits :=
  tidy.isNeat.hasFile found

lemma IsTidy.hasFolder (bound : s name.subjectRef = some a) : name.HasFolder root :=
  tidy.isNeat.hasFolder bound

end Tidy

/-- A change of one subject is seen by its names only. -/
lemma find_update (x : Option Aggregate) :
    find (Function.update s name.subjectRef x) n =
      if n.subjectRef = name.subjectRef then x.filter fun a => a.name.schema == n.schema
      else s.find n := by
  rw [find, Function.update_apply]
  split
  · rfl
  · rfl

/-- A shelf stays tidy. -/
lemma IsTidy.update (tidy : s.IsTidy root) {r : SubjectRef} {x : Option Aggregate}
    (new : ∀ a, x = some a → a.IsStorable root ∧ a.name.subjectRef = r) :
    IsTidy root (Function.update s r x) := by
  intro r' a h
  rw [Function.update_apply] at h
  split at h
  · rename_i same
    rw [same]
    exact new a h
  · exact tidy r' a h

/-- **A sound call leaves a tidy shelf tidy.** -/
lemma IsTidy.answer (tidy : s.IsTidy root) {c : StoreCall} (sound : c.IsSound root) :
    IsTidy root (s.answer c).2 := by
  cases c with
  | fetch name cached => exact tidy
  | fetchRecord name cached => exact tidy
  | fetchRecords name cached => exact tidy
  | register name a =>
    rw [Shelf.answer]
    split
    · exact tidy.update fun b h => by cases h; exact ⟨sound.2, sound.1.subjectRef⟩
    · exact tidy
  | replace name a expected =>
    rw [Shelf.answer]
    split
    · exact tidy.update fun b h => by cases h; exact ⟨sound.2, sound.1.subjectRef⟩
    · exact tidy
  | remove name expected =>
    rw [Shelf.answer]
    split
    · exact tidy.update fun b h => by cases h
    · exact tidy

/-! ### What files refuse -/

/-- Whether files serve a call. They do not if a part of its name is no step of a path, or if a new
schema is to be written and the path is too long. A cache refuses nothing. -/
def accept (root : Path) (s : Shelf) : StoreCall → Except StoreError Unit
  | .fetch name cached => if cached then .ok () else (schemaPath root name).map fun _ => ()
  | .fetchRecord name cached => if cached then .ok () else (subjectPath root name).map fun _ => ()
  | .fetchRecords name cached => if cached then .ok () else (subjectPath root name).map fun _ => ()
  | .register name _ =>
    if (s name.subjectRef).isNone ∧ ¬(name.temporary root).Fits then
      (schemaPath root name).bind fun _ => .error (.file .invalidName)
    else (schemaPath root name).map fun _ => ()
  | .replace name _ _ => (schemaPath root name).map fun _ => ()
  | .remove name _ => (schemaPath root name).map fun _ => ()

/-- The answer of files to a call, and the shelf after it. -/
def reply (root : Path) (s : Shelf) (c : StoreCall) : c.Answer × Shelf :=
  match s.accept root c with
  | .ok () => s.answer c
  | .error e => (.error e, s)

variable {c : StoreCall}

lemma reply_of_accept (accepted : s.accept root c = .ok ()) : s.reply root c = s.answer c := by
  rw [reply, accepted]

lemma reply_of_refuse {e : StoreError} (refused : s.accept root c = .error e) :
    s.reply root c = (.error e, s) := by
  rw [reply, refused]

section Writes

variable {e : StoreError} {path : Path} {expected : Revision}

/-- Nothing is written under a name that is no path. -/
lemma accept_write_of_refused (writes : c.isWrite = true)
    (refused : schemaPath root c.name = .error e) : s.accept root c = .error e := by
  cases c with
  | fetch name cached => cases writes
  | fetchRecord name cached => cases writes
  | fetchRecords name cached => cases writes
  | register name a =>
    rw [StoreCall.name] at refused
    rw [accept, refused]
    split <;> rfl
  | replace name a expected =>
    rw [StoreCall.name] at refused
    rw [accept, refused]
    rfl
  | remove name expected =>
    rw [StoreCall.name] at refused
    rw [accept, refused]
    rfl

lemma accept_replace (path : schemaPath root name = .ok path) :
    s.accept root (.replace name a expected) = .ok () := by
  rw [accept, path]
  rfl

lemma accept_remove (path : schemaPath root name = .ok path) :
    s.accept root (.remove name expected) = .ok () := by
  rw [accept, path]
  rfl

lemma accept_register_of_bound (path : schemaPath root name = .ok path)
    (bound : s name.subjectRef = some b) : s.accept root (.register name a) = .ok () := by
  rw [accept, bound, if_neg fun new => Bool.false_ne_true new.1, path]
  rfl

lemma accept_register_of_fits (path : schemaPath root name = .ok path)
    (short : (name.temporary root).Fits) : s.accept root (.register name a) = .ok () := by
  rw [accept, if_neg fun new => new.2 short, path]
  rfl

/-- A new schema cannot be written if its path is too long. -/
lemma accept_register_of_long (path : schemaPath root name = .ok path)
    (free : s name.subjectRef = none) (long : ¬(name.temporary root).Fits) :
    s.accept root (.register name a) = .error (.file .invalidName) := by
  rw [accept, free, if_pos ⟨rfl, long⟩, path]
  rfl

end Writes

/-- Files serve a sound call. -/
lemma accept_of_isSound (sound : c.IsSound root) : s.accept root c = .ok () := by
  have folder {n : SchemaName} (hn : n.HasFolder root) :
      (subjectPath root n).map (fun _ => ()) = .ok () := by
    rw [hn.isPlain.subjectPath]
    rfl
  have file {n : SchemaName} (hn : n.HasFile root) : schemaPath root n = .ok (n.file root) :=
    hn.isPlain.schemaPath hn.schema root
  cases c with
  | fetch name cached =>
    rw [accept, file sound]
    exact ite_self _
  | fetchRecord name cached =>
    rw [accept, folder sound, ite_self]
  | fetchRecords name cached =>
    rw [accept, folder sound, ite_self]
  | register name a =>
    obtain ⟨named, storable⟩ := sound
    exact accept_register_of_fits (file (named.hasFile storable.name))
      (named.temporary root ▸ storable.temporary)
  | replace name a expected => exact accept_replace (file (sound.1.hasFile sound.2.name))
  | remove name expected => exact accept_remove (file sound)

/-- Files answer a sound call as the shelf does. -/
lemma reply_of_isSound (sound : c.IsSound root) : s.reply root c = s.answer c :=
  reply_of_accept (accept_of_isSound sound)

/-- The files of a new schema that is accepted can be reached. -/
lemma hasFile_of_accept (free : s name.subjectRef = none)
    (accepted : s.accept root (.register name a) = .ok ()) :
    name.HasFile root ∧ (name.temporary root).Fits := by
  rcases name.schemaPath_cases root with ⟨plain, schema, path⟩ | ⟨e, refused⟩
  · by_cases short : (name.temporary root).Fits
    · exact ⟨plain.hasFile schema short, short⟩
    · rw [accept_register_of_long path free short] at accepted
      cases accepted
  · rw [accept_write_of_refused rfl refused] at accepted
    cases accepted

/-- A new schema that files take can be stored. -/
lemma isSound_of_accept (free : s name.subjectRef = none)
    (proper : (StoreCall.register name a).IsProper)
    (accepted : s.accept root (.register name a) = .ok ()) :
    (StoreCall.register name a).IsSound root := by
  obtain ⟨hn, short⟩ := hasFile_of_accept free accepted
  exact ⟨proper.1, proper.1.isStorable proper.2 hn short⟩

/-- **A proper call leaves a tidy shelf tidy**, whether files serve it or not. -/
lemma IsTidy.reply (tidy : s.IsTidy root) (proper : c.IsProper) :
    IsTidy root (s.reply root c).2 := by
  rw [Shelf.reply]
  cases accepted : s.accept root c with
  | error e => exact tidy
  | ok u =>
    cases c with
    | fetch name cached => exact tidy
    | fetchRecord name cached => exact tidy
    | fetchRecords name cached => exact tidy
    | register name a =>
      cases bound : s name.subjectRef with
      | none => exact tidy.answer (isSound_of_accept bound proper accepted)
      | some b =>
        dsimp only
        rw [Shelf.answer, bound]
        exact tidy
    | replace name a expected =>
      cases checked : checkRevision name.fullName (s.find name) expected with
      | ok u =>
        obtain ⟨b, found, -⟩ := checkRevision_eq_ok_iff.1 checked
        obtain ⟨hn, temporary⟩ := tidy.hasFile found
        exact tidy.answer (c := .replace name a expected)
          ⟨proper.1, proper.1.isStorable proper.2 hn temporary⟩
      | error e =>
        dsimp only
        rw [Shelf.answer, checked]
        exact tidy
    | remove name expected =>
      dsimp only
      rw [Shelf.answer]
      split
      · exact tidy.update fun b h => by cases h
      · exact tidy

/-- A read leaves the shelf as it is. -/
lemma reply_read (root : Path) (s : Shelf) (h : c.isWrite = false) : (s.reply root c).2 = s := by
  rw [reply]
  split
  · cases c with
    | fetch name cached => rfl
    | fetchRecord name cached => rfl
    | fetchRecords name cached => rfl
    | register name a => cases h
    | replace name a expected => cases h
    | remove name expected => cases h
  · rfl

/-- A call that fails leaves the shelf as it is. -/
lemma reply_error {e : StoreError} (h : (s.reply root c).1 = .error e) :
    (s.reply root c).2 = s := by
  rw [reply] at h ⊢
  split at h
  · cases c with
    | fetch name cached => rfl
    | fetchRecord name cached => rfl
    | fetchRecords name cached => rfl
    | register name a =>
      rw [answer] at h ⊢
      split at h
      · cases h
      · rfl
    | replace name a expected =>
      rw [answer] at h ⊢
      split at h
      · cases h
      · rfl
    | remove name expected =>
      rw [answer] at h ⊢
      split at h
      · cases h
      · rfl
  · rfl

/-- What files answer to a fetch is on the shelf. -/
lemma find_of_reply {cached : Bool}
    (h : (s.reply root (.fetch name cached)).1 = Except.ok (some a)) : s.find name = some a := by
  rw [reply] at h
  split at h
  · exact Except.ok.inj h
  · cases h

/-! ### What files verify -/

/-- Whether a schema is refused that was found, if there is one. -/
def verifyFound : Option Aggregate → Except StoreError Unit
  | some a => a.verify
  | none => .ok ()

lemma IsTidy.verifyFound_eq (tidy : s.IsTidy root) {r : SubjectRef} {x : Option Aggregate}
    (bound : ∀ a, x = some a → s r = some a) : verifyFound x = .ok () := by
  cases x with
  | none => rfl
  | some a =>
    have storable := (tidy r a (bound a rfl)).1
    exact Aggregate.verify_eq_ok_iff.2 ⟨storable.contiguous, storable.authentic⟩

/-- What is found on a tidy shelf is not refused. -/
lemma IsTidy.verify_find (tidy : s.IsTidy root) (name : SchemaName) :
    verifyFound (s.find name) = .ok () :=
  tidy.verifyFound_eq fun _ found => (find_eq_some_iff.1 found).1

/-- Nor is what is bound. -/
lemma IsTidy.verify_bound (tidy : s.IsTidy root) (r : SubjectRef) : verifyFound (s r) = .ok () :=
  tidy.verifyFound_eq fun _ bound => bound

/-- The schema that is read from its file to serve a call.  A registration reads none, and neither
does a read from the cache. -/
def loads (s : Shelf) : StoreCall → Option Aggregate
  | .fetch name cached => if cached then none else s.find name
  | .fetchRecord name cached => if cached then none else s name.subjectRef
  | .fetchRecords name cached => if cached then none else s name.subjectRef
  | .register _ _ => none
  | .replace name _ _ => s.find name
  | .remove name _ => s.find name

/-- Whether files serve a call, where what is read is verified. -/
def grant (root : Path) (s : Shelf) (c : StoreCall) : Except StoreError Unit :=
  (s.accept root c).bind fun _ => verifyFound (s.loads c)

/-- The answer of files to a call, where what is read is verified, and the shelf after it. -/
def respond (root : Path) (s : Shelf) (c : StoreCall) : c.Answer × Shelf :=
  match s.grant root c with
  | .ok () => s.answer c
  | .error e => (.error e, s)

lemma respond_of_grant (granted : s.grant root c = .ok ()) : s.respond root c = s.answer c := by
  rw [respond, granted]

lemma respond_of_refuse {e : StoreError} (refused : s.grant root c = .error e) :
    s.respond root c = (.error e, s) := by
  rw [respond, refused]

lemma accept_of_grant (granted : s.grant root c = .ok ()) : s.accept root c = .ok () := by
  cases accepted : s.accept root c with
  | ok u => rfl
  | error e =>
    rw [grant, accepted] at granted
    cases granted

/-- A call is answered if it is granted. -/
lemma respond_fst (root : Path) (s : Shelf) (c : StoreCall) :
    (s.respond root c).1 = (s.grant root c).bind fun _ => (s.answer c).1 := by
  rw [respond]
  cases s.grant root c <;> rfl

/-- A read leaves the shelf as it is. -/
lemma respond_read (root : Path) (s : Shelf) (reads : c.isWrite = false) :
    (s.respond root c).2 = s := by
  rw [respond]
  split
  · cases c with
    | fetch | fetchRecord | fetchRecords => rfl
    | register | replace | remove => cases reads
  · rfl

/-- A registration reads no schema that could be refused. -/
lemma respond_register (root : Path) (s : Shelf) (name : SchemaName) (a : Aggregate) :
    s.respond root (.register name a) = s.reply root (.register name a) := by
  rw [respond, grant, reply]
  cases s.accept root (.register name a) <;> rfl

lemma grant_replace {expected : Revision} :
    s.grant root (.replace name a expected) =
      (schemaPath root name).bind fun _ => verifyFound (s.find name) := by
  rw [grant, accept]
  cases schemaPath root name <;> rfl

lemma grant_remove {expected : Revision} :
    s.grant root (.remove name expected) =
      (schemaPath root name).bind fun _ => verifyFound (s.find name) := by
  rw [grant, accept]
  cases schemaPath root name <;> rfl

/-- What is granted has a path, and is not refused. -/
lemma of_granted
    (granted : ((schemaPath root name).bind fun _ => verifyFound (s.find name)) = .ok ()) :
    name.IsPlain ∧ IsPart name.schema ∧ verifyFound (s.find name) = .ok () := by
  rcases name.schemaPath_cases root with ⟨plain, schema, path⟩ | ⟨part, refused⟩
  · rw [path] at granted
    exact ⟨plain, schema, granted⟩
  · rw [refused] at granted
    cases granted

/-- Nothing on a tidy shelf is refused. -/
lemma IsTidy.grant_eq (tidy : s.IsTidy root) (c : StoreCall) : s.grant root c = s.accept root c := by
  have verified : verifyFound (s.loads c) = .ok () := by
    cases c with
    | fetch name cached =>
      cases cached
      · exact tidy.verify_find name
      · rfl
    | fetchRecord name cached | fetchRecords name cached =>
      cases cached
      · exact tidy.verify_bound name.subjectRef
      · rfl
    | register name a => rfl
    | replace name a expected => exact tidy.verify_find name
    | remove name expected => exact tidy.verify_find name
  rw [grant, verified]
  cases s.accept root c <;> rfl

lemma IsTidy.respond_eq (tidy : s.IsTidy root) (c : StoreCall) : s.respond root c = s.reply root c := by
  rw [respond, tidy.grant_eq]
  rfl

/-- A neat shelf stays neat. -/
lemma IsNeat.update (neat : s.IsNeat root) {r : SubjectRef} {x : Option Aggregate}
    (new : ∀ a, x = some a → a.IsWritable root ∧ a.name.subjectRef = r) :
    IsNeat root (Function.update s r x) := by
  intro r' a h
  rw [Function.update_apply] at h
  split at h
  · rename_i same
    rw [same]
    exact new a h
  · exact neat r' a h

/-- **A call that writes under the right name leaves a neat shelf neat.** -/
lemma IsNeat.respond (neat : s.IsNeat root) (titled : c.IsTitled) :
    IsNeat root (s.respond root c).2 := by
  rw [Shelf.respond]
  cases granted : s.grant root c with
  | error e => exact neat
  | ok u =>
    cases c with
    | fetch | fetchRecord | fetchRecords => exact neat
    | register name a =>
      dsimp only
      rw [Shelf.answer]
      split
      · rename_i free
        obtain ⟨hn, short⟩ := hasFile_of_accept free (accept_of_grant granted)
        refine neat.update fun a' same => ?_
        cases same
        exact ⟨titled.1.isWritable titled.2 hn short, titled.1.subjectRef⟩
      · exact neat
    | replace name a expected =>
      dsimp only
      rw [Shelf.answer]
      split
      · rename_i checked
        obtain ⟨b, found, -⟩ := checkRevision_eq_ok_iff.1 checked
        obtain ⟨hn, temporary⟩ := neat.hasFile found
        refine neat.update fun a' same => ?_
        cases same
        exact ⟨titled.1.isWritable titled.2 hn temporary, titled.1.subjectRef⟩
      · exact neat
    | remove name expected =>
      dsimp only
      rw [Shelf.answer]
      split
      · exact neat.update fun b h => nomatch h
      · exact neat

/-! ### What a write brings about -/

/-- A write that succeeds: what it found on the shelf, and the shelf after it. -/
inductive Performs (s : Shelf) : StoreCall → Shelf → Prop
  | register {name : SchemaName} {a : Aggregate} (free : s name.subjectRef = none) :
    Performs s (.register name a) (Function.update s name.subjectRef (some a))
  | replace {name : SchemaName} {a b : Aggregate} (found : s.find name = some b) :
    Performs s (.replace name a b.revision) (Function.update s name.subjectRef (some a))
  | remove {name : SchemaName} {b : Aggregate} (found : s.find name = some b) :
    Performs s (.remove name b.revision) (Function.update s name.subjectRef none)

/-- What was answered, a shelf has answered. -/
lemma reply_eq_answer {x : c.Result} (h : (s.reply root c).1 = .ok x) :
    s.reply root c = s.answer c := by
  cases accepted : s.accept root c with
  | ok u => exact reply_of_accept accepted
  | error e =>
    rw [reply_of_refuse accepted] at h
    cases h

/-- What a write has brought about that was answered. -/
lemma performs_of_reply {x : c.Result} (writes : c.isWrite = true)
    (h : (s.reply root c).1 = .ok x) : s.Performs c (s.reply root c).2 := by
  have served := reply_eq_answer h
  rw [served] at h ⊢
  cases c with
  | fetch name cached => cases writes
  | fetchRecord name cached => cases writes
  | fetchRecords name cached => cases writes
  | register name a =>
    rw [answer] at h ⊢
    split at h
    · exact .register ‹_›
    · cases h
  | replace name a expected =>
    rw [answer] at h ⊢
    split at h
    · rename_i checked
      obtain ⟨b, found, rfl⟩ := checkRevision_eq_ok_iff.1 checked
      exact .replace found
    · cases h
  | remove name expected =>
    rw [answer] at h ⊢
    split at h
    · rename_i checked
      obtain ⟨b, found, rfl⟩ := checkRevision_eq_ok_iff.1 checked
      exact .remove found
    · cases h

/-! ### Writes that come too late -/

/-- The call is a write that expects another revision than the one on the shelf. -/
def IsAheadOf (s : Shelf) : StoreCall → Prop
  | .replace name _ expected => ∃ b, s.find name = some b ∧ b.revision ≠ expected
  | .remove name expected => ∃ b, s.find name = some b ∧ b.revision ≠ expected
  | _ => False

/-- Such a write is refused. -/
lemma IsAheadOf.reply_ne_ok (ahead : s.IsAheadOf c) (x : c.Result) :
    (s.reply root c).1 ≠ .ok x := by
  intro done
  cases c with
  | fetch | fetchRecord | fetchRecords | register => exact ahead.elim
  | replace name a expected =>
    obtain ⟨b, found, other⟩ := ahead
    have performs := performs_of_reply rfl done
    generalize (reply root s _).2 = s' at performs
    cases performs with
    | replace found' =>
      cases found.symm.trans found'
      exact other rfl
  | remove name expected =>
    obtain ⟨b, found, other⟩ := ahead
    have performs := performs_of_reply rfl done
    generalize (reply root s _).2 = s' at performs
    cases performs with
    | remove found' =>
      cases found.symm.trans found'
      exact other rfl

/-- A record is selected, or there is none. -/
lemma selectRecord_ne_conflict (a : Aggregate) (name : SchemaName) (key : String)
    (expected found : Revision) : selectRecord a name ≠ .error (.conflict key expected found) := by
  intro conflict
  rw [selectRecord] at conflict
  split at conflict
  · cases conflict
  · split at conflict
    · cases conflict
    · cases conflict

/-- A conflict is reported if another revision is stored than the expected one. -/
lemma of_checkRevision_conflict {key key' : String} {stored : Option Aggregate}
    {expected expected' found : Revision}
    (h : checkRevision key stored expected = .error (.conflict key' expected' found)) :
    ∃ b, stored = some b ∧ b.revision ≠ expected := by
  cases stored with
  | none => cases h
  | some b =>
    rw [checkRevision] at h
    split at h
    · cases h
    · exact ⟨b, rfl, ‹_›⟩

/-- What is refused is no path, or too long a path. -/
lemma accept_error {e : StoreError} (refused : s.accept root c = .error e) :
    (∃ part, e = .invalidKey part) ∨ e = .file .invalidName := by
  have folder (n : SchemaName) (h : (subjectPath root n).map (fun _ => ()) = .error e) :
      (∃ part, e = .invalidKey part) ∨ e = .file .invalidName := by
    rcases n.subjectPath_cases root with ⟨-, path⟩ | ⟨part, no⟩
    · rw [path] at h
      cases h
    · rw [no] at h
      cases h
      exact .inl ⟨part, rfl⟩
  have file (n : SchemaName) (h : (schemaPath root n).map (fun _ => ()) = .error e) :
      (∃ part, e = .invalidKey part) ∨ e = .file .invalidName := by
    rcases n.schemaPath_cases root with ⟨-, -, path⟩ | ⟨part, no⟩
    · rw [path] at h
      cases h
    · rw [no] at h
      cases h
      exact .inl ⟨part, rfl⟩
  cases c with
  | fetch name cached =>
    rw [accept] at refused
    split at refused
    · cases refused
    · exact file name refused
  | fetchRecord name cached =>
    rw [accept] at refused
    split at refused
    · cases refused
    · exact folder name refused
  | fetchRecords name cached =>
    rw [accept] at refused
    split at refused
    · cases refused
    · exact folder name refused
  | register name a =>
    rw [accept] at refused
    split at refused
    · rcases name.schemaPath_cases root with ⟨-, -, path⟩ | ⟨part, no⟩
      · rw [path] at refused
        cases refused
        exact .inr rfl
      · rw [no] at refused
        cases refused
        exact .inl ⟨part, rfl⟩
    · exact file name refused
  | replace name a expected => exact file name refused
  | remove name expected => exact file name refused

/-- A conflict is reported of such a write, and of nothing else. -/
lemma isAheadOf_of_conflict {key : String} {expected found : Revision}
    (h : (s.reply root c).1 = .error (.conflict key expected found)) : s.IsAheadOf c := by
  cases accepted : s.accept root c with
  | error e =>
    rw [reply_of_refuse accepted] at h
    cases h
    rcases accept_error accepted with ⟨part, no⟩ | no
    · cases no
    · cases no
  | ok u =>
    rw [reply_of_accept accepted] at h
    cases c with
    | fetch name cached => cases h
    | fetchRecord name cached =>
      rw [answer] at h
      split at h
      · exact absurd h (selectRecord_ne_conflict _ name key expected found)
      · cases h
    | fetchRecords name cached => cases h
    | register name a =>
      rw [answer] at h
      split at h
      · cases h
      · rename_i b bound
        rw [refusal] at h
        split at h
        · cases h
        · cases h
    | replace name a expected' =>
      rw [answer] at h
      split at h
      · cases h
      · rename_i checked
        cases h
        exact of_checkRevision_conflict checked
    | remove name expected' =>
      rw [answer] at h
      split at h
      · cases h
      · rename_i checked
        cases h
        exact of_checkRevision_conflict checked

end Shelf

/-! ### The store in memory -/

/-- The tables stand for a shelf: schemas by their full names, and for each subject the full
name of the schema bound to it. -/
structure Tables.Represents (root : Path) (t : Tables) (s : Shelf) : Prop where
  schemas : ∀ n : SchemaName, n.HasFolder root → t.schemas.get? n.fullName = s.find n
  subjects : ∀ n : SchemaName, n.HasFolder root →
    t.subjects.get? n.subjectKey = (s n.subjectRef).map (·.name.fullName)
  unique : t.subjects.HasUniqueKeys

namespace Tables.Represents

variable {root : Path} {t : Tables} {s : Shelf} {name : SchemaName} {a b : Aggregate}

/-- Empty tables stand for an empty shelf. -/
lemma empty : Represents root {} Shelf.empty :=
  ⟨fun _ _ => rfl, fun _ _ => rfl, Dictionary.hasUniqueKeys_empty⟩

/-- The index leads to the schema bound to a subject. -/
lemma bound? (h : t.Represents root s) (tidy : s.IsTidy root) (hn : name.HasFolder root) :
    t.bound? name.subjectKey = s name.subjectRef := by
  rw [Tables.bound?, h.subjects name hn]
  cases bound : s name.subjectRef with
  | none => rfl
  | some a =>
    obtain ⟨storable, same⟩ := tidy _ a bound
    have found : s.find a.name = some a := Shelf.find_eq_some_iff.2 ⟨by rw [same, bound], rfl⟩
    exact (h.schemas a.name storable.name.toHasFolder).trans found

/-- A schema is stored under its full name, where nothing else is bound to its subject. -/
lemma schemas_insert (h : t.Represents root s) (hn : name.HasFolder root) (named : a.IsNamed name)
    (own : ∀ b, s name.subjectRef = some b → b.name.schema = name.schema) (n : SchemaName)
    (hn' : n.HasFolder root) :
    (t.schemas.insert name.fullName a).get? n.fullName =
      Shelf.find (Function.update s name.subjectRef (some a)) n := by
  rw [Dictionary.get?_insert, Shelf.find_update, h.schemas n hn']
  by_cases key : n.fullName = name.fullName
  · obtain ⟨ref, schema⟩ := SchemaName.eq_of_fullName hn' hn key
    rw [if_pos key, if_pos ref]
    simp [Option.filter, named.schema, schema]
  · rw [if_neg key]
    split
    · rename_i ref
      have other : n.schema ≠ name.schema := by
        intro schema
        rw [SchemaName.fullName_eq, SchemaName.fullName_eq, ref, schema] at key
        exact key rfl
      have replaced : (some a).filter (fun a => a.name.schema == n.schema) = none := by
        simp [Option.filter, named.schema, other.symm]
      rw [replaced]
      cases bound : s n.subjectRef with
      | none => exact Shelf.find_of_free bound
      | some b =>
        rw [Shelf.find_of_bound bound, if_neg]
        rw [own b (by rw [← ref, bound])]
        exact other.symm
    · rfl

/-- Registration binds a free subject. -/
lemma register (h : t.Represents root s) (hn : name.HasFolder root) (named : a.IsNamed name)
    (free : s name.subjectRef = none) :
    Represents root
      { schemas := t.schemas.insert name.fullName a
        subjects := t.subjects.insert name.subjectKey name.fullName }
      (Function.update s name.subjectRef (some a)) where
  schemas := h.schemas_insert hn named fun b bound => by rw [free] at bound; cases bound
  subjects n hn' := by
    rw [Dictionary.get?_insert, Function.update_apply, h.subjects n hn']
    by_cases ref : n.subjectRef = name.subjectRef
    · have key : n.subjectKey = name.subjectKey := congrArg SubjectRef.key ref
      rw [if_pos ref, if_pos key, Option.map_some, named.fullName]
    · rw [if_neg ref, if_neg fun key => ref (SchemaName.subjectRef_eq_of_key hn' hn key)]
  unique := h.unique.insert _ _

/-- Replacement keeps a subject bound. -/
lemma replace (h : t.Represents root s) (hn : name.HasFolder root) (tidy : s.IsTidy root)
    (named : a.IsNamed name) (stored : s.find name = some b) :
    Represents root { t with schemas := t.schemas.insert name.fullName a }
      (Function.update s name.subjectRef (some a)) where
  schemas := h.schemas_insert hn named fun c bound => by
    obtain ⟨bound', schema⟩ := Shelf.find_eq_some_iff.1 stored
    rw [bound] at bound'
    cases bound'
    exact schema
  subjects n hn' := by
    obtain ⟨bound, -⟩ := Shelf.find_eq_some_iff.1 stored
    rw [Function.update_apply, h.subjects n hn']
    by_cases ref : n.subjectRef = name.subjectRef
    · rw [if_pos ref, ref, bound, Option.map_some, Option.map_some, tidy.fullName stored,
        named.fullName]
    · rw [if_neg ref]
  unique := h.unique

/-- Removal frees a subject. -/
lemma remove (h : t.Represents root s) (hn : name.HasFolder root) (tidy : s.IsTidy root)
    (stored : s.find name = some b) :
    Represents root
      { schemas := t.schemas.erase name.fullName
        subjects := t.subjects.filterValues fun schema => schema != name.fullName }
      (Function.update s name.subjectRef none) where
  schemas n hn' := by
    obtain ⟨bound, schema⟩ := Shelf.find_eq_some_iff.1 stored
    rw [Dictionary.get?_erase, Shelf.find_update, h.schemas n hn']
    by_cases ref : n.subjectRef = name.subjectRef
    · rw [if_pos ref]
      split
      · rfl
      · rename_i key
        rw [Shelf.find_of_bound (ref ▸ bound), if_neg]
        · rfl
        · intro same
          rw [SchemaName.fullName_eq, SchemaName.fullName_eq, ref, ← same, schema] at key
          exact key rfl
    · rw [if_neg ref, if_neg fun key => ref (SchemaName.eq_of_fullName hn' hn key).1]
  subjects n hn' := by
    obtain ⟨bound, -⟩ := Shelf.find_eq_some_iff.1 stored
    rw [Dictionary.get?_filterValues h.unique, h.subjects n hn', Function.update_apply]
    by_cases ref : n.subjectRef = name.subjectRef
    · have own := tidy.fullName stored
      rw [if_pos ref, ref, bound]
      simp [Option.filter, own]
    · rw [if_neg ref]
      cases bound' : s n.subjectRef with
      | none => rfl
      | some c =>
        obtain ⟨storable, ref'⟩ := tidy _ c bound'
        have other : c.name.fullName ≠ name.fullName := by
          intro key
          obtain ⟨same, -⟩ := SchemaName.eq_of_fullName storable.name.toHasFolder hn key
          exact ref (ref'.symm.trans same)
        simp [Option.filter, other]
  unique := h.unique.filter _

/-- **The store in memory answers every sound call as the shelf does**, and stands for the same
shelf afterwards. -/
theorem answer (h : t.Represents root s) (tidy : s.IsTidy root) {c : StoreCall}
    (sound : c.IsSound root) :
    (t.answer c).1 = (s.answer c).1 ∧ (t.answer c).2.Represents root (s.answer c).2 := by
  cases c with
  | fetch name cached =>
    have found := h.schemas name sound.toHasFolder
    exact ⟨congrArg Except.ok found, h⟩
  | fetchRecord name cached =>
    rw [Tables.answer, Shelf.answer, h.bound? tidy sound]
    exact ⟨rfl, h⟩
  | fetchRecords name cached =>
    rw [Tables.answer, Shelf.answer, h.bound? tidy sound]
    exact ⟨rfl, h⟩
  | register name a =>
    obtain ⟨named, storable⟩ := sound
    have hn := (named.hasFile storable.name).toHasFolder
    have stored := h.schemas name hn
    have index := h.subjects name hn
    rw [Tables.answer, Shelf.answer, Tables.register, Dictionary.contains, stored, index]
    cases bound : s name.subjectRef with
    | none =>
      rw [Shelf.find_of_free bound]
      exact ⟨rfl, h.register hn named bound⟩
    | some b =>
      rw [Shelf.find_of_bound bound]
      by_cases same : b.name.schema = name.schema
      · have refused : Shelf.refusal name b = .alreadyStored name.fullName := if_pos same
        rw [if_pos same]
        exact ⟨congrArg Except.error refused.symm, h⟩
      · have refused : Shelf.refusal name b = .subjectBound name.subjectKey b.name.fullName :=
          if_neg same
        rw [if_neg same]
        exact ⟨congrArg Except.error refused.symm, h⟩
  | replace name a expected =>
    obtain ⟨named, storable⟩ := sound
    have hn := (named.hasFile storable.name).toHasFolder
    rw [Tables.answer, Shelf.answer, Tables.replace, h.schemas name hn]
    cases checked : checkRevision name.fullName (s.find name) expected with
    | error e => exact ⟨rfl, h⟩
    | ok u =>
      obtain ⟨b, stored, -⟩ := checkRevision_eq_ok_iff.1 checked
      exact ⟨rfl, h.replace hn tidy named stored⟩
  | remove name expected =>
    rw [Tables.answer, Shelf.answer, Tables.remove, h.schemas name sound.toHasFolder]
    cases checked : checkRevision name.fullName (s.find name) expected with
    | error e => exact ⟨rfl, h⟩
    | ok u =>
      obtain ⟨b, stored, -⟩ := checkRevision_eq_ok_iff.1 checked
      exact ⟨rfl, h.remove sound.toHasFolder tidy stored⟩

end Tables.Represents

end SchemaLedger
