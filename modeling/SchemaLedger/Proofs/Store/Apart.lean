import SchemaLedger.Proofs.Store.Agreement

/-!
Names that are made of any texts.

* `IsBadPart`: a text that is no step of a path.  Files refuse names with such parts
  (`SchemaName.of_schemaPath_error`, `SchemaName.of_subjectPath_error`), and the cache knows none.
* `FileStore.Visited`: stores that were opened in an empty folder and have answered calls.  What was
  written may be refused when it is read, as long as it has the name it was written under.
* `FileStore.Answered`: what a read may be told.  With the cache, this is what is found; without it,
  a name may be refused for which nothing is found, or what is found may be refused.
* `FileStore.reads_kept_apart`: every read is told of the schema with exactly the name's tenant,
  subject and schema, or of the one schema that is bound to exactly its tenant and subject.

A read from the cache compares texts that are joined by slashes and checks no name.  That it finds
what the files have is due to the names in the cache, none of which holds a slash in its parts.
-/

namespace SchemaLedger

open FileStore

/-! ### Parts that are refused -/

/-- A text that cannot be a step of a path, or would lead elsewhere. -/
def IsBadPart (part : String) : Prop :=
  part = "" ∨ part = "." ∨ part = ".." ∨
    '/' ∈ part.toList ∨ '\\' ∈ part.toList ∨ '\x00' ∈ part.toList

instance (part : String) : Decidable (IsBadPart part) :=
  inferInstanceAs (Decidable (_ ∨ _))

lemma isPart_iff_not_isBadPart {part : String} : IsPart part ↔ ¬IsBadPart part := by
  simp only [isPart_iff, IsBadPart, not_or, ne_eq]
  refine and_congr_right fun _ => and_congr_right fun _ => and_congr_right fun _ => ?_
  constructor
  · intro plain
    exact ⟨fun slash => (plain _ slash).1 rfl, fun back => (plain _ back).2.1 rfl,
      fun null => (plain _ null).2.2 rfl⟩
  · rintro ⟨slash, back, null⟩ c hc
    exact ⟨fun same => slash (same ▸ hc), fun same => back (same ▸ hc), fun same => null (same ▸ hc)⟩

lemma checkPart_eq (part : String) :
    checkPart part = if IsBadPart part then .error (.invalidKey part) else .ok part := by
  split
  · rename_i bad
    exact (isPart_or_refused part).resolve_left fun plain => isPart_iff_not_isBadPart.1 plain bad
  · rename_i plain
    exact isPart_iff_not_isBadPart.2 plain

namespace SchemaName

variable {root : Path} {n : SchemaName} {e : StoreError}

/-- The folder of a subject is refused for a bad part. -/
lemma of_subjectPath_error (refused : subjectPath root n = .error e) :
    ∃ part ∈ subjectParts, IsBadPart (n.part part) ∧ e = .invalidKey (n.part part) := by
  rw [subjectPath, checkPart_eq, checkPart_eq] at refused
  by_cases tenant : IsBadPart n.tenant
  · rw [if_pos tenant] at refused
    cases refused
    exact ⟨.tenant, by decide, tenant, rfl⟩
  · by_cases subject : IsBadPart n.subject
    · rw [if_neg tenant, if_pos subject] at refused
      cases refused
      exact ⟨.subject, by decide, subject, rfl⟩
    · rw [if_neg tenant, if_neg subject] at refused
      cases refused

/-- The file of a schema is refused for a bad part. -/
lemma of_schemaPath_error (refused : schemaPath root n = .error e) :
    ∃ part ∈ schemaParts, IsBadPart (n.part part) ∧ e = .invalidKey (n.part part) := by
  rw [schemaPath, checkPart_eq] at refused
  by_cases schema : IsBadPart n.schema
  · rw [if_pos schema] at refused
    cases refused
    exact ⟨.schema, by decide, schema, rfl⟩
  · rw [if_neg schema] at refused
    cases folder : subjectPath root n with
    | ok path =>
      rw [folder] at refused
      cases refused
    | error e' =>
      rw [folder] at refused
      cases refused
      obtain ⟨part, needed, bad, same⟩ := of_subjectPath_error folder
      refine ⟨part, ?_, bad, same⟩
      cases part <;> simp [schemaParts]

/-- A name with a bad part has no file. -/
lemma schemaPath_of_isBadPart {part : NamePart} (bad : IsBadPart (n.part part)) :
    ∃ e, schemaPath root n = .error e := by
  rcases n.schemaPath_cases root with ⟨plain, schema, -⟩ | ⟨x, refused⟩
  · cases part with
    | tenant => exact absurd bad (isPart_iff_not_isBadPart.1 plain.tenant)
    | subject => exact absurd bad (isPart_iff_not_isBadPart.1 plain.subject)
    | schema => exact absurd bad (isPart_iff_not_isBadPart.1 schema)
  · exact ⟨_, refused⟩

end SchemaName

namespace FileStore

variable {site : Site} {f : FileStore} {d : Disk} {s : Shelf} {name : SchemaName} {a : Aggregate}

/-! ### Stores that have answered calls -/

/-- A store was opened in an empty folder, and has answered calls.  Whatever they have written had
the name it was written under. -/
inductive Visited (site : Site) : FileStore → Disk → Prop
  | opened {f : FileStore} {d : Disk} (opened : site.disk.Runs (openFolder site.root) (.ok f) d) :
    Visited site f d
  | answered {f f' : FileStore} {d d' : Disk} {c : StoreCall} {x : c.Answer}
    (before : Visited site f d) (titled : c.IsTitled)
    (answered : Disk.run (f.answer c) d = ((x, f'), d')) : Visited site f' d'

/-- Such a store stands for a neat shelf. -/
lemma Visited.represents (visited : Visited site f d) :
    ∃ s, s.IsNeat site.root ∧ Represents site f d s := by
  induction visited with
  | opened opened =>
    obtain ⟨f₁, d₁, first, represents⟩ := represents_open site
    cases opened.symm.trans first
    exact ⟨_, Shelf.isTidy_empty.isNeat, represents⟩
  | answered _ titled answered ih =>
    obtain ⟨s, neat, represents⟩ := ih
    obtain ⟨f₁, d₁, first, after⟩ := represents.respond neat titled
    cases answered.symm.trans first
    exact ⟨_, neat.respond titled, after⟩

/-- The answer of a store to a call. -/
def told (f : FileStore) (d : Disk) (c : StoreCall) : c.Answer :=
  (Disk.run (f.answer c) d).1.1

lemma Represents.told_eq (h : Represents site f d s) (neat : s.IsNeat site.root) {c : StoreCall}
    (titled : c.IsTitled) :
    f.told d c = (s.grant site.root c).bind fun _ => (s.answer c).1 := by
  obtain ⟨f', d', answered, -⟩ := h.respond neat titled
  rw [told, answered, Shelf.respond_fst]

/-! ### What a read is told -/

/-- What is told to a read that is about the schema that is found, if one is found.  Without the
cache, a name with a bad part is refused, for which nothing is found; and the schema is refused if
there is a gap in its ledger or a checksum is wrong, and only then. -/
inductive Answered {α : Type} (name : SchemaName) (parts : List NamePart) (found : Option Aggregate)
    (shown : Option Aggregate → Except StoreError α) (cached : Bool) : Except StoreError α → Prop
  | shown (sound : cached = false → ∀ a, found = some a →
      a.ledger.isContiguous = true ∧ a.ledger.isAuthentic = true) :
    Answered name parts found shown cached (shown found)
  | badPart {part : NamePart} (uncached : cached = false) (needed : part ∈ parts)
    (bad : IsBadPart (name.part part)) (nothing : found = none) :
    Answered name parts found shown cached (.error (.invalidKey (name.part part)))
  | flawed {a : Aggregate} {flaw : Flaw} (uncached : cached = false) (there : found = some a)
    (flawed : a.ledger.isContiguous = false ∨ a.ledger.isAuthentic = false) :
    Answered name parts found shown cached (.error (.corrupted a.name.fullName flaw))

/-- What is told if a path is needed, and what is found is verified. -/
lemma answered_of_path {α : Type} {parts : List NamePart} {found : Option Aggregate}
    {shown : Option Aggregate → Except StoreError α} {path : Except StoreError Path}
    (refused : ∀ e, path = .error e → found = none ∧
      ∃ part ∈ parts, IsBadPart (name.part part) ∧ e = .invalidKey (name.part part))
    (cached : Bool) :
    Answered name parts found shown cached
      (((if cached then .ok () else path.map fun _ => ()).bind fun _ =>
        Shelf.verifyFound (if cached then none else found)).bind fun _ => shown found) := by
  cases cached with
  | true => exact .shown fun uncached => nomatch uncached
  | false =>
    cases path with
    | error e =>
      obtain ⟨nothing, part, needed, bad, rfl⟩ := refused e rfl
      exact .badPart rfl needed bad nothing
    | ok path =>
      cases found with
      | none => exact .shown fun _ _ there => nomatch there
      | some a =>
        change Answered name parts (some a) shown false (a.verify.bind fun _ => shown (some a))
        cases verified : a.verify with
        | ok u =>
          refine .shown fun _ b there => ?_
          cases there
          exact Aggregate.verify_eq_ok_iff.1 verified
        | error e =>
          obtain ⟨flaw, rfl, flawed⟩ := Aggregate.of_verify_error verified
          exact .flawed rfl rfl flawed

/-- What a read by subject selects from the schema that is bound. -/
def selected (name : SchemaName) : Option Aggregate → Except StoreError (Option Record)
  | some a => selectRecord a name
  | none => .ok none

/-- Nothing is found under a name that is refused. -/
lemma find_of_refused {root : Path} {e : StoreError} (neat : s.IsNeat root)
    (refused : schemaPath root name = .error e) : s.find name = none := by
  rw [Option.eq_none_iff_forall_ne_some]
  intro a found
  have hn := (neat.hasFile found).1
  rw [hn.isPlain.schemaPath hn.schema] at refused
  cases refused

/-- Nothing is bound to a subject that is refused. -/
lemma free_of_refused {root : Path} {e : StoreError} (neat : s.IsNeat root)
    (refused : subjectPath root name = .error e) : s name.subjectRef = none := by
  rw [Option.eq_none_iff_forall_ne_some]
  intro a bound
  rw [(neat.hasFolder bound).isPlain.subjectPath] at refused
  cases refused

section Reads

variable (h : Represents site f d s) (neat : s.IsNeat site.root) (name : SchemaName) (cached : Bool)
include h neat

lemma Represents.answered_fetch :
    Answered name SchemaName.schemaParts (s.find name) .ok cached
      (f.told d (.fetch name cached)) := by
  rw [h.told_eq (c := .fetch name cached) neat trivial]
  exact answered_of_path (fun e refused => ⟨find_of_refused neat refused,
    SchemaName.of_schemaPath_error refused⟩) cached

lemma Represents.answered_fetchRecord :
    Answered name SchemaName.subjectParts (s name.subjectRef) (selected name) cached
      (f.told d (.fetchRecord name cached)) := by
  have answer : (s.answer (.fetchRecord name cached)).1 = selected name (s name.subjectRef) := by
    rw [Shelf.answer]
    cases s name.subjectRef <;> rfl
  rw [h.told_eq (c := .fetchRecord name cached) neat trivial, answer]
  exact answered_of_path (fun e refused => ⟨free_of_refused neat refused,
    SchemaName.of_subjectPath_error refused⟩) cached

lemma Represents.answered_fetchRecords :
    Answered name SchemaName.subjectParts (s name.subjectRef)
      (fun found => .ok (found.map (·.ledger.records))) cached
      (f.told d (.fetchRecords name cached)) := by
  rw [h.told_eq (c := .fetchRecords name cached) neat trivial]
  exact answered_of_path (fun e refused => ⟨free_of_refused neat refused,
    SchemaName.of_subjectPath_error refused⟩) cached

end Reads

/-- Nothing is written under a name with a bad part. -/
lemma answer_of_isBadPart {c : StoreCall} (writes : c.isWrite = true) {part : NamePart}
    (bad : IsBadPart (c.name.part part)) (d : Disk) :
    ∃ part, IsBadPart (c.name.part part) ∧
      Disk.run (f.answer c) d = ((.error (.invalidKey (c.name.part part)), f), d) := by
  obtain ⟨e, refused⟩ : ∃ e, schemaPath f.root c.name = .error e :=
    SchemaName.schemaPath_of_isBadPart bad
  obtain ⟨part, -, bad, rfl⟩ := SchemaName.of_schemaPath_error refused
  refine ⟨part, bad, ?_⟩
  have path := Storing.runs_known d refused
  cases c with
  | fetch | fetchRecord | fetchRecords => cases writes
  | register name a => exact Storing.run_keep_error path.fail.fail
  | replace name a expected => exact Storing.run_keep_error path.fail.fail.fail
  | remove name expected => exact Storing.run_keep_error path.fail.fail.fail

/-- **Names are kept apart, whatever texts they are made of.**  At most one schema is bound to the
tenant and the subject of a name, and it has this tenant and this subject.  It is told to every read
by subject; and to a fetch it is told if it has the schema of the name, too.  With and without the
cache, the same is told, unless the name or the schema is refused without it.  A write under a name
with a bad part fails, and leaves the cache and the files as they are. -/
theorem reads_kept_apart (site : Site) (f : FileStore) (d : Disk) (visited : Visited site f d)
    (name : SchemaName) :
    ∃ bound : Option Aggregate,
      (∀ a, bound = some a →
        a.name.tenant = name.tenant ∧ a.name.subject = name.subject ∧
          f.told d (.fetch a.name true) = .ok (some a)) ∧
      (∀ n cached a, n.tenant = name.tenant → n.subject = name.subject →
        f.told d (.fetch n cached) = .ok (some a) → bound = some a) ∧
      (∀ cached,
        Answered name SchemaName.schemaParts (bound.filter fun a => a.name.schema == name.schema)
            .ok cached (f.told d (.fetch name cached)) ∧
          Answered name SchemaName.subjectParts bound (selected name) cached
            (f.told d (.fetchRecord name cached)) ∧
          Answered name SchemaName.subjectParts bound
            (fun found => .ok (found.map (·.ledger.records))) cached
            (f.told d (.fetchRecords name cached))) ∧
      ∀ c : StoreCall, c.isWrite = true → c.name = name →
        (∃ part, IsBadPart (name.part part)) →
          ∃ part, IsBadPart (name.part part) ∧
            Disk.run (f.answer c) d = ((.error (.invalidKey (name.part part)), f), d) := by
  obtain ⟨s, neat, h⟩ := visited.represents
  refine ⟨s name.subjectRef, fun a bound => ?_, fun n cached a tenant subject read => ?_,
    fun cached => ⟨h.answered_fetch neat name cached, h.answered_fetchRecord neat name cached,
      h.answered_fetchRecords neat name cached⟩, ?_⟩
  · have ref := (neat _ a bound).2
    obtain ⟨tenant, subject⟩ := SchemaName.eq_subjectRef_iff.1 ref
    have found : s.find a.name = some a := Shelf.find_eq_some_iff.2 ⟨by rw [ref, bound], rfl⟩
    refine ⟨tenant, subject, ?_⟩
    rw [h.told_eq (c := .fetch a.name true) neat trivial]
    exact congrArg Except.ok found
  · have ref : n.subjectRef = name.subjectRef := SchemaName.eq_subjectRef_iff.2 ⟨tenant, subject⟩
    rw [h.told_eq (c := .fetch n cached) neat trivial] at read
    rw [← ref]
    cases granted : s.grant site.root (.fetch n cached) with
    | error e =>
      rw [granted] at read
      cases read
    | ok u =>
      rw [granted] at read
      exact (Shelf.find_eq_some_iff.1 (Except.ok.inj read)).1
  · rintro c writes rfl ⟨part, bad⟩
    exact answer_of_isBadPart writes bad d

end FileStore

namespace Rehearsal

/-- A schema whose only version is the second one. -/
def gapped : Aggregate :=
  { registered with ledger := ⟨[.make orders 7 .avro "first" 2 noon]⟩ }

/-- A store in which one schema was registered, whether or not it is refused when it is read. -/
lemma visited_of_registered {a : Aggregate} (titled : (StoreCall.register orders a).IsTitled) :
    ∃ f d s, Visited site f d ∧ s.IsNeat site.root ∧ Represents site f d s ∧
      s.find orders = some a := by
  obtain ⟨f, d, opened, represents⟩ := represents_open site
  have neat : Shelf.empty.IsNeat site.root := Shelf.isTidy_empty.isNeat
  obtain ⟨f', d', answered, after⟩ := represents.respond neat titled
  refine ⟨f', d', _, .answered (.opened opened) titled answered, neat.respond titled, after, ?_⟩
  have path := hasFile_orders.isPlain.schemaPath hasFile_orders.schema site.root
  have accepted := Shelf.accept_register_of_fits (s := .empty) (a := a) path
    ⟨by decide, by decide⟩
  have free : Shelf.empty orders.subjectRef = none := rfl
  rw [Shelf.respond_register, Shelf.reply_of_accept accepted, Shelf.answer, free]
  dsimp only
  exact Shelf.find_eq_some_iff.2 ⟨Function.update_self .., titled.1.schema⟩

end Rehearsal

namespace FileStore

open Rehearsal

/-- A read by subject is told of the schema of the subject, even under a name that is no path. -/
theorem reads_kept_apart_of_orders :
    ∃ f d, Visited site f d ∧ f.told d (.fetch orders true) = .ok (some registered) ∧
      f.told d (.fetchRecords { orders with schema := ".." } false) =
        .ok (some registered.ledger.records) := by
  obtain ⟨f, d, s, visited, neat, represents, found⟩ := visited_of_registered (a := registered)
    ⟨⟨rfl, rfl, rfl⟩, isStorable_registered.counts⟩
  have told : f.told d (.fetch orders true) = .ok (some registered) := by
    rw [represents.told_eq (c := .fetch orders true) neat trivial]
    exact congrArg Except.ok found
  refine ⟨f, d, visited, told, ?_⟩
  obtain ⟨bound, -, only, reads, -⟩ :=
    reads_kept_apart site f d visited { orders with schema := ".." }
  obtain rfl := only orders true registered rfl rfl told
  have read := (reads false).2.2
  generalize f.told d (.fetchRecords { orders with schema := ".." } false) = x at read
  cases read with
  | shown sound => rfl
  | badPart uncached needed bad nothing => cases nothing
  | flawed uncached there flawed =>
    cases there
    rcases flawed with gap | tampered
    · cases isStorable_registered.contiguous.symm.trans gap
    · cases isStorable_registered.authentic.symm.trans tampered

/-- **The cache shows a schema that is refused when it is read from its file**, because there is a
gap in its ledger. -/
theorem reads_differ_of_gapped :
    ∃ f d, Visited site f d ∧ f.told d (.fetch orders true) = .ok (some gapped) ∧
      f.told d (.fetch orders false) = .error (.corrupted orders.fullName .gap) := by
  have counts : Wire.aggregate.Fits gapped := by
    rw [Wire.fits_aggregate_iff]
    decide
  obtain ⟨f, d, s, visited, neat, represents, found⟩ := visited_of_registered (a := gapped)
    ⟨⟨rfl, rfl, rfl⟩, counts⟩
  have path := hasFile_orders.isPlain.schemaPath hasFile_orders.schema site.root
  refine ⟨f, d, visited, ?_, ?_⟩
  · rw [represents.told_eq (c := .fetch orders true) neat trivial]
    exact congrArg Except.ok found
  · rw [represents.told_eq (c := .fetch orders false) neat trivial, Shelf.grant, Shelf.accept,
      Shelf.loads, if_neg Bool.false_ne_true, if_neg Bool.false_ne_true, path, found]
    rfl

end FileStore

end SchemaLedger
