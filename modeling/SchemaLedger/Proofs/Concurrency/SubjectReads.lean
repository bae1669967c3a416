import SchemaLedger.Proofs.Concurrency.Conflicts
import SchemaLedger.Proofs.Concurrency.Identity
import SchemaLedger.Proofs.Concurrency.Scopes

/-!
Reads by name and reads by subject.

A schema is looked up by its full name; its records are looked up by the key of its subject, in an
index, in a cache or in a folder.

* `Reader`: an actor at a registry, who is alone with the store for one read.
* `Backend.Serves`: a store tells the records of one schema to reads of a subject, or of none.
* `Reader.Tells`: what the reads of a subject are answered, with and without a version that they
  select.  A store that serves a schema tells its records (`Backend.Serves.tells`).
* `World.Filed`: the store in memory has a schema with a plain name under this name, and the index
  leads to it.
* `World.reads_agree`: whatever jobs have done to a store, reads by subject tell the records that
  reads by name show.
-/

namespace SchemaLedger

/-! ### Reading alone -/

/-- An actor at a registry, and all collaborators but the store. -/
structure Reader where
  registry : Registry
  actor : String
  say : (q : Request) → q.Answer

namespace Reader

variable {B : Backend} {α : Type}

/-- The reader may read in the scope. -/
def MayRead (x : Reader) (scope : String) : Prop :=
  x.say (.permit x.actor scope .get) = Except.ok ()

/-- The answer to a question of the reader, with nobody else at the store. -/
def answer (x : Reader) (q : Request) : StateM B.State q.Answer :=
  fun σ => (World.opened σ).reply x.say q

/-- What an operation comes to. -/
def result (x : Reader) (σ : B.State) (operation : Operating α) : Except Failure α :=
  (Program.run (I := Collaborators) (x.answer (B := B)) operation.run σ).1

/-- A read of a schema. -/
def get (x : Reader) (σ : B.State) (n : SchemaName) : Except Failure SchemaView :=
  x.result σ (x.registry.get x.actor n)

/-- A read of the record that a name selects from its subject. -/
def select (x : Reader) (σ : B.State) (n : SchemaName) : Except Failure RecordView :=
  x.result σ (x.registry.getBySubject x.actor n)

/-- A read of all records of a subject. -/
def list (x : Reader) (σ : B.State) (n : SchemaName) : Except Failure (List RecordView) :=
  x.result σ (x.registry.listBySubject x.actor n)

variable {x : Reader} {σ : B.State}

/-- A read starts: its name has the parts that it needs, and it is permitted. -/
lemma result_enter {n : SchemaName} {parts : List NamePart} {scope : String}
    (valid : n.check parts = .ok ()) (may : x.MayRead scope) (rest : Operating α) :
    x.result σ (Operating.lift id (n.check parts) >>= fun _ =>
      Registry.authorize x.actor scope .get >>= fun _ => rest) = x.result σ rest := by
  have asked : x.result σ (Registry.authorize x.actor scope .get >>= fun _ => rest) =
      x.result σ (Operating.lift .denied (x.say (.permit x.actor scope .get)) >>= fun _ => rest) :=
    rfl
  rw [valid]
  refine asked.trans ?_
  rw [may]
  rfl

/-- The store is asked, and answers. -/
lemma result_consult_bind {c : StoreCall} {y : c.Result} (answered : (B.answer σ c).1 = .ok y)
    (rest : c.Result → Operating α) :
    x.result σ (Registry.consult c >>= rest) = x.result (B.answer σ c).2 (rest y) := by
  have asked : x.result σ (Registry.consult c >>= rest) =
      x.result (B.answer σ c).2 (Operating.lift .ofStore (B.answer σ c).1 >>= rest) := rfl
  rw [asked, answered]
  rfl

variable {n : SchemaName} {a : Aggregate}

/-- A schema that the store has is shown. -/
lemma get_eq (valid : n.check SchemaName.schemaParts = .ok ()) (may : x.MayRead n.tenant)
    (fetched : ∀ cached, (B.answer σ (.fetch n cached)).1 = Except.ok (some a)) :
    x.get σ n = .ok a.view := by
  refine (result_enter valid may _).trans ?_
  unfold Registry.load
  rw [bind_assoc, result_consult_bind (fetched _)]
  rfl

/-- The record is told that the store selects, or that there is none. -/
lemma select_eq (valid : n.check SchemaName.subjectParts = .ok ()) (may : x.MayRead n.subject)
    {found : Option Record}
    (fetched : ∀ cached, (B.answer σ (.fetchRecord n cached)).1 = Except.ok found) :
    x.select σ n =
      (found.map Record.view).elim (.error (Registry.subjectNotFound n)) Except.ok := by
  refine (result_enter valid may _).trans ?_
  rw [result_consult_bind (fetched _)]
  cases found <;> rfl

/-- The records are told that the store lists, if there are any. -/
lemma list_eq (valid : n.check SchemaName.subjectParts = .ok ()) (may : x.MayRead n.subject)
    {records : List Record} (some : records ≠ [])
    (fetched : ∀ cached, (B.answer σ (.fetchRecords n cached)).1 = Except.ok (.some records)) :
    x.list σ n = .ok (records.map Record.view) := by
  refine (result_enter valid may _).trans ?_
  rw [result_consult_bind (fetched _)]
  cases records with
  | nil => exact absurd rfl some
  | cons record records => rfl

/-- No records are told where the store lists none. -/
lemma list_eq_of_none (valid : n.check SchemaName.subjectParts = .ok ())
    (may : x.MayRead n.subject)
    (fetched : ∀ cached, (B.answer σ (.fetchRecords n cached)).1 = Except.ok none) :
    x.list σ n = .error (Registry.subjectNotFound n) := by
  refine (result_enter valid may _).trans ?_
  rw [result_consult_bind (fetched _)]
  rfl

/-- What reads of a subject are answered where a schema is shown with some records. -/
structure Tells (x : Reader) (σ : B.State) (shown : SchemaView) (n : SchemaName) : Prop where
  listed : x.list σ n = .ok shown.records
  latest : n.version = none →
    ∃ r, shown.lastRecord? = some r ∧ x.select σ n = .ok r
  selected : ∀ v, n.version = some v → 1 ≤ v.toNat → v.toNat ≤ shown.lastVersion →
    ∃ r ∈ shown.records, r.version = v.toNat ∧ x.select σ n = .ok r
  beyond : ∀ v, n.version = some v → ¬(1 ≤ v.toNat ∧ v.toNat ≤ shown.lastVersion) →
    x.select σ n = .error (Registry.subjectNotFound n)

end Reader

/-- A name that selects a version is told the record at this position. -/
lemma selectRecord_of_version {a : Aggregate} {n : SchemaName} {v : UInt64}
    (selects : n.version = some v) : selectRecord a n = .ok (a.ledger.record? v.toNat) := by
  rw [selectRecord, selects]

/-- Any other name is told the last record. -/
lemma selectRecord_of_latest {a : Aggregate} {n : SchemaName} {r : Record}
    (latest : n.version = none) (last : a.ledger.records.getLast? = some r) :
    selectRecord a n = .ok (some r) := by
  rw [selectRecord, latest, Ledger.last?, last]

/-- A store tells the records of the schema to reads of the name's subject, or that there are
none. -/
structure Backend.Serves (B : Backend) (σ : B.State) (n : SchemaName) (x : Option Aggregate) :
    Prop where
  record : ∀ cached, (B.answer σ (.fetchRecord n cached)).1 =
    x.elim (.ok none) fun a => selectRecord a n
  records : ∀ cached, (B.answer σ (.fetchRecords n cached)).1 =
    .ok (x.map fun a => a.ledger.records)

namespace Backend.Serves

variable {B : Backend} {σ : B.State} {n : SchemaName} {a : Aggregate} {x : Reader}

/-- What is told of a schema whose versions are 1, 2, … in order. -/
lemma tells (h : B.Serves σ n (some a)) (contiguous : a.ledger.isContiguous = true)
    (valid : n.check SchemaName.subjectParts = .ok ()) (may : x.MayRead n.subject) :
    x.Tells σ a.view n := by
  obtain ⟨nonempty, -⟩ := Ledger.isContiguous_iff.1 contiguous
  have numbered {v : UInt64} (selects : n.version = some v) (cached : Bool) :
      (B.answer σ (.fetchRecord n cached)).1 = Except.ok (a.ledger.record? v.toNat) :=
    (h.record cached).trans (selectRecord_of_version selects)
  constructor
  case listed => exact x.list_eq valid may nonempty h.records
  case latest =>
    intro latest
    obtain ⟨last, there⟩ := Option.ne_none_iff_exists'.1 (mt List.getLast?_eq_none_iff.1 nonempty)
    refine ⟨last.view, (List.getLast?_map ..).trans (congrArg _ there), ?_⟩
    exact x.select_eq valid may fun cached =>
      (h.record cached).trans (selectRecord_of_latest latest there)
  case selected =>
    intro v selects one most
    cases there : a.ledger.record? v.toNat with
    | none => exact absurd ⟨one, most⟩ (Ledger.record?_eq_none_iff.1 there)
    | some record =>
      have told := x.select_eq valid may (numbered selects)
      rw [there] at told
      exact ⟨record.view, List.mem_map_of_mem (Ledger.mem_of_record? there),
        Ledger.version_of_record? contiguous there, told⟩
  case beyond =>
    intro v selects outside
    have told := x.select_eq valid may (numbered selects)
    rwa [Ledger.record?_eq_none_iff.2 outside] at told

/-- Where no schema is bound, there is nothing to tell. -/
lemma not_found (h : B.Serves σ n none) (valid : n.check SchemaName.subjectParts = .ok ())
    (may : x.MayRead n.subject) :
    x.list σ n = .error (Registry.subjectNotFound n) ∧
      x.select σ n = .error (Registry.subjectNotFound n) :=
  ⟨x.list_eq_of_none valid may h.records, x.select_eq valid may h.record⟩

end Backend.Serves

/-- A live schema is shown with its versions in order, and reads of its subject tell its records,
whatever the schema part of the name that they use. -/
structure Backend.ShowsAlike (B : Backend) (σ : B.State) (n : SchemaName) (a : Aggregate) :
    Prop where
  inOrder : a.view.records.map (·.version) = List.range' 1 a.view.lastVersion
  shown : ∀ x : Reader, x.MayRead n.tenant → x.get σ n = .ok a.view
  told : ∀ n' : SchemaName, n'.subjectRef = n.subjectRef → ∀ x : Reader, x.MayRead n'.subject →
    x.Tells σ a.view n'

/-- So it is with a store that serves both reads from one schema. -/
lemma Backend.showsAlike_of_serves {B : Backend} {σ : B.State} {n : SchemaName} {a : Aggregate}
    (contiguous : a.ledger.isContiguous = true) (valid : n.check SchemaName.schemaParts = .ok ())
    (fetched : ∀ cached, (B.answer σ (.fetch n cached)).1 = Except.ok (some a))
    (serves : ∀ n' : SchemaName, n'.subjectRef = n.subjectRef → B.Serves σ n' (some a)) :
    B.ShowsAlike σ n a where
  inOrder := by
    refine Eq.trans ?_ (Ledger.isContiguous_iff.1 contiguous).2
    exact List.map_map ..
  shown x may := x.get_eq valid may fetched
  told n' same x may :=
    (serves n' same).tells contiguous (SchemaName.check_subjectParts same valid) may

/-- Reads by name and reads by subject tell the same of a store: `shown` is the schema that is live
under a name, and `plain` are the names that the store takes.  Under a subject to which no live
schema is bound nothing is found. -/
structure ReadsAgree (B : Backend) (shown : B.State → SchemaName → Option Aggregate)
    (plain : SchemaName → Prop) (σ : B.State) : Prop where
  live : ∀ n a, plain n → shown σ n = some a → B.ShowsAlike σ n a
  vacant : ∀ n', plain n' → n'.check SchemaName.subjectParts = .ok () →
    (∀ n a, plain n → shown σ n = some a → n.subjectRef ≠ n'.subjectRef) →
    ∀ x : Reader, x.MayRead n'.subject →
      x.list σ n' = .error (Registry.subjectNotFound n') ∧
      x.select σ n' = .error (Registry.subjectNotFound n')

/-! ### The store in memory -/

/-- A name without slashes in its scope, whose schema is stored under the key. -/
structure SchemaName.IsFiled (n : SchemaName) (key : String) : Prop where
  plain : n.HasPlainScope
  valid : n.check SchemaName.schemaParts = .ok ()
  unversioned : n.version = none
  fullName : n.fullName = key

/-- There is one such name. -/
lemma SchemaName.IsFiled.eq {m n : SchemaName} {key : String} (hm : m.IsFiled key)
    (hn : n.IsFiled key) : m = n := by
  have same := unversioned_eq_of_fullName hm.plain hn.plain (hm.fullName.trans hn.fullName.symm)
  have whole {k : SchemaName} (none : k.version = none) : k.unversioned = k := by
    cases k
    cases none
    rfl
  rwa [whole hm.unversioned, whole hn.unversioned] at same

lemma SchemaName.HasPlainScope.isFiled {n : SchemaName} (plain : n.HasPlainScope)
    (valid : n.check SchemaName.schemaParts = .ok ()) : n.unversioned.IsFiled n.fullName :=
  ⟨⟨plain.tenant, plain.subject⟩, SchemaName.check_congr rfl rfl rfl valid, rfl, rfl⟩

/-- A record is selected from the schema that the key of its subject leads to. -/
lemma Tables.answer_record (t : Tables) (n : SchemaName) (cached : Bool) :
    (t.answer (.fetchRecord n cached)).1 =
      (t.bound? n.subjectKey).elim (.ok none) fun a => selectRecord a n := by
  rw [answer]
  cases t.bound? n.subjectKey <;> rfl

/-- The key of a subject leads to the schema that is stored under its own name. -/
lemma Tables.Indexed.bound?_of_stored {t : Tables} (h : t.Indexed) (paired : t.IsPaired)
    {full : String} {a : Aggregate} (stored : t.schemas.get? full = some a) :
    t.bound? a.name.subjectKey = some a := by
  obtain ⟨key, leads⟩ := paired.exists_subject (Dictionary.mem_keys_of_get? stored)
  obtain ⟨b, stored', rfl⟩ := h.bound key full leads
  cases stored.symm.trans stored'
  exact Option.bind_eq_some_iff.2 ⟨full, leads, stored⟩

namespace World

section Memory

variable {w w' : World MemoryStore.backend}

/-- Schemas are stored under their own names, jobs have read nothing else, and the index leads to
them. -/
structure Filed (w : World MemoryStore.backend) : Prop where
  stored : ∀ key a, w.stored? key = some a → a.name.IsFiled key
  read : ∀ e ∈ w.history, ∀ name cached a,
    e.talk = ⟨.store (.fetch name cached), Except.ok (some a)⟩ → a.name.IsFiled name.fullName
  indexed : w.tables.Indexed

/-- What a job writes has the name of the job. -/
lemma Filed.payload (h : w.Filed) {j : Job} {caller : Nat} {c : StoreCall} {a : Aggregate}
    (plain : j.task.name.HasPlainScope) (may : j.MayWrite (w.transcript caller) c)
    (payload : c.payload? = some a) : a.name.IsFiled c.name.fullName := by
  rw [← may.name_eq] at plain
  have valid := may.valid
  rcases may.payload_cases payload with ⟨name, rfl, named, -⟩ |
    ⟨current, name, cached, read, rfl, named, -⟩
  · rw [named]
    exact plain.isFiled valid
  · obtain ⟨e, he, -, talk⟩ := mem_talksOf.1 read
    rw [named]
    exact h.read e he name cached current talk

/-- What was read by now was stored, or has been read before. -/
lemma Filed.read_concat (h : w.Filed) {e : Event}
    (honest : ∀ name cached found, e.talk = ⟨.store (.fetch name cached), Except.ok found⟩ →
      w.stored? name.fullName = found) :
    ∀ e' ∈ w.history ++ [e], ∀ name cached a,
      e'.talk = ⟨.store (.fetch name cached), Except.ok (some a)⟩ →
        a.name.IsFiled name.fullName := by
  intro e' he' name cached a asked
  rcases List.mem_append.1 he' with old | new
  · exact h.read e' old name cached a asked
  · rw [List.mem_singleton.1 new] at asked
    exact h.stored _ a (honest name cached _ asked)

/-- One step keeps this up, as long as all names in use are plain. -/
lemma Filed.step (h : w.Filed) (kept' : w'.Kept)
    (plain : ∀ t ∈ w'.threads, t.job.task.name.HasPlainScope) (step : w.LooseStep w') :
    w'.Filed := by
  cases outcome_of_step kept' step with
  | silent history tables =>
    exact ⟨fun key a stored => h.stored key a (by rwa [stored?, tables] at stored),
      history ▸ h.read, tables ▸ h.indexed⟩
  | quiet history tables _ honest =>
    exact ⟨fun key a stored => h.stored key a (by rwa [stored?, tables] at stored),
      history ▸ h.read_concat honest, tables ▸ h.indexed⟩
  | @wrote e call history effect may performs =>
    have named : e.job.task.name.HasPlainScope := by
      obtain ⟨t, started, same⟩ := kept'.owned e (by simp [history])
      exact same ▸ plain t (List.mem_of_getElem? started)
    have filed {a : Aggregate} (payload : call.payload? = some a) :=
      h.payload named may payload
    constructor
    case stored =>
      intro key a stored
      rcases performs.get?_cases stored with ⟨payload, rfl⟩ | ⟨before, -⟩
      · exact filed payload
      · exact h.stored key a before
    case read =>
      rw [history]
      refine h.read_concat fun name cached found asked => ?_
      rw [asked] at effect
      cases effect
    case indexed =>
      refine h.indexed.performs performs (fun name a register => ?_)
        fun name a expected s replace stored => ?_
      · subst register
        rw [may.registers.1, SchemaName.subjectKey_unversioned]
      · subst replace
        exact (filed rfl).eq (h.stored _ s stored)

/-- So it is in every run on an empty store, if all names in use are plain. -/
lemma Reaches.filed (run : start.Reaches w)
    (plain : ∀ t ∈ w.threads, t.job.task.name.HasPlainScope) : w.Filed := by
  induction run with
  | refl =>
    refine ⟨fun key a stored => ?_, fun e he => ?_, Dictionary.hasUniqueKeys_empty,
      fun key full leads => ?_⟩
    · cases stored
    · cases he
    · cases leads
  | @tail w w' run step ih =>
    refine (ih fun t started => ?_).step ((kept run).step step) plain step
    obtain ⟨t', started', same⟩ := (reaches_of_step step).exists_thread started
    exact same ▸ plain t' started'

/-- Reads of a subject are answered from the schema that its key leads to. -/
lemma serves_bound? (w : World MemoryStore.backend) (n : SchemaName) :
    MemoryStore.backend.Serves w.store n (w.tables.bound? n.subjectKey) where
  record cached := (MemoryStore.answer_read w.store rfl).trans (w.tables.answer_record n cached)
  records _ := MemoryStore.answer_read w.store rfl

/-- Reads of the store in memory agree. -/
lemma Filed.readsAgree (h : w.Filed) (run : start.Reaches w) :
    ReadsAgree MemoryStore.backend MemoryStore.shown SchemaName.HasPlainScope w.store where
  live := by
    intro n a plain shown
    have filed := h.stored _ a shown
    have contiguous := (run.isMade a (run.written_of_stored shown)).isCoherent.contiguous
    obtain ⟨ref, schema⟩ := SchemaName.unversioned_eq_iff.1
      (SchemaName.unversioned_eq_of_fullName filed.plain plain filed.fullName)
    have valid : n.check SchemaName.schemaParts = .ok () :=
      SchemaName.check_congr (congrArg SubjectRef.tenant ref.symm)
        (congrArg SubjectRef.subject ref.symm) schema.symm filed.valid
    refine MemoryStore.backend.showsAlike_of_serves contiguous valid (fun cached => ?_)
      fun n' same => ?_
    · exact (MemoryStore.answer_fetch w.store n cached).1.trans (congrArg _ shown)
    · have bound := h.indexed.bound?_of_stored (run.isPaired MemoryStore.isPaired_empty) shown
      have serves := w.serves_bound? n'
      have key : n'.subjectKey = a.name.subjectKey :=
        congrArg SubjectRef.key (same.trans ref.symm)
      rwa [key, bound] at serves
  vacant := by
    intro n' plain valid vacant x may
    have serves := w.serves_bound? n'
    cases bound : w.tables.bound? n'.subjectKey with
    | none => exact (bound ▸ serves).not_found valid may
    | some a =>
      obtain ⟨full, stored, same⟩ := h.indexed.bound? bound
      have filed := h.stored full a stored
      exact absurd (SchemaName.subjectRef_eq_of_subjectKey filed.plain plain same)
        (vacant a.name a filed.plain ((congrArg _ filed.fullName).trans stored))

end Memory

/-! ### The store on files -/

section Files

variable {site : Site} {s : Shelf} {w : World FileStore.backend}

/-- A read is answered from the shelf, if files serve it. -/
lemma Sheltered.answer_read (h : w.Sheltered site s) {c : StoreCall} (reads : c.isWrite = false)
    (accepted : s.accept site.root c = .ok ()) :
    (FileStore.backend.answer w.store c).1 = (s.answer c).1 := by
  obtain ⟨f, d, answered, -⟩ := h.represents.reply h.tidy (c.isProper_read reads)
  refine (congrArg Prod.fst (FileStore.serve_eq answered)).trans ?_
  rw [Shelf.reply_of_accept accepted]

/-- Reads of a subject are answered from what is bound to it, cached or not. -/
lemma Sheltered.serves (h : w.Sheltered site s) {n : SchemaName} (plain : n.IsPlain) :
    FileStore.backend.Serves w.store n (s n.subjectRef) where
  record cached := by
    refine (h.answer_read rfl ?_).trans ?_
    · rw [Shelf.accept, plain.subjectPath]
      exact ite_self _
    · rw [Shelf.answer]
      cases s n.subjectRef <;> rfl
  records cached := by
    refine h.answer_read rfl ?_
    rw [Shelf.accept, plain.subjectPath]
    exact ite_self _

/-- Reads of the store on files agree. -/
lemma Sheltered.readsAgree (h : w.Sheltered site s) :
    ReadsAgree FileStore.backend FileStore.shown SchemaName.IsPlain w.store where
  live := by
    intro n a plain shown
    have found : s.find n = some a := (h.shown_eq n).symm.trans shown
    obtain ⟨bound, -⟩ := Shelf.find_eq_some_iff.1 found
    have named := h.tidy.isNamed found
    have contiguous := (h.tidy _ a bound).1.contiguous
    have valid : n.check SchemaName.schemaParts = .ok () :=
      SchemaName.check_congr named.tenant.symm named.subject.symm named.schema.symm
        (h.valid _ a bound)
    refine FileStore.backend.showsAlike_of_serves contiguous valid (fun cached => ?_)
      fun n' same => ?_
    · have file := (h.tidy.hasFile found).1
      refine (h.answer_read rfl ?_).trans (congrArg _ found)
      rw [Shelf.accept, file.isPlain.schemaPath file.schema]
      exact ite_self _
    · have tenant : n'.tenant = n.tenant := congrArg SubjectRef.tenant same
      have subject : n'.subject = n.subject := congrArg SubjectRef.subject same
      have plain' : n'.IsPlain := ⟨tenant ▸ plain.tenant, subject ▸ plain.subject⟩
      have serves := h.serves plain'
      rwa [same, bound] at serves
  vacant := by
    intro n' plain valid vacant x may
    have serves := h.serves plain
    cases bound : s n'.subjectRef with
    | none => exact (bound ▸ serves).not_found valid may
    | some a =>
      obtain ⟨storable, ref⟩ := h.tidy _ a bound
      have found : s.find a.name = some a := Shelf.find_eq_some_iff.2 ⟨ref ▸ bound, rfl⟩
      exact absurd ref (vacant a.name a storable.name.isPlain ((h.shown_eq a.name).trans found))

end Files

/-- **Reads by name and reads by subject agree**, with the store in memory and with a store on
files, whatever jobs have done to it and whether reads are served from the cache or not.  (In memory
the jobs use names without slashes in tenant and subject; files take no others.  The exchanges on
files are fewer than 64 bits can count, so that every version is a number that a file can hold.) -/
theorem reads_agree :
    (∀ w : World MemoryStore.backend, start.Reaches w →
      (∀ t ∈ w.threads, t.job.task.name.HasPlainScope) →
        ReadsAgree MemoryStore.backend MemoryStore.shown SchemaName.HasPlainScope w.store) ∧
    ∀ (site : Site) (w : World FileStore.backend), (lodged site).Reaches w →
      w.history.length < Word.limit 64 →
        ReadsAgree FileStore.backend FileStore.shown SchemaName.IsPlain w.store := by
  refine ⟨fun w run plain => (run.filed plain).readsAgree run, fun site w run small => ?_⟩
  obtain ⟨s, h⟩ := run.sheltered small
  exact h.readsAgree

end World

namespace Rehearsal

/-- A reader who may read everything. -/
def reader : Reader where
  registry := registry
  actor := "ann"
  say := say

end Rehearsal

namespace World

open Rehearsal in
/-- A schema with two versions is shown, and its records are told under its subject.  Before its
registration nothing was found there. -/
theorem reads_of_changed :
    reader.get (start.after (registering ++ changing)).store orders = .ok changed.view ∧
    reader.list (start.after (registering ++ changing)).store { orders with schema := "" } =
      .ok changed.view.records ∧
    (∃ r ∈ changed.view.records, r.version = 1 ∧
      reader.select (start.after (registering ++ changing)).store
        { orders with version := some 1 } = .ok r) ∧
    reader.select (start.after (registering ++ changing)).store
        { orders with version := some 0 } = .error (.notFound "shop/orders@v0") ∧
    reader.list start.store orders = .error (.notFound "shop/orders") := by
  have plain : ∀ t ∈ (start.after (registering ++ changing)).threads,
      t.job.task.name.HasPlainScope := by
    intro t started
    have names : (start.after (registering ++ changing)).threads.map (·.job.task.name) =
        List.replicate 2 orders := rfl
    have same : t.job.task.name = orders :=
      List.eq_of_mem_replicate (names ▸ List.mem_map.2 ⟨t, started, rfl⟩)
    rw [same]
    exact ⟨by decide, by decide⟩
  have agree := reads_agree.1 _ (reaches_after start (registering ++ changing)) plain
  obtain ⟨-, shown, told⟩ := agree.live orders changed ⟨by decide, by decide⟩ rfl
  have reads (n : SchemaName) (same : n.subjectRef = orders.subjectRef) := told n same reader rfl
  have empty := reads_agree.1 start .refl fun t started => nomatch started
  refine ⟨shown reader rfl, (reads { orders with schema := "" } rfl).listed,
    (reads { orders with version := some 1 } rfl).selected 1 rfl (by decide) (by decide),
    (reads { orders with version := some 0 } rfl).beyond 0 rfl (by decide), ?_⟩
  exact (empty.vacant orders ⟨by decide, by decide⟩ rfl (fun n a _ stored => nomatch stored) reader
    rfl).1

end World

end SchemaLedger
