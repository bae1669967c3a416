import SchemaLedger.Proofs.Concurrency.Lineage
import SchemaLedger.Proofs.Name

/-!
Which schema a name reaches.

Permission is asked for the parts of a name, but the store knows only the keys that join them.

* `Aggregate.Stems`: a schema was registered under the parts that it carries, and each of its
  records is bound to the subject of a job that used its full name.
* `Tables.Indexed`: a subject's key leads to a schema whose name has this key.
* `World.names_kept_apart`: if the names in use are told apart by their keys
  (`World.NamesApart`), a job reads, changes and removes nothing but the schema that was
  registered under its name's own parts, and is shown the records of its own subject only.
  Names without slashes are told apart (`World.namesApart_of_plain`), others need not be
  (`World.names_aliased`).
-/

namespace SchemaLedger

/-- The schema was registered under the parts of the name, and carries them. -/
structure Aggregate.RegisteredAs (a : Aggregate) (n : SchemaName) (history : List Event) :
    Prop where
  name : a.name = n.unversioned
  tenant : a.info.tenant = n.tenant
  schemaName : a.info.schemaName = n.schema
  registered : ∃ e ∈ history, ∃ u b, e.talk.effect? = some (.register u b) ∧
    b.info.uniqueId = a.info.uniqueId ∧ u.unversioned = n.unversioned

/-- Where a schema comes from, and where its records come from. -/
structure Aggregate.Stems (a : Aggregate) (history : List Event) : Prop where
  registered : ∃ e ∈ history, a.RegisteredAs e.job.task.name history
  records : ∀ r ∈ a.ledger.records, ∃ e ∈ history,
    e.job.task.name.fullName = a.name.fullName ∧ r.subjects = [e.job.task.name.subjectRef]

namespace Aggregate

variable {a b : Aggregate} {m n : SchemaName} {history history' : List Event}

/-- The version that a name selects makes no difference. -/
lemma RegisteredAs.congr (h : a.RegisteredAs m history) (same : m.unversioned = n.unversioned) :
    a.RegisteredAs n history where
  name := h.name.trans same
  tenant := h.tenant.trans (congrArg SchemaName.tenant same :)
  schemaName := h.schemaName.trans (congrArg SchemaName.schema same :)
  registered := same ▸ h.registered

lemma RegisteredAs.mono (h : a.RegisteredAs n history) (longer : history ⊆ history') :
    a.RegisteredAs n history' :=
  { h with
    registered := by
      obtain ⟨e, he, registers⟩ := h.registered
      exact ⟨e, longer he, registers⟩ }

/-- What follows a schema is registered as the schema was. -/
lemma RegisteredAs.of_eq (h : b.RegisteredAs n history) (name : a.name = b.name)
    (info : a.info = b.info) : a.RegisteredAs n history where
  name := name.trans h.name
  tenant := info ▸ h.tenant
  schemaName := info ▸ h.schemaName
  registered := info ▸ h.registered

lemma Stems.mono (h : a.Stems history) (longer : history ⊆ history') : a.Stems history' where
  registered := by
    obtain ⟨e, he, registered⟩ := h.registered
    exact ⟨e, longer he, registered.mono longer⟩
  records := by
    intro r hr
    obtain ⟨e, he, record⟩ := h.records r hr
    exact ⟨e, longer he, record⟩

end Aggregate

/-! ### Jobs on one schema -/

/-- What an actor has to be allowed for a task that reads a whole schema. -/
def Task.operation? : Task → Option Operation
  | .update _ _ => some .update
  | .delete _ => some .delete
  | .get _ => some .get
  | .compileArtifact _ => some .update
  | _ => none

/-- A task on a schema that succeeds has been permitted, and has read a schema under its name, and
nothing else. -/
lemma Job.exists_opening {r : Registry} {actor : String} {task : Task} {operation : Operation}
    {past : List Talk} {result : task.Result} (asks : task.operation? = some operation)
    (h : MayEnd ⟨r, actor, task⟩ past (.ok result)) :
    ∃ current more, past = r.opening actor task.name operation (some current) ++ more ∧
      ∀ x ∈ more, ∀ name cached, x.question ≠ .store (.fetch name cached) := by
  cases task with
  | register | getBySubject | listBySubject => cases asks
  | update name request =>
    cases asks
    obtain ⟨before, a, expected, may, rfl, -⟩ := h
    cases may with
    | @update _ _ _ _ current _ _ _ compiling _ valid next attached =>
      refine ⟨current, _, by simp only [List.append_assoc]; rfl, ?_⟩
      cases attached <;> simp
  | delete name =>
    cases asks
    obtain ⟨-, current, rfl, -⟩ := h
    exact ⟨current, _, rfl, by simp⟩
  | get name =>
    cases asks
    obtain ⟨-, current, rfl, -⟩ := h
    exact ⟨current, [], (List.append_nil _).symm, by simp⟩
  | compileArtifact name =>
    cases asks
    obtain ⟨-, -, current, ⟨rfl, -⟩ | ⟨-, -, rfl⟩⟩ := h
    · exact ⟨current, [], (List.append_nil _).symm, by simp⟩
    · exact ⟨current, _, rfl, by simp⟩

/-! ### The index of subjects -/

/-- The key of a subject leads to a stored schema whose name has this key. -/
structure Tables.Indexed (t : Tables) : Prop where
  unique : t.subjects.HasUniqueKeys
  bound : ∀ key full, t.subjects.get? key = some full →
    ∃ a, t.schemas.get? full = some a ∧ a.name.subjectKey = key

namespace Tables

variable {t t' : Tables} {call : StoreCall}

/-- A write keeps the index, if a schema is registered under its own name and keeps it. -/
lemma Indexed.performs (h : t.Indexed) (performs : t.Performs call t')
    (registers : ∀ name a, call = .register name a → a.name.subjectKey = name.subjectKey)
    (replaces : ∀ name a expected s, call = .replace name a expected →
      t.schemas.get? name.fullName = some s → a.name = s.name) : t'.Indexed := by
  have frame : ∀ key, key ≠ call.name.fullName → t'.schemas.get? key = t.schemas.get? key :=
    fun key => performs.get?_of_ne
  cases performs with
  | @register name a free unbound =>
    refine ⟨h.unique.insert .., fun key full found => ?_⟩
    rw [Dictionary.get?_insert] at found
    split at found
    · rename_i same
      cases found
      refine ⟨a, (Dictionary.get?_insert ..).trans (if_pos rfl), ?_⟩
      rw [registers name a rfl, same]
    · obtain ⟨b, stored, bound⟩ := h.bound key full found
      refine ⟨b, ?_, bound⟩
      rw [frame, stored]
      rintro rfl
      rw [StoreCall.name, free] at stored
      cases stored
  | @replace name a s stored =>
    refine ⟨h.unique, fun key full found => ?_⟩
    obtain ⟨b, stored', bound⟩ := h.bound key full found
    by_cases same : full = name.fullName
    · subst same
      cases stored.symm.trans stored'
      refine ⟨a, (Dictionary.get?_insert ..).trans (if_pos rfl), ?_⟩
      rw [replaces name a _ s rfl stored, bound]
    · exact ⟨b, (frame _ same).trans stored', bound⟩
  | @remove name s stored =>
    refine ⟨h.unique.filter _, fun key full found => ?_⟩
    rw [Dictionary.get?_filterValues h.unique, Option.filter_eq_some_iff, bne_iff_ne] at found
    obtain ⟨b, stored', bound⟩ := h.bound key full found.1
    exact ⟨b, (frame _ found.2).trans stored', bound⟩

/-- A record that is read by subject is one of the schema that the key leads to. -/
lemma mem_of_fetchRecord {name : SchemaName} {cached : Bool} {record : Record}
    (h : (t.answer (.fetchRecord name cached)).1 = .ok (some record)) :
    ∃ a, t.bound? name.subjectKey = some a ∧ record ∈ a.ledger.records := by
  simp only [answer] at h
  split at h
  · rename_i a bound
    refine ⟨a, bound, ?_⟩
    unfold selectRecord at h
    split at h
    · exact Ledger.mem_of_record? (Except.ok.inj h)
    · split at h
      · rename_i last
        cases h
        exact List.mem_of_getLast? last
      · cases h
  · cases h

/-- The records that are read by subject are those of the schema that the key leads to. -/
lemma eq_of_fetchRecords {name : SchemaName} {cached : Bool} {records : List Record}
    (h : (t.answer (.fetchRecords name cached)).1 = .ok (some records)) :
    ∃ a, t.bound? name.subjectKey = some a ∧ records = a.ledger.records := by
  obtain ⟨a, bound, same⟩ := Option.map_eq_some_iff.1 (Except.ok.inj h)
  exact ⟨a, bound, same.symm⟩

/-- The schema that the key of a subject leads to. -/
lemma Indexed.bound? (h : t.Indexed) {key : String} {a : Aggregate} (bound : t.bound? key = some a) :
    ∃ full, t.schemas.get? full = some a ∧ a.name.subjectKey = key := by
  obtain ⟨full, found, stored⟩ := Option.bind_eq_some_iff.1 bound
  obtain ⟨b, stored', same⟩ := h.bound key full found
  cases stored.symm.trans stored'
  exact ⟨full, stored, same⟩

end Tables

/-! ### Schemas and records come from registrations -/

namespace World

variable {moves rest : List (Move MemoryStore.backend)}

/-- What a job writes comes from a registration, if what was written before does. -/
lemma stems_of_write {before : List Event} {e : Event} {call : StoreCall} {a : Aggregate}
    {w : World MemoryStore.backend} {tables : Tables}
    (h : ∀ b ∈ written w.history, b.Stems w.history) (traced : w.Traced)
    (history : before = w.history ++ [e]) (effect : e.talk.effect? = some call)
    (may : e.job.MayWrite (w.transcript e.caller) call) (performs : w.tables.Performs call tables)
    (payload : call.payload? = some a) : a.Stems before := by
  subst history
  have here : e ∈ w.history ++ [e] := List.mem_append_right _ (List.mem_singleton_self e)
  have own := may.name_eq
  rcases may.payload_cases payload with ⟨name, rfl, named, tenant, schema, record, records, bound⟩ |
    ⟨current, name, cached, read, rfl, named, info, grown⟩
  · obtain rfl : name = e.job.task.name := own
    refine ⟨⟨e, here, named, tenant, schema, e, here, _, a, effect, rfl, rfl⟩, fun r hr => ?_⟩
    rw [records, List.mem_singleton] at hr
    subst hr
    exact ⟨e, here, by rw [named, SchemaName.fullName_unversioned], bound⟩
  · obtain rfl : name = e.job.task.name := own
    have hcurrent := traced.written_of_transcript read
    have stems := (h current hcurrent).mono (List.subset_append_left _ [e])
    -- what the job has read is stored under its name
    have known : e.job.task.name.fullName = a.name.fullName := by
      obtain ⟨s, stored, same⟩ := performs.replaced
      have bare := traced.bare_eq_of_revision stored hcurrent same.symm
      rw [(traced.stored _ s stored).1, named, Aggregate.name_eq_of_bare bare]
    refine ⟨?_, fun r hr => ?_⟩
    · obtain ⟨e', he', registered⟩ := stems.registered
      exact ⟨e', he', registered.of_eq named info⟩
    · have cases : r ∈ current.ledger.records ∨ r.subjects = [e.job.task.name.subjectRef] := by
        rcases grown with ⟨record, grown, bound⟩ | ⟨-, -, d, rfl⟩
        · rw [grown, List.mem_append, List.mem_singleton] at hr
          exact hr.imp_right fun same => by rw [same, bound]
        · exact .inl hr
      rcases cases with old | bound
      · obtain ⟨e', he', known', bound⟩ := stems.records r old
        exact ⟨e', he', by rw [known', named], bound⟩
      · exact ⟨e, here, known, bound⟩

/-- **Whatever was stored comes from a registration**, after any moves. -/
theorem stems_after (moves : List (Move MemoryStore.backend)) :
    ∀ a ∈ written (start.after moves).history, a.Stems (start.after moves).history := by
  induction moves using List.reverseRecOn with
  | nil => exact fun a ha => nomatch ha
  | append_singleton moves m ih =>
    intro a ha
    rcases (outcome_after moves m).mem_written ha with
      old | ⟨e, call, history, effect, payload, may, performs⟩
    · exact (ih a old).mono (history_subset moves [m])
    · exact stems_of_write ih (traced_after moves) history effect may performs payload

/-- The index leads to what is stored, after any moves. -/
lemma indexed_after (moves : List (Move MemoryStore.backend)) :
    (start.after moves).tables.Indexed := by
  induction moves using List.reverseRecOn with
  | nil => exact ⟨Dictionary.hasUniqueKeys_empty, fun key full found => nomatch found⟩
  | append_singleton moves m ih =>
    cases outcome_after moves m with
    | silent _ tables => rwa [tables]
    | quiet _ tables _ _ => rwa [tables]
    | @wrote e call history effect may performs =>
      refine ih.performs performs (fun name a register => ?_) fun name a expected s replace stored => ?_
      · subst register
        rcases may.payload_cases rfl with ⟨name', register, named, -⟩ |
          ⟨current, name', cached, -, replace, -⟩
        · cases register
          rw [named, SchemaName.subjectKey_unversioned]
        · cases replace
      · subst replace
        obtain ⟨s', stored', same⟩ := performs.replaced
        cases stored.symm.trans stored'
        subst same
        exact ((traced_after moves).precedes_of_mayWrite stored may).1.name.symm

/-! ### Names that are told apart -/

/-- The keys of the names in use tell the names apart. -/
def NamesApart {B : Backend} (w : World B) : Prop :=
  ∀ t ∈ w.threads, ∀ t' ∈ w.threads,
    (t.job.task.name.fullName = t'.job.task.name.fullName →
      t.job.task.name.unversioned = t'.job.task.name.unversioned) ∧
    (t.job.task.name.subjectKey = t'.job.task.name.subjectKey →
      t.job.task.name.subjectRef = t'.job.task.name.subjectRef)

/-- Names without slashes are told apart by their keys. -/
lemma namesApart_of_plain {B : Backend} {w : World B}
    (plain : ∀ t ∈ w.threads, t.job.task.name.HasPlainScope) : w.NamesApart :=
  fun t ht t' ht' =>
    ⟨SchemaName.unversioned_eq_of_fullName (plain t ht) (plain t' ht'),
      SchemaName.subjectRef_eq_of_subjectKey (plain t ht) (plain t' ht')⟩

/-- The exchanges of a history are those of the threads. -/
lemma mem_threads_of_history {e : Event} (he : e ∈ (start.after moves).history) :
    ∃ t ∈ (start.after moves).threads, t.job = e.job := by
  have kept : (start.after moves).Kept := kept_after _ moves
  obtain ⟨t, ht, same⟩ := kept.owned e he
  exact ⟨t, List.mem_of_getElem? ht, same⟩

namespace NamesApart

variable {t : Thread} {key : String} {a : Aggregate}

/-- A stored schema whose name has the subject's key of a name in use, was registered under this
subject, and all its records are bound to it. -/
lemma subjects_eq (apart : (start.after (moves ++ rest)).NamesApart)
    (ht : t ∈ (start.after (moves ++ rest)).threads)
    (stored : (start.after moves).stored? key = some a)
    (bound : a.name.subjectKey = t.job.task.name.subjectKey) :
    ∀ r ∈ a.ledger.records, r.subjects = [t.job.task.name.subjectRef] := by
  intro r hr
  have stems := (stems_after moves a (written_of_stored stored)).mono (history_subset moves rest)
  obtain ⟨e, he, registered⟩ := stems.registered
  obtain ⟨e', he', known, subjects⟩ := stems.records r hr
  obtain ⟨u, hu, job⟩ := mem_threads_of_history he
  obtain ⟨u', hu', job'⟩ := mem_threads_of_history he'
  rw [← job] at registered
  rw [← job', registered.name] at known
  rw [registered.name] at bound
  rw [subjects, ← job']
  have same := (SchemaName.unversioned_eq_iff.1 ((apart u' hu' u hu).1 known)).1
  rw [same, (apart u hu t ht).2 bound]

/-- What is stored under the full name of a name in use was registered under this name. -/
lemma registeredAs (apart : (start.after (moves ++ rest)).NamesApart)
    (ht : t ∈ (start.after (moves ++ rest)).threads)
    (stored : (start.after moves).stored? t.job.task.name.fullName = some a) :
    a.RegisteredAs t.job.task.name (start.after (moves ++ rest)).history := by
  have stems := (stems_after moves a (written_of_stored stored)).mono (history_subset moves rest)
  obtain ⟨e, he, registered⟩ := stems.registered
  obtain ⟨u, hu, job⟩ := mem_threads_of_history he
  rw [← job] at registered
  have known := ((traced_after moves).stored _ a stored).1
  rw [registered.name, SchemaName.fullName_unversioned] at known
  exact registered.congr ((apart t ht u hu).1 known).symm

end NamesApart

/-- A job was to do a task, and was answered with a result. -/
def Succeeded {B : Backend} (w : World B) (caller : Nat) (task : Task) : Prop :=
  ∃ r actor result, w.threads[caller]? = some ⟨⟨r, actor, task⟩, .done (.ok result)⟩

/-- The job was permitted to perform the operation in the name's tenant, and has read, changed and
removed nothing but the schema that was registered under the name's own parts. -/
structure ActsOn (moves : List (Move MemoryStore.backend)) (caller : Nat) (name : SchemaName)
    (operation : Operation) : Prop where
  permitted : ∃ actor, (⟨.permit actor name.tenant operation, Except.ok ()⟩ : Talk) ∈
    (start.after moves).transcript caller
  hasRead : ∃ cached a, (⟨.store (.fetch name cached), Except.ok (some a)⟩ : Talk) ∈
    (start.after moves).transcript caller
  read : ∀ n cached a, (⟨.store (.fetch n cached), Except.ok (some a)⟩ : Talk) ∈
    (start.after moves).transcript caller → a.RegisteredAs name (start.after moves).history
  /-- Whatever is not stored any more as it was before an exchange of the job. -/
  changed : ∀ earlier m rest e key a, moves = earlier ++ m :: rest →
    (start.after (earlier ++ [m])).history = (start.after earlier).history ++ [e] →
    e.caller = caller → (start.after earlier).stored? key = some a →
    (start.after (earlier ++ [m])).stored? key ≠ some a →
    a.RegisteredAs name (start.after moves).history

/-- What an exchange changes or removes is stored under the name of its job. -/
lemma stored_of_changed {m : Move MemoryStore.backend} {e : Event} {key : String} {a : Aggregate}
    (next : (start.after (moves ++ [m])).history = (start.after moves).history ++ [e])
    (stored : (start.after moves).stored? key = some a)
    (changed : (start.after (moves ++ [m])).stored? key ≠ some a) :
    key = e.job.task.name.fullName := by
  obtain ⟨quiet, wrote, -⟩ := (outcome_after moves m).of_concat next
  cases effect : e.talk.effect? with
  | none => exact absurd stored (by rwa [stored?, ← quiet effect])
  | some call =>
    obtain ⟨may, performs⟩ := wrote call effect
    by_contra other
    rw [← may.name_eq] at other
    exact changed ((performs.get?_of_ne other).trans stored)

/-- A job keeps to the schema of its name, if the names in use are told apart by their keys. -/
lemma NamesApart.actsOn (apart : (start.after moves).NamesApart) {caller : Nat} {task : Task}
    {operation : Operation} (asks : task.operation? = some operation)
    (ended : (start.after moves).Succeeded caller task) :
    ActsOn moves caller task.name operation := by
  obtain ⟨r, actor, result, ended⟩ := ended
  have kept : (start.after moves).Kept := kept_after _ moves
  obtain ⟨current, more, talks, others⟩ := Job.exists_opening asks (kept.mayEnd ended)
  have here := List.mem_of_getElem? ended
  refine ⟨⟨actor, by rw [talks]; exact List.mem_append_left _ (List.mem_cons_self ..)⟩,
    ⟨_, current, by rw [talks]; exact List.mem_append_left _ Registry.fetch_mem_opening⟩,
    fun n cached a read => ?_, fun earlier m rest e key a split next own stored changed => ?_⟩
  · obtain ⟨e, he, -, talk⟩ := mem_talksOf.1 read
    obtain ⟨before, later, split⟩ := List.append_of_mem he
    obtain ⟨earlier, m, rest, rfl, -, stored⟩ := moment_of_read split talk
    rw [talks] at read
    rcases List.mem_append.1 read with read | read
    · obtain ⟨rfl, -⟩ := Registry.eq_of_fetch_mem_opening read
      exact apart.registeredAs here stored
    · exact absurd rfl (others _ read n cached)
  · have job : e.job.task = task := by
      have longer := history_subset (earlier ++ [m]) rest
      rw [List.append_assoc, List.singleton_append, ← split] at longer
      obtain ⟨t, ht, same⟩ := kept.owned e (longer (by rw [next]; simp))
      rw [own, ended] at ht
      cases ht
      exact (congrArg Job.task same).symm
    obtain rfl := stored_of_changed next stored changed
    subst split
    rw [job] at stored
    exact apart.registeredAs here stored

/-- What a read by subject was answered, the tables of that moment say. -/
lemma moment_of_lookup {caller : Nat} {call : StoreCall} {answer : call.Answer}
    (reads : call.isWrite = false)
    (asked : (⟨.store call, answer⟩ : Talk) ∈ (start.after moves).transcript caller) :
    ∃ earlier rest, moves = earlier ++ rest ∧
      ((start.after earlier).tables.answer call).1 = answer := by
  obtain ⟨⟨caller, job, talk⟩, he, rfl, rfl⟩ := mem_talksOf.1 asked
  obtain ⟨before, later, split⟩ := List.append_of_mem he
  obtain ⟨earlier, m, rest, rfl, -, told⟩ := exists_moment_of_call rfl split
  exact ⟨earlier, m :: rest, rfl, (MemoryStore.answer_read _ reads).symm.trans told⟩

/-- What the index leads to at any moment is bound to the subject of the name. -/
lemma NamesApart.subjects_of_bound (apart : (start.after (moves ++ rest)).NamesApart) {t : Thread}
    (ht : t ∈ (start.after (moves ++ rest)).threads) {a : Aggregate}
    (bound : (start.after moves).tables.bound? t.job.task.name.subjectKey = some a) :
    ∀ r ∈ a.ledger.records, r.subjects = [t.job.task.name.subjectRef] := by
  obtain ⟨full, stored, same⟩ := (indexed_after moves).bound? bound
  exact apart.subjects_eq ht stored same

/-- A job was to read the latest record of a subject, or all of them, and was answered with the
records. -/
def ShownRecords {B : Backend} (w : World B) (caller : Nat) (name : SchemaName)
    (views : List RecordView) : Prop :=
  ∃ r actor,
    (∃ view, views = [view] ∧
      w.threads[caller]? = some ⟨⟨r, actor, .getBySubject name⟩, .done (.ok view)⟩) ∨
    w.threads[caller]? = some ⟨⟨r, actor, .listBySubject name⟩, .done (.ok views)⟩

/-- **Names do not alias** where their keys tell them apart: a job that succeeds has read, changed
and removed nothing but the schema that was registered under the parts of its name, in the tenant
for which it was permitted, and a read by subject shows nothing but records of the subject. -/
theorem names_kept_apart (moves : List (Move MemoryStore.backend))
    (apart : (start.after moves).NamesApart) :
    (∀ caller task operation, task.operation? = some operation →
      (start.after moves).Succeeded caller task → ActsOn moves caller task.name operation) ∧
    ∀ caller name views, (start.after moves).ShownRecords caller name views →
      ∀ view ∈ views, view.subjects = [name.subjectRef] := by
  have kept : (start.after moves).Kept := kept_after _ moves
  refine ⟨fun caller task operation asks ended => apart.actsOn asks ended,
    fun caller name views shown view hview => ?_⟩
  obtain ⟨r, actor, ⟨view', rfl, ended⟩ | ended⟩ := shown
  · obtain ⟨-, record, talks, rfl⟩ := kept.mayEnd ended
    obtain ⟨earlier, rest, rfl, told⟩ := moment_of_lookup rfl
      (talks ▸ List.mem_cons_of_mem _ (List.mem_singleton_self _))
    obtain ⟨a, bound, member⟩ := Tables.mem_of_fetchRecord told
    obtain rfl := List.mem_singleton.1 hview
    exact apart.subjects_of_bound (List.mem_of_getElem? ended) bound record member
  · obtain ⟨-, records, -, talks, rfl⟩ := kept.mayEnd ended
    obtain ⟨earlier, rest, rfl, told⟩ := moment_of_lookup rfl
      (talks ▸ List.mem_cons_of_mem _ (List.mem_singleton_self _))
    obtain ⟨a, bound, rfl⟩ := Tables.eq_of_fetchRecords told
    obtain ⟨record, member, rfl⟩ := List.mem_map.1 hview
    exact apart.subjects_of_bound (List.mem_of_getElem? ended) bound record member

end World

/-- The schema of the rehearsal is registered, read as a whole and read by its subject. -/
def Rehearsal.looking : List (Move MemoryStore.backend) :=
  registering ++ alone 1 (.get orders) 2 ++ alone 2 (.listBySubject orders) 2

namespace World

open Rehearsal in
/-- Jobs on one name without slashes keep to the schema and to the records of this name. -/
theorem names_of_orders :
    (start.after looking).NamesApart ∧ ActsOn looking 1 orders .get ∧
      ∀ view ∈ registered.view.records, view.subjects = [orders.subjectRef] := by
  have apart : (start.after looking).NamesApart := by
    refine namesApart_of_plain fun t ht => ?_
    have same : ∀ t ∈ (start.after looking).threads, t.job.task.name = orders := by
      decide +kernel
    rw [same t ht]
    exact ⟨by decide, by decide⟩
  obtain ⟨own, shown⟩ := names_kept_apart looking apart
  exact ⟨apart, own 1 (.get orders) .get rfl ⟨registry, "ann", registered.view, rfl⟩,
    shown 2 orders registered.view.records ⟨registry, "ann", .inr rfl⟩⟩

end World

namespace Rehearsal

/-- A schema of a tenant with a slash in its name. -/
def ofBranch : SchemaName where
  tenant := "shop/eu"
  subject := "orders"
  schema := "Order"

/-- Another schema, with a slash in the name of its subject. -/
def ofShop : SchemaName where
  tenant := "shop"
  subject := "eu/orders"
  schema := "Order"

/-- The branch's schema after its registration. -/
def branchSchema : Aggregate :=
  .registered ofBranch registration 7 noon noon

/-- The branch registers its schema; the shop reads and removes one of its own that was never
registered. -/
def intruding : List (Move MemoryStore.backend) :=
  alone 0 (.register ofBranch registration) 6 ++ alone 1 (.get ofShop) 2 ++
    alone 2 (.listBySubject ofShop) 2 ++ alone 3 (.delete ofShop) 3

end Rehearsal

namespace World

open Rehearsal in
/-- A slash in a part of a name lets one name reach the schema of another one, though permission
was given for the other tenant. -/
theorem names_aliased :
    ofShop.check SchemaName.schemaParts = .ok () ∧ ofShop.tenant ≠ ofBranch.tenant ∧
    (start.after intruding).threads[1]? =
      some ⟨job (.get ofShop), .done (.ok branchSchema.view)⟩ ∧
    (start.after intruding).threads[2]? =
      some ⟨job (.listBySubject ofShop), .done (.ok branchSchema.view.records)⟩ ∧
    (start.after intruding).threads[3]? =
      some ⟨job (.delete ofShop), .done (.ok branchSchema.view)⟩ ∧
    (⟨.permit "ann" ofShop.tenant .delete, Except.ok ()⟩ : Talk) ∈
      (start.after intruding).transcript 3 ∧
    (start.after intruding).stored? ofBranch.fullName = none ∧
    branchSchema.info.tenant = ofBranch.tenant ∧
    (branchSchema.view.records.map (·.subjects) = [[ofBranch.subjectRef]] ∧
      ofBranch.subjectRef ≠ ofShop.subjectRef) :=
  ⟨rfl, by decide, rfl, rfl, rfl, List.mem_of_getElem? (i := 0) rfl, rfl, rfl, rfl, by decide⟩

end World

end SchemaLedger
