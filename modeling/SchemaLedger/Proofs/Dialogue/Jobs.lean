import SchemaLedger.Proofs.Dialogue.Rules
import SchemaLedger.Proofs.Ledger.Growth

/-!
The operations as jobs, and all that a job can do.

* `Task`, `Job`, `Job.program`: an operation with its arguments, asked of a registry by an
  actor.
* `Job.MayWrite`: the exchanges that a job can have had when it asks the store for a write,
  from the first to the last, and the write that it then asks for.  There is one case for
  each of the four operations that write.
* `Job.MayEnd`: the exchanges that a job can have had when it ends, and its result.  A job
  that fails has changed nothing.
* `Job.obeys`: every job keeps to both, whatever its collaborators answer.
-/

namespace SchemaLedger

/-- The write that an exchange has brought about, if it has. -/
def Exchange.effect? : Talk → Option StoreCall
  | ⟨.store call, answer⟩ =>
    if call.isWrite && (show Except StoreError call.Result from answer).isOk then some call
    else none
  | _ => none

/-- A call is a write that has succeeded, or it has brought nothing about. -/
lemma Exchange.effect?_cases (c : StoreCall) (x : c.Answer) :
    (Exchange.effect? ⟨.store c, x⟩ = none ∧ (c.isWrite = false ∨ ∃ e, x = .error e)) ∨
      (Exchange.effect? ⟨.store c, x⟩ = some c ∧ c.isWrite = true ∧ ∃ y, x = .ok y) := by
  cases writes : c.isWrite with
  | false => exact .inl ⟨by simp [Exchange.effect?, writes], .inl rfl⟩
  | true =>
    cases x with
    | error e =>
      exact .inl ⟨by simp [Exchange.effect?, Except.isOk, Except.toBool], .inr ⟨e, rfl⟩⟩
    | ok y =>
      exact .inr ⟨by simp [Exchange.effect?, writes, Except.isOk, Except.toBool], rfl, y, rfl⟩

/-- An operation of the registry with its arguments. -/
inductive Task where
  | register (name : SchemaName) (request : Registration)
  | update (name : SchemaName) (request : Change)
  | delete (name : SchemaName)
  | get (name : SchemaName)
  | getBySubject (name : SchemaName)
  | listBySubject (name : SchemaName)
  | compileArtifact (name : SchemaName)

/-- The name that a task is about. -/
def Task.name : Task → SchemaName
  | .register name _ => name
  | .update name _ => name
  | .delete name => name
  | .get name => name
  | .getBySubject name => name
  | .listBySubject name => name
  | .compileArtifact name => name

/-- The parts of its name that a task needs. -/
def Task.parts : Task → List NamePart
  | .getBySubject _ => SchemaName.subjectParts
  | .listBySubject _ => SchemaName.subjectParts
  | _ => SchemaName.schemaParts

/-- What a task gives when it succeeds. -/
def Task.Result : Task → Type
  | .register _ _ => Receipt
  | .update _ _ => Receipt
  | .delete _ => SchemaView
  | .get _ => SchemaView
  | .getBySubject _ => RecordView
  | .listBySubject _ => List RecordView
  | .compileArtifact _ => Artifact

/-- A task that an actor asks of a registry. -/
structure Job where
  registry : Registry
  actor : String
  task : Task

/-- The program of a job. -/
def Job.program : (j : Job) → Operating j.task.Result
  | ⟨r, actor, .register name request⟩ => r.register actor name request
  | ⟨r, actor, .update name request⟩ => r.update actor name request
  | ⟨r, actor, .delete name⟩ => r.delete actor name
  | ⟨r, actor, .get name⟩ => r.get actor name
  | ⟨r, actor, .getBySubject name⟩ => r.getBySubject actor name
  | ⟨r, actor, .listBySubject name⟩ => r.listBySubject actor name
  | ⟨r, actor, .compileArtifact name⟩ => r.compileArtifact actor name

/-- The schema that a registration makes, before an artifact is attached. -/
def Aggregate.registered (name : SchemaName) (request : Registration) (id : UInt64)
    (created started : Instant) : Aggregate :=
  .make name (.created request.owner request.description created)
    { tenant := name.tenant, schemaName := name.schema, owner := request.owner,
      family := request.family, policy := request.policy, uniqueId := id }
    (.start name id request.family request.idl started)

namespace Registry

/-- The exchanges with which an operation on a schema starts: it is permitted, and the store
tells what it has under the name. -/
def opening (r : Registry) (actor : String) (name : SchemaName) (operation : Operation)
    (found : Option Aggregate) : List Talk :=
  [⟨.permit actor name.tenant operation, Except.ok ()⟩,
    ⟨.store (.fetch name r.settings.cacheEnabled), Except.ok found⟩]

/-- The schema that a registry stores for another one: itself, or with the artifact that was
just compiled from it. -/
inductive Attaches (r : Registry) (a : Aggregate) : List Talk → Aggregate → Prop
  | skipped (off : r.settings.uploadEnabled = false ∨ r.settings.compileMode = .deferred) :
    Attaches r a [] a
  | compiled {d : Artifact} (on : r.settings.uploadEnabled = true)
    (mode : r.settings.compileMode ≠ .deferred) (bound : d.recordVersion = a.lastVersion) :
    Attaches r a [⟨.compile a, Except.ok d⟩] (a.withArtifact d)

namespace Attaches

variable {r : Registry} {a a' : Aggregate} {compiling : List Talk}

/-- The artifact is all that changes. -/
lemma bare_eq (h : r.Attaches a compiling a') : a'.bare = a.bare := by
  cases h <;> rfl

/-- Compiling changes nothing that is stored. -/
lemma effect?_eq_none (h : r.Attaches a compiling a') : ∀ x ∈ compiling, x.effect? = none := by
  cases h <;> simp [Exchange.effect?]

end Attaches

end Registry

namespace Job

/-- What a job has exchanged when it asks for a write, and the write. -/
inductive MayWrite : Job → List Talk → StoreCall → Prop
  | register {r : Registry} {actor : String} {name : SchemaName} {request : Registration}
    {id : UInt64} {created started : Instant} {compiling : List Talk} {a : Aggregate}
    (valid : name.check SchemaName.schemaParts = .ok ())
    (attached : r.Attaches (.registered name request id created started) compiling a) :
    MayWrite ⟨r, actor, .register name request⟩
      (r.opening actor name .register none ++
        [⟨.drawId, id⟩, ⟨.readClock, created⟩, ⟨.readClock, started⟩] ++ compiling)
      (.register name a)
  | update {r : Registry} {actor : String} {name : SchemaName} {request : Change}
    {current candidate : Aggregate} {modified started : Instant} {compiling : List Talk}
    {a : Aggregate} (valid : name.check SchemaName.schemaParts = .ok ())
    (next : current.next? name request.owner request.idl modified started = some candidate)
    (attached : r.Attaches candidate compiling a) :
    MayWrite ⟨r, actor, .update name request⟩
      (r.opening actor name .update (some current) ++
        [⟨.readClock, modified⟩, ⟨.readClock, started⟩,
          ⟨.judge candidate current current.info.policy, Except.ok ()⟩] ++ compiling)
      (.replace name a current.revision)
  | delete {r : Registry} {actor : String} {name : SchemaName} {current : Aggregate}
    (valid : name.check SchemaName.schemaParts = .ok ()) :
    MayWrite ⟨r, actor, .delete name⟩ (r.opening actor name .delete (some current))
      (.remove name current.revision)
  | attach {r : Registry} {actor : String} {name : SchemaName} {current : Aggregate}
    {d : Artifact} (valid : name.check SchemaName.schemaParts = .ok ())
    (on : r.settings.uploadEnabled = true) (missing : current.currentArtifact = none)
    (bound : d.recordVersion = current.lastVersion) :
    MayWrite ⟨r, actor, .compileArtifact name⟩
      (r.opening actor name .update (some current) ++ [⟨.compile current, Except.ok d⟩])
      (.replace name (current.withArtifact d) current.revision)

/-- What a job may ask: anything that changes nothing, and the write at its place. -/
def MayAsk (j : Job) (past : List Talk) (q : Request) : Prop :=
  ∀ call, q = .store call → call.isWrite = true → j.MayWrite past call

/-- What a job has exchanged when it ends, and its result. -/
def MayEnd : (j : Job) → List Talk → Except Failure j.task.Result → Prop
  | _, past, .error _ => ∀ x ∈ past, x.effect? = none
  | ⟨r, actor, .register name request⟩, past, .ok receipt =>
    ∃ before a, MayWrite ⟨r, actor, .register name request⟩ before (.register name a) ∧
      past = before ++ [⟨.store (.register name a), Except.ok ()⟩] ∧
      receipt = (⟨a.info.uniqueId, a.lastVersion⟩ : Receipt)
  | ⟨r, actor, .update name request⟩, past, .ok receipt =>
    ∃ before a expected, MayWrite ⟨r, actor, .update name request⟩ before
        (.replace name a expected) ∧
      past = before ++ [⟨.store (.replace name a expected), Except.ok ()⟩] ∧
      receipt = (⟨a.info.uniqueId, a.lastVersion⟩ : Receipt)
  | ⟨r, actor, .delete name⟩, past, .ok view =>
    name.check SchemaName.schemaParts = .ok () ∧
    ∃ current, past = r.opening actor name .delete (some current) ++
        [⟨.store (.remove name current.revision), Except.ok ()⟩] ∧
      view = current.view
  | ⟨r, actor, .get name⟩, past, .ok view =>
    name.check SchemaName.schemaParts = .ok () ∧
    ∃ current, past = r.opening actor name .get (some current) ∧ view = current.view
  | ⟨r, actor, .getBySubject name⟩, past, .ok view =>
    name.check SchemaName.subjectParts = .ok () ∧
    ∃ record : Record, past =
        [⟨.permit actor name.subject .get, Except.ok ()⟩,
          ⟨.store (.fetchRecord name r.settings.cacheEnabled), Except.ok (some record)⟩] ∧
      view = record.view
  | ⟨r, actor, .listBySubject name⟩, past, .ok views =>
    name.check SchemaName.subjectParts = .ok () ∧
    ∃ records : List Record, records ≠ [] ∧ past =
        [⟨.permit actor name.subject .get, Except.ok ()⟩,
          ⟨.store (.fetchRecords name r.settings.cacheEnabled), Except.ok (some records)⟩] ∧
      views = records.map Record.view
  | ⟨r, actor, .compileArtifact name⟩, past, .ok d =>
    name.check SchemaName.schemaParts = .ok () ∧ r.settings.uploadEnabled = true ∧
    ∃ current : Aggregate,
      (past = r.opening actor name .update (some current) ∧ current.currentArtifact = some d) ∨
      (current.currentArtifact = none ∧ d.recordVersion = current.lastVersion ∧
        past = r.opening actor name .update (some current) ++
          [⟨.compile current, Except.ok d⟩,
            ⟨.store (.replace name (current.withArtifact d) current.revision), Except.ok ()⟩])

/-- A job may ask whatever is no write. -/
lemma mayAsk_of_not_write {j : Job} {past : List Talk} {q : Request}
    (h : ∀ call, q = .store call → call.isWrite = false) : j.MayAsk past q := by
  intro call hq hw
  rw [h call hq] at hw
  cases hw

end Job

namespace Registry

variable {r : Registry} {actor : String} {name : SchemaName} {β : Type}

lemma fetch_mem_opening {operation : Operation} {found : Option Aggregate} :
    ⟨.store (.fetch name r.settings.cacheEnabled), Except.ok found⟩ ∈
      r.opening actor name operation found := by
  simp [opening]

/-- An operation starts with one read. -/
lemma eq_of_fetch_mem_opening {actor : String} {name name' : SchemaName}
    {operation : Operation} {cached : Bool} {found found' : Option Aggregate}
    (h : (⟨.store (.fetch name cached), Except.ok found⟩ : Talk) ∈
      r.opening actor name' operation found') : name = name' ∧ found = found' := by
  rcases List.mem_cons.1 h with h | h
  · cases h
  · injection List.mem_singleton.1 h with question answer
    cases question
    exact ⟨rfl, Except.ok.inj answer⟩

lemma effect?_opening {operation : Operation} {found : Option Aggregate} :
    ∀ x ∈ r.opening actor name operation found, x.effect? = none := by
  simp [opening, Exchange.effect?, StoreCall.isWrite]

end Registry

namespace Job

/-- Up to its write a job has changed nothing. -/
lemma MayWrite.effect?_eq_none {j : Job} {past : List Talk} {call : StoreCall}
    (h : j.MayWrite past call) : ∀ x ∈ past, x.effect? = none := by
  cases h with
  | register valid attached =>
    refine List.forall_mem_append.2 ⟨?_, attached.effect?_eq_none⟩
    exact List.forall_mem_append.2 ⟨Registry.effect?_opening, by simp [Exchange.effect?]⟩
  | update valid next attached =>
    refine List.forall_mem_append.2 ⟨?_, attached.effect?_eq_none⟩
    exact List.forall_mem_append.2 ⟨Registry.effect?_opening, by simp [Exchange.effect?]⟩
  | delete valid => exact Registry.effect?_opening
  | attach valid on missing bound =>
    exact List.forall_mem_append.2 ⟨Registry.effect?_opening, by simp [Exchange.effect?]⟩

/-- A job writes under its own name. -/
lemma MayWrite.name_eq {j : Job} {past : List Talk} {call : StoreCall} (h : j.MayWrite past call) :
    call.name = j.task.name := by
  cases h <;> rfl

/-- A job writes under a valid name. -/
lemma MayWrite.valid {j : Job} {past : List Talk} {call : StoreCall} (h : j.MayWrite past call) :
    call.name.check SchemaName.schemaParts = .ok () := by
  cases h with
  | register valid | update valid | delete valid | attach valid => exact valid

/-- A job that replaces a schema has read one with the revision that it expects.  Either it is an
update, which has added its text to what it read and has had the new version accepted under the
policy of what it read; or it has added no version. -/
lemma MayWrite.replace_cases {j : Job} {past : List Talk} {name : SchemaName} {a : Aggregate}
    {expected : Revision} (h : j.MayWrite past (.replace name a expected)) :
    ∃ current cached, (⟨.store (.fetch name cached), Except.ok (some current)⟩ : Talk) ∈ past ∧
      current.revision = expected ∧
      ((∃ r actor request candidate record, j = ⟨r, actor, .update name request⟩ ∧
        (⟨.judge candidate current current.info.policy, Except.ok ()⟩ : Talk) ∈ past ∧
        candidate.ledger = a.ledger ∧ a.ledger.records = current.ledger.records ++ [record] ∧
        record.idl = request.idl) ∨
      ∃ r actor, j = ⟨r, actor, .compileArtifact name⟩ ∧ a.ledger = current.ledger) := by
  cases h with
  | @update r actor _ request current candidate _ _ _ _ valid next attached =>
    have ledger := Aggregate.ledger_eq_of_bare attached.bare_eq
    obtain ⟨last, -, rfl⟩ := Aggregate.next?_eq_some_iff.1 next
    refine ⟨current, _,
      List.mem_append_left _ (List.mem_append_left _ Registry.fetch_mem_opening), rfl,
      .inl ⟨r, actor, request, _, _, rfl, ?_, ledger.symm, by rw [ledger], rfl⟩⟩
    exact List.mem_append_left _ (List.mem_append_right _ (by simp))
  | @attach r actor _ current d valid on missing bound =>
    exact ⟨current, _, List.mem_append_left _ Registry.fetch_mem_opening, rfl,
      .inr ⟨r, actor, rfl, rfl⟩⟩

/-- A write that failed leaves a job that has changed nothing. -/
lemma MayWrite.mayEnd_error {j : Job} {past : List Talk} {call : StoreCall}
    (h : j.MayWrite past call) (e : StoreError) (e' : Failure) :
    j.MayEnd (past ++ [⟨.store call, Except.error e⟩]) (.error e') := by
  exact List.forall_mem_append.2
    ⟨h.effect?_eq_none, by simp [Exchange.effect?, Except.isOk, Except.toBool]⟩

end Job

/-! ### Every job keeps to its part -/

namespace Registry

open Operating Job

variable {r : Registry} {actor : String} {name : SchemaName} {β : Type}

/-- A registry attaches an artifact or leaves the schema as it is; if it fails, nothing has
changed. -/
lemma obeys_attach_bind {mayAsk : List Talk → Request → Prop}
    {mayEnd : List Talk → Except Failure β → Prop} {past : List Talk} {a : Aggregate}
    {f : Aggregate → Operating β} (allowed : mayAsk past (.compile a))
    (attached : ∀ compiling a', r.Attaches a compiling a' →
      Obeys mayAsk mayEnd (f a') (past ++ compiling))
    (failed : ∀ compiling e, (∀ x ∈ compiling, x.effect? = none) →
      mayEnd (past ++ compiling) (.error e)) :
    Obeys mayAsk mayEnd (r.attach a >>= f) past := by
  refine obeys_bind ?_
  simp only [Registry.attach]
  split
  · rename_i off
    refine ⟨fun a' h => ?_, fun e h => nomatch h⟩
    cases h
    simpa using attached [] a (.skipped (by simpa using off))
  · rename_i on
    refine obeys_compile_bind allowed (fun d bound => ⟨fun a' h => ?_, fun e h => nomatch h⟩)
      ⟨fun _ h => (nomatch h), fun e h => ?_⟩ fun x e => ⟨fun _ h => (nomatch h), fun e' h => ?_⟩
    · cases h
      simp only [Bool.or_eq_true, Bool.not_eq_true', decide_eq_true_eq, not_or] at on
      exact attached _ _ (.compiled (by simpa using on.1) on.2 bound)
    · cases h
      simpa using failed [] _ (by simp)
    · cases h
      exact failed _ _ (by simp [Exchange.effect?])

lemma obeys_register (request : Registration) :
    Obeys (MayAsk ⟨r, actor, .register name request⟩)
      (MayEnd ⟨r, actor, .register name request⟩) (r.register actor name request) [] := by
  refine obeys_lift_bind (fun _ valid => ?_) fun e h => by simp [MayEnd]
  refine obeys_authorize_bind (mayAsk_of_not_write (by simp)) ?_
    fun d => by simp [MayEnd, Exchange.effect?]
  refine obeys_consult_bind (mayAsk_of_not_write (by simp [StoreCall.isWrite])) (fun found => ?_)
    fun e => by simp [MayEnd, Exchange.effect?, StoreCall.isWrite]
  cases found with
  | some a => exact obeys_throw (by simp [MayEnd, Exchange.effect?, StoreCall.isWrite])
  | none =>
    refine obeys_ask_bind (mayAsk_of_not_write (by simp)) fun id => ?_
    refine obeys_ask_bind (mayAsk_of_not_write (by simp)) fun created => ?_
    refine obeys_ask_bind (mayAsk_of_not_write (by simp)) fun started => ?_
    refine obeys_attach_bind (mayAsk_of_not_write (by simp)) (fun compiling a attached => ?_)
      fun compiling e quiet => ?_
    · have writes : MayWrite ⟨r, actor, .register name request⟩
          (r.opening actor name .register none ++
            [⟨.drawId, id⟩, ⟨.readClock, created⟩, ⟨.readClock, started⟩] ++ compiling)
          (.register name a) := .register valid attached
      have same : a.info.uniqueId = id := by rw [Aggregate.info_eq_of_bare attached.bare_eq]; rfl
      refine obeys_consult_bind (fun call h _ => by cases h; exact writes) (fun _ => ?_)
        fun e => writes.mayEnd_error e _
      exact obeys_pure ⟨_, a, writes, rfl, by rw [same]⟩
    · exact List.forall_mem_append.2
        ⟨by simp [Exchange.effect?, StoreCall.isWrite], quiet⟩

lemma obeys_update (request : Change) :
    Obeys (MayAsk ⟨r, actor, .update name request⟩) (MayEnd ⟨r, actor, .update name request⟩)
      (r.update actor name request) [] := by
  refine obeys_lift_bind (fun _ valid => ?_) fun e h => by simp [MayEnd]
  refine obeys_authorize_bind (mayAsk_of_not_write (by simp)) ?_
    fun d => by simp [MayEnd, Exchange.effect?]
  refine obeys_load_bind (mayAsk_of_not_write (by simp [StoreCall.isWrite])) (fun current => ?_)
    (by simp [MayEnd, Exchange.effect?, StoreCall.isWrite])
    fun e => by simp [MayEnd, Exchange.effect?, StoreCall.isWrite]
  refine obeys_ask_bind (mayAsk_of_not_write (by simp)) fun modified => ?_
  refine obeys_ask_bind (mayAsk_of_not_write (by simp)) fun started => ?_
  refine obeys_lift_bind (fun candidate next => ?_)
    fun e h => by simp [MayEnd, Exchange.effect?, StoreCall.isWrite]
  refine obeys_ask_bind (mayAsk_of_not_write (by simp)) fun verdict => ?_
  refine obeys_lift_bind (fun _ accepted => ?_)
    fun e h => by simp [MayEnd, Exchange.effect?, StoreCall.isWrite]
  refine obeys_attach_bind (mayAsk_of_not_write (by simp)) (fun compiling a attached => ?_)
    fun compiling e quiet => ?_
  · have next : current.next? name request.owner request.idl modified started
        = some candidate := by
      split at next
      · cases next
        assumption
      · cases next
    cases accepted
    have writes : MayWrite ⟨r, actor, .update name request⟩
        (r.opening actor name .update (some current) ++
          [⟨.readClock, modified⟩, ⟨.readClock, started⟩,
            ⟨.judge candidate current current.info.policy, Except.ok ()⟩] ++ compiling)
        (.replace name a current.revision) := .update valid next attached
    refine obeys_consult_bind (fun call h _ => by cases h; exact writes) (fun _ => ?_)
      fun e => writes.mayEnd_error e _
    exact obeys_pure ⟨_, a, _, writes, rfl, rfl⟩
  · exact List.forall_mem_append.2 ⟨by simp [Exchange.effect?, StoreCall.isWrite], quiet⟩

lemma obeys_delete :
    Obeys (MayAsk ⟨r, actor, .delete name⟩) (MayEnd ⟨r, actor, .delete name⟩)
      (r.delete actor name) [] := by
  refine obeys_lift_bind (fun _ valid => ?_) fun e h => by simp [MayEnd]
  refine obeys_authorize_bind (mayAsk_of_not_write (by simp)) ?_
    fun d => by simp [MayEnd, Exchange.effect?]
  refine obeys_load_bind (mayAsk_of_not_write (by simp [StoreCall.isWrite])) (fun current => ?_)
    (by simp [MayEnd, Exchange.effect?, StoreCall.isWrite])
    fun e => by simp [MayEnd, Exchange.effect?, StoreCall.isWrite]
  have writes : MayWrite ⟨r, actor, .delete name⟩ (r.opening actor name .delete (some current))
      (.remove name current.revision) := .delete valid
  refine obeys_consult_bind (fun call h _ => by cases h; exact writes) (fun _ => ?_)
    fun e => writes.mayEnd_error e _
  exact obeys_pure ⟨valid, current, rfl, rfl⟩

lemma obeys_get :
    Obeys (MayAsk ⟨r, actor, .get name⟩) (MayEnd ⟨r, actor, .get name⟩) (r.get actor name) [] := by
  refine obeys_lift_bind (fun _ valid => ?_) fun e h => by simp [MayEnd]
  refine obeys_authorize_bind (mayAsk_of_not_write (by simp)) ?_
    fun d => by simp [MayEnd, Exchange.effect?]
  refine obeys_load_bind (mayAsk_of_not_write (by simp [StoreCall.isWrite])) (fun current => ?_)
    (by simp [MayEnd, Exchange.effect?, StoreCall.isWrite])
    fun e => by simp [MayEnd, Exchange.effect?, StoreCall.isWrite]
  exact obeys_pure ⟨valid, current, rfl, rfl⟩

lemma obeys_getBySubject :
    Obeys (MayAsk ⟨r, actor, .getBySubject name⟩) (MayEnd ⟨r, actor, .getBySubject name⟩)
      (r.getBySubject actor name) [] := by
  refine obeys_lift_bind (fun _ valid => ?_) fun e h => by simp [MayEnd]
  refine obeys_authorize_bind (mayAsk_of_not_write (by simp)) ?_
    fun d => by simp [MayEnd, Exchange.effect?]
  refine obeys_consult_bind (mayAsk_of_not_write (by simp [StoreCall.isWrite])) (fun found => ?_)
    fun e => by simp [MayEnd, Exchange.effect?, StoreCall.isWrite]
  cases found with
  | some record => exact obeys_pure ⟨valid, record, rfl, rfl⟩
  | none => exact obeys_throw (by simp [MayEnd, Exchange.effect?, StoreCall.isWrite])

lemma obeys_listBySubject :
    Obeys (MayAsk ⟨r, actor, .listBySubject name⟩) (MayEnd ⟨r, actor, .listBySubject name⟩)
      (r.listBySubject actor name) [] := by
  refine obeys_lift_bind (fun _ valid => ?_) fun e h => by simp [MayEnd]
  refine obeys_authorize_bind (mayAsk_of_not_write (by simp)) ?_
    fun d => by simp [MayEnd, Exchange.effect?]
  refine obeys_consult_bind (mayAsk_of_not_write (by simp [StoreCall.isWrite])) (fun found => ?_)
    fun e => by simp [MayEnd, Exchange.effect?, StoreCall.isWrite]
  match found with
  | some (record :: records) => exact obeys_pure ⟨valid, _, List.cons_ne_nil _ _, rfl, rfl⟩
  | some [] => exact obeys_throw (by simp [MayEnd, Exchange.effect?, StoreCall.isWrite])
  | none => exact obeys_throw (by simp [MayEnd, Exchange.effect?, StoreCall.isWrite])

lemma obeys_compileArtifact :
    Obeys (MayAsk ⟨r, actor, .compileArtifact name⟩) (MayEnd ⟨r, actor, .compileArtifact name⟩)
      (r.compileArtifact actor name) [] := by
  refine obeys_lift_bind (fun _ valid => ?_) fun e h => by simp [MayEnd]
  refine obeys_authorize_bind (mayAsk_of_not_write (by simp)) ?_
    fun d => by simp [MayEnd, Exchange.effect?]
  dsimp only
  split
  · rename_i on
    refine obeys_load_bind (mayAsk_of_not_write (by simp [StoreCall.isWrite]))
      (fun current => ?_) (by simp [MayEnd, Exchange.effect?, StoreCall.isWrite])
      fun e => by simp [MayEnd, Exchange.effect?, StoreCall.isWrite]
    split
    · rename_i d found
      exact obeys_pure ⟨valid, on, current, .inl ⟨rfl, found⟩⟩
    · rename_i missing
      refine obeys_compile_bind (mayAsk_of_not_write (by simp)) (fun d bound => ?_)
        (by simp [MayEnd, Exchange.effect?, StoreCall.isWrite])
        fun x e => by simp [MayEnd, Exchange.effect?, StoreCall.isWrite]
      have writes : MayWrite ⟨r, actor, .compileArtifact name⟩
          (r.opening actor name .update (some current) ++ [⟨.compile current, Except.ok d⟩])
          (.replace name (current.withArtifact d) current.revision) :=
        .attach valid on missing bound
      refine obeys_consult_bind (fun call h _ => by cases h; exact writes) (fun _ => ?_)
        fun e => writes.mayEnd_error e _
      exact obeys_pure ⟨valid, on, current, .inr ⟨missing, bound, rfl⟩⟩
  · exact obeys_throw (by simp [MayEnd, Exchange.effect?])

end Registry

/-- **Every job keeps to its part**: whatever its collaborators answer, it asks for at most the
write that `Job.MayWrite` names, at its place, and ends as `Job.MayEnd` says. -/
theorem Job.obeys (j : Job) : Operating.Obeys j.MayAsk j.MayEnd j.program [] := by
  obtain ⟨r, actor, task⟩ := j
  cases task with
  | register name request => exact Registry.obeys_register request
  | update name request => exact Registry.obeys_update request
  | delete name => exact Registry.obeys_delete
  | get name => exact Registry.obeys_get
  | getBySubject name => exact Registry.obeys_getBySubject
  | listBySubject name => exact Registry.obeys_listBySubject
  | compileArtifact name => exact Registry.obeys_compileArtifact

end SchemaLedger
