import SchemaLedger.Proofs.Concurrency.Runs

/-!
Registrations that compete for one subject.

Every one of them reads first and writes later, and what it reads is looked up under its full name
only.  So several can find nothing; the write decides, because it looks at the full name and at the
subject at once.

* `Failure.ForRegistration`: why a registration fails.  There are no other reasons
  (`Registry.register_failsFor`).
* `World.Standing`: the state of the contest.  It is open, or it is won by one event, once and for
  all.  Every step keeps to this (`World.Standing.step`).
* `World.Standing.wins_of_taken`: a registration that finds its place taken has lost to the winner.
* `World.one_registration_wins`: of all registrations that compete, when all have answered, one has
  succeeded and all others were told that its full name, or the subject, exists.
-/

namespace SchemaLedger

/-! ### Why a registration fails -/

/-- Access control, the compiler, the backend or the name itself stands against the operation. -/
def Failure.isRefusal : Failure → Bool
  | .denied _ => true
  | .compile _ => true
  | .misbound _ _ => true
  | .uploadUnavailable => true
  | .blankPart _ _ => true
  | .store (.backend _) => true
  | _ => false

/-- Why a registration under a name fails, after the exchanges before it. -/
inductive Failure.ForRegistration (name : SchemaName) (past : List Talk) : Failure → Prop
  | refused {e : Failure} (refusal : e.isRefusal = true) : ForRegistration name past e
  | found {cached : Bool} {a : Aggregate}
    (read : (⟨.store (.fetch name cached), Except.ok (some a)⟩ : Talk) ∈ past) :
    ForRegistration name past (.alreadyExists name.fullName)
  | unread {cached : Bool} {e : StoreError}
    (failed : (⟨.store (.fetch name cached), Except.error e⟩ : Talk) ∈ past) :
    ForRegistration name past (.ofStore e)
  | unstored {a : Aggregate} {e : StoreError}
    (failed : (⟨.store (.register name a), Except.error e⟩ : Talk) ∈ past) :
    ForRegistration name past (.ofStore e)

/-- Whatever is answered, the operation fails for such reasons only. -/
def Operating.FailsFor {α : Type} (reason : List Talk → Failure → Prop) (x : Operating α)
    (past : List Talk) : Prop :=
  Obeys (fun _ _ => True) (fun past result => ∀ e, result = .error e → reason past e) x past

/-- What has a result does not fail. -/
lemma Operating.failsFor_pure {α : Type} {reason : List Talk → Failure → Prop} {a : α}
    {past : List Talk} : FailsFor reason (pure a) past := by
  refine obeys_pure fun e failed => ?_
  cases failed

namespace Registry

open Operating

variable {r : Registry} {past : List Talk}

/-- Nothing but a refusal keeps a registry from compiling. -/
lemma compile_failsFor (a : Aggregate) :
    FailsFor (fun _ e => e.isRefusal = true) (r.compile a) past := by
  rw [Registry.compile]
  split
  · refine obeys_ask_bind trivial fun x => obeys_lift_bind (fun d _ => ?_) fun e _ _ failed => ?_
    · split
      · exact failsFor_pure
      · refine obeys_throw fun _ failed => ?_
        cases failed
        rfl
    · cases failed
      rfl
  · refine obeys_throw fun _ failed => ?_
    cases failed
    rfl

/-- Nothing but a refusal keeps a registry from attaching an artifact. -/
lemma attach_failsFor (a : Aggregate) :
    FailsFor (fun _ e => e.isRefusal = true) (r.attach a) past := by
  rw [Registry.attach]
  split
  · exact failsFor_pure
  · refine obeys_bind (Program.Obeys.mono (fun past result refusal => ?_) (compile_failsFor a))
    refine ⟨fun d _ => failsFor_pure, fun e failed e' same => ?_⟩
    cases same
    exact refusal e failed

/-- **If a registration fails, there is a reason.** -/
lemma register_failsFor (actor : String) (name : SchemaName) (request : Registration) :
    FailsFor (fun past e => e.ForRegistration name past) (r.register actor name request) [] := by
  refine obeys_lift_bind (fun _ _ => ?_) fun e refused _ failed => ?_
  · refine obeys_authorize_bind trivial ?_ fun d _ failed => ?_
    · refine obeys_consult_bind trivial (fun found => ?_) fun e _ failed => ?_
      · cases found with
        | some a =>
          refine obeys_throw fun _ failed => ?_
          cases failed
          exact .found (List.mem_append_right _ (List.mem_singleton_self _))
        | none =>
          refine obeys_ask_bind trivial fun id => obeys_ask_bind trivial fun created => ?_
          refine obeys_ask_bind trivial fun started => obeys_bind ?_
          refine Program.Obeys.mono (fun past result refusal => ⟨fun a _ => ?_, ?_⟩)
            (attach_failsFor _)
          · refine obeys_consult_bind trivial (fun _ => ?_) fun e _ failed => ?_
            · exact failsFor_pure
            · cases failed
              exact .unstored (List.mem_append_right _ (List.mem_singleton_self _))
          · rintro e failed _ same
            cases same
            exact .refused (refusal e failed)
      · cases failed
        exact .unread (List.mem_append_right _ (List.mem_singleton_self _))
    · cases failed
      exact .refused rfl
  · cases failed
    rw [SchemaName.check] at refused
    split at refused
    · cases refused
      exact .refused rfl
    · cases refused

/-- So it is with the registrations among all jobs. -/
lemma program_failsFor (j : Job) :
    FailsFor (fun past e => ∀ name request, j.task = .register name request →
      e.ForRegistration name past) j.program [] := by
  obtain ⟨r, actor, task⟩ := j
  cases task with
  | register name request =>
    refine Program.Obeys.mono (fun past result reason e failed name' request' same => ?_)
      (register_failsFor actor name request)
    cases same
    exact reason e failed
  | update | delete | get | getBySubject | listBySubject | compileArtifact =>
    refine Program.obeys_of_forall (fun _ _ => trivial) (fun _ _ _ _ _ _ other => ?_) _ _
    cases other

end Registry

/-! ### The state of a contest -/

/-- The job is a registration for the subject. -/
def Job.Claims (j : Job) (key : String) : Prop :=
  ∃ name request, j.task = .register name request ∧ name.subjectKey = key

/-- A job that writes while it claims a subject registers a schema for it. -/
lemma Job.MayWrite.register_of_claims {j : Job} {past : List Talk} {call : StoreCall} {key : String}
    (may : j.MayWrite past call) (claims : j.Claims key) :
    ∃ name request a, j.task = .register name request ∧ name.subjectKey = key ∧
      call = .register name a := by
  obtain ⟨name, request, task, subject⟩ := claims
  cases may with
  | @register _ _ _ _ _ _ _ _ a valid attached =>
    cases task
    exact ⟨name, request, a, rfl, subject, rfl⟩
  | update | delete | attach => cases task

/-- A schema is registered for a subject by a job that claims it. -/
lemma Job.MayWrite.claims_of_register {j : Job} {past : List Talk} {name : SchemaName}
    {a : Aggregate} (may : j.MayWrite past (.register name a)) : j.Claims name.subjectKey := by
  cases may with
  | @register _ _ _ request => exact ⟨name, request, rfl, rfl⟩

/-- A registration that succeeds has found its subject free, and has bound it. -/
lemma Tables.Performs.registered {t t' : Tables} {name : SchemaName} {a : Aggregate}
    (performs : t.Performs (.register name a) t') :
    t.subjects.get? name.subjectKey = none ∧
      t'.subjects.get? name.subjectKey = some name.fullName ∧ t.register name a = .ok t' := by
  cases performs with
  | register free unbound =>
    exact ⟨unbound, (Dictionary.get?_insert ..).trans (if_pos rfl),
      by simp [Tables.register, Dictionary.contains, free, unbound]⟩

namespace World

variable {m : MemoryStore} {key : String} {names : Set String}
  {w w' : World MemoryStore.backend}

/-- Whoever writes under one of the full names claims the subject, and conversely. -/
def Undisturbed (key : String) (names : Set String) (w : World MemoryStore.backend) : Prop :=
  ∀ t ∈ w.threads, (t.job.Claims key → t.job.task.name.fullName ∈ names) ∧
    (t.job.task.name.fullName ∈ names → t.job.task.isRead = true ∨ t.job.Claims key)

/-- It was so before. -/
lemma Undisturbed.earlier (h : w'.Undisturbed key names) (run : w.Reaches w') :
    w.Undisturbed key names := by
  intro t started
  obtain ⟨t', later, same⟩ := run.exists_thread started
  exact same ▸ h t' later

/-- Where the contest stands: nobody has the subject yet, or one registration has won it and all
other full names stay free. -/
inductive Standing (m : MemoryStore) (key : String) (names : Set String)
    (w : World MemoryStore.backend) : Prop
  | undecided (idle : ∀ e ∈ w.history, e.job.Claims key → e.talk.effect? = none)
    (free : ∀ full ∈ names, w.stored? full = none) (unbound : w.tables.subjects.get? key = none)
    (exact : (∀ e ∈ w.history, e.talk.effect? ≠ none → e.job.Claims key) → w.tables = m.tables)
  | won {e : Event} {name : SchemaName} {a : Aggregate} (member : e ∈ w.history)
    (claims : e.job.Claims key) (contested : name.fullName ∈ names)
    (wins : e.talk.effect? = some (.register name a))
    (only : ∀ e' ∈ w.history, e'.job.Claims key → e'.talk.effect? ≠ none → e' = e)
    (stored : w.stored? name.fullName = some a)
    (free : ∀ full ∈ names, full ≠ name.fullName → w.stored? full = none)
    (bound : w.tables.subjects.get? key = some name.fullName)
    (exact : (∀ e ∈ w.history, e.talk.effect? ≠ none → e.job.Claims key) →
      m.tables.register name a = .ok w.tables)

/-- A step that completes no write leaves everything as it stands. -/
lemma Standing.idle (h : Standing m key names w) {more : List Event}
    (history : w'.history = w.history ++ more) (quiet : ∀ e ∈ more, e.talk.effect? = none)
    (tables : w'.tables = w.tables) : Standing m key names w' := by
  have before {P : Event → Prop} (all : ∀ e ∈ w'.history, P e) : ∀ e ∈ w.history, P e :=
    fun e he => all e (history ▸ List.mem_append_left _ he)
  have stored (full : String) : w'.stored? full = w.stored? full :=
    congrArg (·.schemas.get? full) tables
  cases h with
  | undecided idle free unbound exact =>
    refine .undecided (fun e he claims => ?_) (fun full contested => ?_) (tables ▸ unbound)
      fun only => tables.trans (exact (before only))
    · rcases List.mem_append.1 (history ▸ he) with old | new
      · exact idle e old claims
      · exact quiet e new
    · exact (stored full).trans (free full contested)
  | @won e name a member claims contested wins only here free bound exact =>
    refine .won (history ▸ List.mem_append_left _ member) claims contested wins
      (fun e' he' claims' done => ?_) ((stored _).trans here) (fun full contested other => ?_)
      (tables ▸ bound) fun only => tables ▸ exact (before only)
    · rcases List.mem_append.1 (history ▸ he') with old | new
      · exact only e' old claims' done
      · exact absurd (quiet e' new) done
    · exact (stored full).trans (free full contested other)

/-- A write under another name leaves the contest as it stands. -/
lemma Standing.foreign {e : Event} {call : StoreCall} (h : Standing m key names w)
    (history : w'.history = w.history ++ [e]) (effect : e.talk.effect? = some call)
    (may : e.job.MayWrite (w.transcript e.caller) call)
    (performs : w.tables.Performs call w'.tables) (unique : w.tables.subjects.HasUniqueKeys)
    (foreign : ¬ e.job.Claims key) (outside : call.name.fullName ∉ names) :
    Standing m key names w' := by
  have stored (full : String) (contested : full ∈ names) : w'.stored? full = w.stored? full :=
    performs.get?_of_ne fun same => outside (same ▸ contested)
  have inside : e ∈ w'.history := history ▸ List.mem_append_right _ (List.mem_singleton_self e)
  have refuted {P : Prop} (only : ∀ e ∈ w'.history, e.talk.effect? ≠ none → e.job.Claims key) : P :=
    absurd (only e inside (effect ▸ Option.some_ne_none call)) foreign
  have bound := performs.subject_cases unique key
  have other (name : SchemaName) (a : Aggregate) (registers : call = .register name a) :
      name.subjectKey ≠ key := by
    subst registers
    rintro rfl
    exact foreign may.claims_of_register
  cases h with
  | undecided idle free unbound exact =>
    refine .undecided (fun e' he' claims => ?_) (fun full contested => ?_) ?_ refuted
    · rcases List.mem_append.1 (history ▸ he') with old | new
      · exact idle e' old claims
      · exact absurd (List.mem_singleton.1 new ▸ claims) foreign
    · exact (stored full contested).trans (free full contested)
    · rcases bound with same | ⟨name, a, registers, subject, -⟩ | ⟨name, expected, -, leads⟩
      · exact same.trans unbound
      · exact absurd subject (other name a registers)
      · cases unbound.symm.trans leads
  | @won e₀ name₀ a₀ member claims contested wins only here free leads exact =>
    refine .won (history ▸ List.mem_append_left _ member) claims contested wins
      (fun e' he' claims' done => ?_) ((stored _ contested).trans here)
      (fun full contested apart => ?_) ?_ refuted
    · rcases List.mem_append.1 (history ▸ he') with old | new
      · exact only e' old claims' done
      · exact absurd (List.mem_singleton.1 new ▸ claims') foreign
    · exact (stored full contested).trans (free full contested apart)
    · rcases bound with same | ⟨name, a, registers, subject, -⟩ | ⟨name, expected, rfl, leads'⟩
      · exact same.trans leads
      · exact absurd subject (other name a registers)
      · -- the schema that was removed is not the one that won
        have same : name₀.fullName = name.fullName := Option.some.inj (leads.symm.trans leads')
        exact absurd (same ▸ contested) outside

/-- A registration that succeeds decides the contest. -/
lemma Standing.decided {e : Event} {call : StoreCall} (h : Standing m key names w)
    (history : w'.history = w.history ++ [e]) (effect : e.talk.effect? = some call)
    (may : e.job.MayWrite (w.transcript e.caller) call)
    (performs : w.tables.Performs call w'.tables) (claims : e.job.Claims key)
    (contested : e.job.task.name.fullName ∈ names) : Standing m key names w' := by
  obtain ⟨name, request, a, task, rfl, rfl⟩ := may.register_of_claims claims
  obtain ⟨unbound, binds, register⟩ := performs.registered
  cases h with
  | undecided idle free unbound exact =>
    rw [task] at contested
    refine .won (history ▸ List.mem_append_right _ (List.mem_singleton_self e)) claims contested
      effect (fun e' he' claims' done => ?_) (performs.get?_payload rfl)
      (fun full inside apart => ?_) binds fun only => ?_
    · rcases List.mem_append.1 (history ▸ he') with old | new
      · exact absurd (idle e' old claims') done
      · exact List.mem_singleton.1 new
    · exact (performs.get?_of_ne apart).trans (free full inside)
    · rw [← exact fun e he => only e (history ▸ List.mem_append_left _ he)]
      exact register
  | won member claims contested wins only here free bound exact =>
    cases unbound.symm.trans bound

/-- Every step keeps to the contest. -/
lemma Standing.step (h : Standing m key names w) (kept : w'.Kept)
    (unique : w.tables.subjects.HasUniqueKeys) (undisturbed : w'.Undisturbed key names)
    (step : w.LooseStep w') : Standing m key names w' := by
  cases outcome_of_step kept step with
  | silent history tables => exact h.idle (history.trans (List.append_nil _).symm) (by simp) tables
  | quiet history tables effect _ => exact h.idle history (by simpa using effect) tables
  | @wrote e call history effect may performs =>
    obtain ⟨t, started, same⟩ := kept.owned e (by simp [history])
    obtain ⟨claimed, writers⟩ := same ▸ undisturbed t (List.mem_of_getElem? started)
    by_cases claims : e.job.Claims key
    · exact h.decided history effect may performs claims (claimed claims)
    · refine h.foreign history effect may performs unique claims fun inside => ?_
      rcases writers (may.name_eq ▸ inside) with reads | claims'
      · cases may.isRead_eq_false.symm.trans reads
      · exact claims claims'

/-- From a store in which all that is contested is free, every run leads to a contest that is
undecided or won. -/
lemma Reaches.standing (run : (opened m).Reaches w) (paired : m.tables.IsPaired)
    (undisturbed : w.Undisturbed key names)
    (free : ∀ full ∈ names, m.tables.schemas.get? full = none)
    (unbound : m.tables.subjects.get? key = none) : Standing m key names w := by
  induction run with
  | refl => exact .undecided (by simp [opened]) free unbound fun _ => rfl
  | tail run step ih =>
    have earlier := undisturbed.earlier (reaches_of_step step)
    exact (ih earlier).step ((kept run).step step) (isPaired run paired).subjects undisturbed step

/-- What is stored under a contested full name is what has won. -/
lemma Standing.won_of_stored (h : Standing m key names w) {full : String} (contested : full ∈ names)
    (taken : w.stored? full ≠ none) :
    ∃ e ∈ w.history, ∃ name a, e.job.Claims key ∧ e.talk.effect? = some (.register name a) ∧
      full = name.fullName := by
  cases h with
  | undecided idle free unbound exact => exact absurd (free full contested) taken
  | @won e name a member claims inside wins only stored free bound exact =>
    refine ⟨e, member, name, a, claims, wins, ?_⟩
    by_contra apart
    exact taken (free full contested apart)

/-- Somebody has won a subject that is bound. -/
lemma Standing.won_of_bound (h : Standing m key names w)
    (taken : w.tables.subjects.get? key ≠ none) :
    ∃ e ∈ w.history, ∃ name a, e.job.Claims key ∧ e.talk.effect? = some (.register name a) := by
  cases h with
  | undecided idle free unbound exact => exact absurd unbound taken
  | @won e name a member claims inside wins only stored free bound exact =>
    exact ⟨e, member, name, a, claims, wins⟩

/-! ### All have answered -/

/-- Registrations compete for a subject on a store in which the subject and all their full names are
free.  All of them have answered, none was refused, and nobody else writes under their full
names. -/
structure Contest (m : MemoryStore) (key : String) (w : World MemoryStore.backend) : Prop where
  run : (opened m).Reaches w
  free : ∀ t ∈ w.threads, t.job.Claims key →
    m.tables.schemas.get? t.job.task.name.fullName = none
  unbound : m.tables.subjects.get? key = none
  entered : ∃ t ∈ w.threads, t.job.Claims key
  answered : ∀ t ∈ w.threads, t.job.Claims key → ∃ result, t.rest = .done result
  willing : ∀ t ∈ w.threads, t.job.Claims key → ∀ e, t.rest = .done (.error e) →
    e.isRefusal = false
  undisturbed : ∀ t ∈ w.threads, t.job.Claims key → ∀ t' ∈ w.threads,
    t'.job.task.name.fullName = t.job.task.name.fullName →
      t'.job.task.isRead = true ∨ t'.job.Claims key

/-- The job with this number has won the subject, with this schema under this name. -/
structure Wins (m : MemoryStore) (key : String) (w : World MemoryStore.backend) (caller : Nat)
    (name : SchemaName) (a : Aggregate) : Prop where
  /-- The winner was told of the schema that it has made and stored. -/
  answered : ∃ r actor request past,
    w.threads[caller]? =
      some ⟨⟨r, actor, .register name request⟩, .done (.ok ⟨a.info.uniqueId, a.lastVersion⟩)⟩ ∧
    Job.MayWrite ⟨r, actor, .register name request⟩ past (.register name a) ∧
    w.transcript caller = past ++ [⟨.store (.register name a), Except.ok ()⟩]
  subject : name.subjectKey = key
  stored : w.stored? name.fullName = some a
  bound : w.tables.subjects.get? key = some name.fullName
  /-- All others were told that the winner's full name, or the subject, exists. -/
  others : ∀ i t, w.threads[i]? = some t → t.job.Claims key → i ≠ caller →
    t.rest = .done (.error (.alreadyExists name.fullName)) ∨
      t.rest = .done (.error (.alreadyExists key))
  /-- No step of theirs has changed the tables. -/
  still : ∀ i t, w.threads[i]? = some t → t.job.Claims key → i ≠ caller →
    ∀ w₁ w₂ e, StepOf (opened m) w i w₁ w₂ e → w₂.tables = w₁.tables
  /-- Nothing is stored under another one of their full names, and no subject leads there. -/
  traceless : ∀ t ∈ w.threads, t.job.Claims key →
    t.job.task.name.fullName ≠ name.fullName →
      w.stored? t.job.task.name.fullName = none ∧
        ∀ k, w.tables.subjects.get? k ≠ some t.job.task.name.fullName
  /-- Where nobody else writes, the registration of the winner's schema is all that happened to the
  tables. -/
  exact : (∀ t ∈ w.threads, t.job.task.isRead = true ∨ t.job.Claims key) →
    m.tables.register name a = .ok w.tables

namespace Contest

variable {caller : Nat} {t : Thread}

/-- The full names that are contested. -/
def contested (key : String) (w : World MemoryStore.backend) : Set String :=
  {full | ∃ t ∈ w.threads, t.job.Claims key ∧ t.job.task.name.fullName = full}

lemma undisturbed_contested (h : Contest m key w) : w.Undisturbed key (contested key w) := by
  intro t started
  refine ⟨fun claims => ⟨t, started, claims, rfl⟩, ?_⟩
  rintro ⟨t', started', claims, same⟩
  exact h.undisturbed t' started' claims t started same.symm

/-- The contest stands at every world on the way. -/
lemma standing (h : Contest m key w) (paired : m.tables.IsPaired) {w₁ : World MemoryStore.backend}
    (run : (opened m).Reaches w₁) (later : w₁.Reaches w) : Standing m key (contested key w) w₁ := by
  refine run.standing paired (h.undisturbed_contested.earlier later) ?_ h.unbound
  rintro _ ⟨t, started, claims, rfl⟩
  exact h.free t started claims

/-- Whoever has claimed the subject has answered. -/
lemma exists_result (h : Contest m key w) (started : w.threads[caller]? = some t)
    (claims : t.job.Claims key) :
    ∃ r actor name request, ∃ result : Except Failure Receipt,
      t = ⟨⟨r, actor, .register name request⟩, .done result⟩ ∧ name.subjectKey = key := by
  have answered := h.answered t (List.mem_of_getElem? started) claims
  obtain ⟨⟨r, actor, task⟩, rest⟩ := t
  obtain ⟨name, request, rfl, subject⟩ := claims
  obtain ⟨result, done⟩ := answered
  exact ⟨r, actor, name, request, result, congrArg (Thread.mk _) done, subject⟩

variable {r : Registry} {actor : String} {name : SchemaName} {request : Registration}

/-- A registration that failed was told that a full name or the subject exists, and then another
registration had won already. -/
lemma lost (h : Contest m key w) (paired : m.tables.IsPaired) (subject : name.subjectKey = key)
    {failure : Failure}
    (ended : w.threads[caller]? =
      some ⟨⟨r, actor, .register name request⟩, .done (.error failure)⟩) :
    ∃ e ∈ w.history, ∃ name' a, e.job.Claims key ∧ e.talk.effect? = some (.register name' a) ∧
      (failure = .alreadyExists name'.fullName ∨ failure = .alreadyExists key) := by
  have member := List.mem_of_getElem? ended
  have claims : Job.Claims ⟨r, actor, .register name request⟩ key := ⟨name, request, rfl, subject⟩
  have willing := h.willing _ member claims failure rfl
  -- whoever finds the full name taken has lost to the schema that is there
  have found {w₁ : World MemoryStore.backend} (run : (opened m).Reaches w₁) (later : w₁.Reaches w)
      (taken : w₁.stored? name.fullName ≠ none) :
      ∃ e ∈ w.history, ∃ name' a, e.job.Claims key ∧ e.talk.effect? = some (.register name' a) ∧
        (Failure.alreadyExists name.fullName = .alreadyExists name'.fullName ∨
          Failure.alreadyExists name.fullName = .alreadyExists key) := by
    obtain ⟨e, earlier, name', a, claims, wins, same⟩ :=
      (h.standing paired run later).won_of_stored ⟨_, member, claims, rfl⟩ taken
    exact ⟨e, later.history_grows.subset earlier, name', a, claims, wins, .inl (same ▸ rfl)⟩
  have reasons := Reaches.obey Registry.program_failsFor h.run caller _ ended
  cases reasons failure rfl name request rfl with
  | refused refusal => cases willing.symm.trans refusal
  | found read =>
    obtain ⟨w₁, w₂, e, step, talk⟩ := h.run.exists_stepOf read
    exact found step.earlier step.onward (step.stored?_eq talk ▸ Option.some_ne_none _)
  | @unread cached error unread =>
    obtain ⟨w₁, w₂, e, step, talk⟩ := h.run.exists_stepOf unread
    have honest := (MemoryStore.answer_fetch w₁.store name cached).1
    cases honest.symm.trans (step.answer_eq talk)
  | @unstored a error unstored =>
    obtain ⟨w₁, w₂, e, step, talk⟩ := h.run.exists_stepOf unstored
    rcases MemoryStore.answer_register_error (step.answer_eq talk) with
      ⟨message, rfl⟩ | ⟨rfl, taken⟩ | ⟨full, rfl, bound⟩
    · cases willing
    · exact found step.earlier step.onward taken
    · have taken : w₁.tables.subjects.get? key ≠ none := by
        rw [← subject, World.tables, bound]
        exact Option.some_ne_none full
      obtain ⟨e, earlier, name', a, claims, wins⟩ :=
        (h.standing paired step.earlier step.onward).won_of_bound taken
      exact ⟨e, step.onward.history_grows.subset earlier, name', a, claims, wins,
        .inr (congrArg Failure.alreadyExists subject)⟩

/-- A registration that succeeded has registered what it was told of. -/
lemma succeeded (h : Contest m key w) {receipt : Receipt}
    (ended : w.threads[caller]? = some ⟨⟨r, actor, .register name request⟩, .done (.ok receipt)⟩) :
    ∃ e ∈ w.history, ∃ past a, e.caller = caller ∧ e.job = ⟨r, actor, .register name request⟩ ∧
      e.talk.effect? = some (.register name a) ∧
      Job.MayWrite ⟨r, actor, .register name request⟩ past (.register name a) ∧
      w.transcript caller = past ++ [⟨.store (.register name a), Except.ok ()⟩] ∧
      receipt = ⟨a.info.uniqueId, a.lastVersion⟩ := by
  obtain ⟨past, a, may, transcript, told⟩ := h.run.kept.mayEnd ended
  have last : (⟨.store (.register name a), Except.ok ()⟩ : Talk) ∈ w.transcript caller := by
    rw [transcript]
    exact List.mem_append_right _ (List.mem_singleton_self _)
  obtain ⟨e, member, own, talk⟩ := mem_talksOf.1 last
  obtain ⟨t, started, same⟩ := h.run.kept.owned e member
  rw [own, ended] at started
  cases started
  exact ⟨e, member, past, a, own, same.symm, talk ▸ rfl, may, transcript, told⟩

/-- One of the registrations has registered its schema. -/
lemma exists_effect (h : Contest m key w) (paired : m.tables.IsPaired) :
    ∃ e ∈ w.history, ∃ name a, e.job.Claims key ∧ e.talk.effect? = some (.register name a) := by
  obtain ⟨t, member, claims⟩ := h.entered
  obtain ⟨caller, started⟩ := List.getElem?_of_mem member
  obtain ⟨r, actor, name, request, result, rfl, subject⟩ := h.exists_result started claims
  cases result with
  | error failure =>
    obtain ⟨e, he, name, a, claims, wins, -⟩ := h.lost paired subject started
    exact ⟨e, he, name, a, claims, wins⟩
  | ok receipt =>
    obtain ⟨e, he, past, a, -, job, effect, -⟩ := h.succeeded started
    exact ⟨e, he, name, a, job ▸ ⟨name, request, rfl, subject⟩, effect⟩

/-- Whoever has registered its schema has answered so. -/
lemma answered_of_effect (h : Contest m key w) {e : Event} {a : Aggregate} (member : e ∈ w.history)
    (claims : e.job.Claims key) (effect : e.talk.effect? = some (.register name a)) :
    name.subjectKey = key ∧ ∃ r actor request past,
      w.threads[e.caller]? =
        some ⟨⟨r, actor, .register name request⟩, .done (.ok ⟨a.info.uniqueId, a.lastVersion⟩)⟩ ∧
      Job.MayWrite ⟨r, actor, .register name request⟩ past (.register name a) ∧
      w.transcript e.caller = past ++ [⟨.store (.register name a), Except.ok ()⟩] := by
  obtain ⟨t, started, same⟩ := h.run.kept.owned e member
  obtain ⟨r, actor, name', request, result, rfl, subject⟩ :=
    h.exists_result started (same ▸ claims)
  cases result with
  | error failure =>
    have idle := h.run.kept.mayEnd started e.talk (mem_talksOf.2 ⟨e, member, rfl, rfl⟩)
    cases idle.symm.trans effect
  | ok receipt =>
    obtain ⟨e', member', past, a', own, -, effect', may, transcript, rfl⟩ := h.succeeded started
    obtain rfl := h.run.kept.eq_of_effects member member' (effect ▸ Option.some_ne_none _)
      (effect' ▸ Option.some_ne_none _) own.symm
    cases effect.symm.trans effect'
    exact ⟨subject, r, actor, request, past, started, may, transcript⟩

end Contest

/-- **Exactly one registration wins.**  From any state of the store in memory that calls can lead
to, whatever the order of the steps, and even if other jobs do what they like under other names: of
the registrations that compete for a subject, one succeeds and is stored as it was made; all others
are told that its full name or the subject exists, and leave no trace. -/
theorem one_registration_wins (acts : List MemoryStore.Act) (key : String)
    (w : World MemoryStore.backend) (contest : Contest (.afterActs {} acts) key w) :
    ∃ caller name a, Wins (.afterActs {} acts) key w caller name a := by
  have paired := MemoryStore.isPaired_afterActs MemoryStore.isPaired_empty acts
  have standing := contest.standing paired contest.run .refl
  have pairs := contest.run.isPaired paired
  cases standing with
  | undecided idle free unbound exact =>
    obtain ⟨e, he, name, a, claims, effect⟩ := contest.exists_effect paired
    cases (idle e he claims).symm.trans effect
  | @won e name a member claims inside wins only stored free bound exact =>
    obtain ⟨subject, answered⟩ := contest.answered_of_effect member claims wins
    have others : ∀ i t, w.threads[i]? = some t → t.job.Claims key → i ≠ e.caller →
        t.rest = .done (.error (.alreadyExists name.fullName)) ∨
          t.rest = .done (.error (.alreadyExists key)) := by
      intro i t started claims' apart
      obtain ⟨r, actor, name', request, result, rfl, subject'⟩ :=
        contest.exists_result started claims'
      cases result with
      | ok receipt =>
        obtain ⟨e', he', past, a', own, job, effect, -⟩ := contest.succeeded started
        have same := only e' he' (job ▸ claims') (effect ▸ Option.some_ne_none _)
        exact absurd (own.symm.trans (congrArg Event.caller same)) apart
      | error failure =>
        obtain ⟨e', he', name', a', claims'', effect, told⟩ := contest.lost paired subject' started
        obtain rfl := only e' he' claims'' (effect ▸ Option.some_ne_none _)
        cases effect.symm.trans wins
        rcases told with rfl | rfl
        · exact .inl rfl
        · exact .inr rfl
    refine ⟨e.caller, name, a, answered, subject, stored, bound, others, ?still, ?traceless, ?exact⟩
    case still =>
      intro i t started claims' apart
      refine (failure_changes_nothing _ w contest.run i t started).1 (.inl ?_)
      rcases others i t started claims' apart with told | told
      · exact ⟨_, told⟩
      · exact ⟨_, told⟩
    case traceless =>
      intro t started claims' apart
      have empty := free _ ⟨t, started, claims', rfl⟩ apart
      exact ⟨empty, fun k leads => Dictionary.get?_eq_none_iff.1 empty (pairs.mem_schemas leads)⟩
    case exact =>
      intro quiet
      refine exact fun e' he' done => ?_
      obtain ⟨t, started, same⟩ := contest.run.kept.owned e' he'
      obtain ⟨call, effect⟩ := Option.ne_none_iff_exists'.1 done
      obtain ⟨before, later, split⟩ := List.append_of_mem he'
      have may := contest.run.kept.mayWrite before e' later call split effect
      rcases same ▸ quiet t (List.mem_of_getElem? started) with reads | claims'
      · cases may.isRead_eq_false.symm.trans reads
      · exact claims'

end World

namespace Rehearsal

/-- Another schema for the subject. -/
def refunds : SchemaName :=
  { orders with schema := "Refund" }

/-- Two jobs register schemas for one subject.  Both find nothing, and the second writes first. -/
def competing : List (Move MemoryStore.backend) :=
  [.start (job (.register orders registration)), .start (job (.register refunds registration))] ++
    List.replicate 5 (.answer 0 say) ++ List.replicate 6 (.answer 1 sayNext) ++ [.answer 0 say]

end Rehearsal

namespace World

open Rehearsal in
/-- The second of two registrations wins, and the first is told that the subject exists. -/
theorem one_registration_wins_of_two :
    (start.after competing).threads =
      [⟨job (.register orders registration), .done (.error (.alreadyExists "shop/orders"))⟩,
        ⟨job (.register refunds registration), .done (.ok ⟨8, 1⟩)⟩] ∧
    ∃ caller name a,
      Wins (.afterActs {} []) orders.subjectKey (start.after competing) caller name a := by
  have threads : (start.after competing).threads =
      [⟨job (.register orders registration), .done (.error (.alreadyExists "shop/orders"))⟩,
        ⟨job (.register refunds registration), .done (.ok ⟨8, 1⟩)⟩] := rfl
  have claims : ∀ t ∈ (start.after competing).threads, t.job.Claims orders.subjectKey := by
    rw [threads]
    simp [Job.Claims, job, refunds, SchemaName.subjectKey]
  refine ⟨threads, one_registration_wins [] _ _ ?_⟩
  refine ⟨reaches_after _ competing, fun _ _ _ => rfl, rfl, ?entered, ?answered, ?willing, ?_⟩
  case entered =>
    obtain ⟨t, started⟩ := List.exists_mem_of_ne_nil _ (threads ▸ List.cons_ne_nil _ _)
    exact ⟨t, started, claims t started⟩
  case answered =>
    rw [threads]
    simp
  case willing =>
    rw [threads]
    simp [Failure.isRefusal]
  case _ => exact fun t started _ t' started' _ => .inr (claims t' started')

end World

end SchemaLedger
