import SchemaLedger.Proofs.Dialogue.Reasons

/-!
Ledgers that nobody has tampered with.

* `Ledger.IsIntact`: the records are numbered 1, 2, … and each carries the fingerprint of its text.
* `Exchange.IsIntact`: what the store answers in an exchange comes from intact ledgers.
* `Job.MayWrite.isIntact`: a job that has read intact ledgers only writes intact ledgers only.
* `Registry.missesNothing_program`, `Job.MayEnd.showsIntact`: it never misses a last record, and what
  it shows comes from intact ledgers.
-/

namespace SchemaLedger

/-! ### Intact ledgers -/

namespace Ledger

/-- There is a first record, the records are numbered 1, 2, … in order, and each of them carries the
fingerprint of its text. -/
structure IsIntact (l : Ledger) : Prop where
  nonempty : l.records ≠ []
  numbered : l.records.map (·.version) = List.range' 1 l.records.length
  authentic : ∀ r ∈ l.records, r.checksum = Checksum.ofText r.idl

variable {l l' : Ledger} {name : SchemaName} {id : UInt64} {family : Family} {idl : String}
  {now : Instant}

/-- The two tests that a store makes of a ledger. -/
lemma isIntact_iff : l.IsIntact ↔ l.isContiguous = true ∧ l.isAuthentic = true := by
  have fingerprints : l.isAuthentic = true ↔ ∀ r ∈ l.records, r.checksum = Checksum.ofText r.idl := by
    simp [isAuthentic, Record.isAuthentic, Checksum.verifies]
  rw [isContiguous_iff, fingerprints, and_assoc]
  exact ⟨fun h => ⟨h.nonempty, h.numbered, h.authentic⟩, fun h => ⟨h.1, h.2.1, h.2.2⟩⟩

lemma isIntact_start : (start name id family idl now).IsIntact :=
  isIntact_iff.2 ⟨isContiguous_start .., isAuthentic_start ..⟩

/-- A new version keeps a ledger intact. -/
lemma IsIntact.append (h : l.IsIntact) (appended : l.append? name idl now = some l') :
    l'.IsIntact := by
  obtain ⟨contiguous, authentic⟩ := isIntact_iff.1 h
  exact isIntact_iff.2
    ⟨isContiguous_append contiguous appended, isAuthentic_append authentic appended⟩

/-- An intact ledger has a last record. -/
lemma IsIntact.exists_last (h : l.IsIntact) : ∃ r, l.last? = some r :=
  ⟨_, List.getLast?_eq_some_getLast h.nonempty⟩

end Ledger

/-- What a call is to write is intact. -/
def StoreCall.IsIntact : StoreCall → Prop
  | .register _ a => a.ledger.IsIntact
  | .replace _ a _ => a.ledger.IsIntact
  | _ => True

/-- What a store answers comes from an intact ledger, and it misses no last record. -/
def StoreCall.IsIntactAnswer : (c : StoreCall) → c.Answer → Prop
  | _, .error e => e ≠ .emptyLedger
  | .fetch _ _, .ok found => ∀ a : Aggregate, found = some a → a.ledger.IsIntact
  | .fetchRecord _ _, .ok found =>
    ∀ r : Record, found = some r → ∃ l : Ledger, l.IsIntact ∧ r ∈ l.records
  | .fetchRecords _ _, .ok found =>
    ∀ rs : List Record, found = some rs → ∃ l : Ledger, l.IsIntact ∧ rs = l.records
  | .register _ _, .ok _ => True
  | .replace _ _ _, .ok _ => True
  | .remove _ _, .ok _ => True

lemma StoreCall.isIntactAnswer_error {c : StoreCall} {e : StoreError} :
    c.IsIntactAnswer (Except.error e) ↔ e ≠ .emptyLedger := by
  cases c <;> rfl

/-- If the store was asked in an exchange, its answer comes from an intact ledger. -/
def Exchange.IsIntact : Talk → Prop
  | ⟨.store c, x⟩ => c.IsIntactAnswer x
  | _ => True

/-- The store has answered from intact ledgers so far. -/
def IsIntactPast (past : List Talk) : Prop :=
  ∀ x ∈ past, x.IsIntact

lemma IsIntactPast.of_append {past more : List Talk} (h : IsIntactPast (past ++ more)) :
    IsIntactPast past :=
  fun x hx => h x (List.mem_append_left _ hx)

/-- What was read is intact. -/
lemma IsIntactPast.fetched {past : List Talk} (h : IsIntactPast past) {name : SchemaName}
    {cached : Bool} {a : Aggregate}
    (read : (⟨.store (.fetch name cached), Except.ok (some a)⟩ : Talk) ∈ past) :
    a.ledger.IsIntact :=
  h _ read a rfl

/-! ### What a job writes -/

namespace Job

/-- **A job that has read intact ledgers writes intact ledgers.** -/
lemma MayWrite.isIntact {j : Job} {past : List Talk} {c : StoreCall} (h : j.MayWrite past c)
    (intact : IsIntactPast past) : c.IsIntact := by
  cases h with
  | register valid attached =>
    rw [StoreCall.IsIntact, Aggregate.ledger_eq_of_bare attached.bare_eq]
    exact Ledger.isIntact_start
  | update valid next attached =>
    have current := intact.of_append.of_append.fetched Registry.fetch_mem_opening
    obtain ⟨l, appended, rfl⟩ := Option.map_eq_some_iff.1 next
    rw [StoreCall.IsIntact, Aggregate.ledger_eq_of_bare attached.bare_eq]
    exact current.append appended
  | delete valid => trivial
  | @attach r actor name current d valid on missing bound =>
    have read : current.ledger.IsIntact := intact.of_append.fetched Registry.fetch_mem_opening
    exact read

end Job

/-! ### What a job ends with -/

/-- No last record was missing, if the store has answered from intact ledgers. -/
lemma Failure.IsDueTo.ne_emptyLedger {past : List Talk} {e : Failure} (h : e.IsDueTo past)
    (intact : IsIntactPast past) : e ≠ .emptyLedger := by
  cases h with
  | own final other => exact other
  | @store c e failed =>
    have answered : c.IsIntactAnswer (Except.error e) := intact _ failed
    cases e with
    | emptyLedger => exact absurd rfl (StoreCall.isIntactAnswer_error.1 answered)
    | notFound | alreadyStored | subjectBound | conflict | corrupted | invalidKey | backend | file
    | json => simp [Failure.ofStore]
  | missing read none =>
    obtain ⟨last, there⟩ := (intact.fetched read).exists_last
    rw [none] at there
    cases there

/-- However an operation ends, it has not missed a last record, if the store has answered from
intact ledgers. -/
lemma Registry.missesNothing_program (j : Job) :
    Operating.Obeys (fun _ q => j.registry.ReadsAsSet q)
      (fun past r => IsIntactPast past → r ≠ .error .emptyLedger) j.program [] := by
  refine Program.Obeys.mono (fun past r due intact failed => ?_) (Registry.explains_program j)
  exact (due _ failed).ne_emptyLedger intact rfl

namespace Job

/-- What a job shows comes from an intact ledger, and it has not missed a last record. -/
def ShowsIntact : (j : Job) → Except Failure j.task.Result → Prop
  | _, .error e => e ≠ .emptyLedger
  | ⟨_, _, .get _⟩, .ok view => ∃ a : Aggregate, a.ledger.IsIntact ∧ view = a.view
  | ⟨_, _, .delete _⟩, .ok view => ∃ a : Aggregate, a.ledger.IsIntact ∧ view = a.view
  | ⟨_, _, .getBySubject _⟩, .ok view =>
    ∃ l : Ledger, l.IsIntact ∧ ∃ r ∈ l.records, view = r.view
  | ⟨_, _, .listBySubject _⟩, .ok views =>
    ∃ l : Ledger, l.IsIntact ∧ views = l.records.map Record.view
  | ⟨_, _, .register _ _⟩, .ok _ => True
  | ⟨_, _, .update _ _⟩, .ok _ => True
  | ⟨_, _, .compileArtifact _⟩, .ok _ => True

/-- **What a job shows comes from intact ledgers**, if the store has answered from intact ledgers. -/
lemma MayEnd.showsIntact {j : Job} {past : List Talk} {result : Except Failure j.task.Result}
    (h : j.MayEnd past result) (intact : IsIntactPast past)
    (missesNothing : result ≠ .error .emptyLedger) : j.ShowsIntact result := by
  obtain ⟨r, actor, task⟩ := j
  cases result with
  | error e => exact fun same => missesNothing (congrArg Except.error same)
  | ok x =>
    cases task with
    | register name request => trivial
    | update name request => trivial
    | compileArtifact name => trivial
    | delete name =>
      obtain ⟨-, current, rfl, rfl⟩ := h
      exact ⟨current, intact.of_append.fetched Registry.fetch_mem_opening, rfl⟩
    | get name =>
      obtain ⟨-, current, rfl, rfl⟩ := h
      exact ⟨current, intact.fetched Registry.fetch_mem_opening, rfl⟩
    | getBySubject name =>
      obtain ⟨-, record, rfl, rfl⟩ := h
      obtain ⟨l, whole, member⟩ := intact ⟨.store (.fetchRecord name r.settings.cacheEnabled),
        Except.ok (some record)⟩ (by simp) record rfl
      exact ⟨l, whole, record, member, rfl⟩
    | listBySubject name =>
      obtain ⟨-, records, -, rfl, rfl⟩ := h
      obtain ⟨l, whole, rfl⟩ := intact ⟨.store (.fetchRecords name r.settings.cacheEnabled),
        Except.ok (some records)⟩ (by simp) records rfl
      exact ⟨l, whole, rfl⟩

end Job

end SchemaLedger
