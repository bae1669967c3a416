import SchemaLedger.Proofs.Dialogue.Jobs

/-!
What a job reads, and why it fails.

* `Registry.ReadsAsSet`: a read is served from the cache if the settings of the registry say so, and
  only then.
* `Failure.IsDueTo`: a failure is the operation's own, or it passes on what the store has answered,
  or a ledger was read that has no last record.
* `Registry.Explains`: a program that reads like this and fails for one of these reasons; one rule
  for each step that the operations share.
* `Registry.explains_program`: so does every job.
-/

namespace SchemaLedger

/-- The call is a read that may be served from a cache. -/
def StoreCall.isCached : StoreCall → Bool
  | .fetch _ cached => cached
  | .fetchRecord _ cached => cached
  | .fetchRecords _ cached => cached
  | _ => false

/-- A write is not served from a cache. -/
lemma StoreCall.isCached_write {c : StoreCall} (writes : c.isWrite = true) : c.isCached = false := by
  cases c with
  | fetch | fetchRecord | fetchRecords => cases writes
  | register | replace | remove => rfl

/-- If the question is a read, it may be served from a cache just if the registry is set to it. -/
def Registry.ReadsAsSet (r : Registry) (q : Request) : Prop :=
  ∀ c, q = .store c → c.isWrite = false → c.isCached = r.settings.cacheEnabled

/-- Where a failure comes from, after the exchanges before it. -/
inductive Failure.IsDueTo (past : List Talk) : Failure → Prop
  | own {e : Failure} (final : e.isRetryable = false) (other : e ≠ .emptyLedger) : IsDueTo past e
  | store {c : StoreCall} {e : StoreError} (failed : (⟨.store c, Except.error e⟩ : Talk) ∈ past) :
    IsDueTo past (.ofStore e)
  | missing {name : SchemaName} {cached : Bool} {current : Aggregate}
    (read : (⟨.store (.fetch name cached), Except.ok (some current)⟩ : Talk) ∈ past)
    (none : current.ledger.last? = none) : IsDueTo past .emptyLedger

/-- A conflict was reported by the store. -/
lemma Failure.IsDueTo.conflict {past : List Talk} {e : Failure} (h : e.IsDueTo past)
    (retryable : e.isRetryable = true) :
    ∃ (c : StoreCall) (key : String) (expected found : Revision),
      (⟨.store c, Except.error (.conflict key expected found)⟩ : Talk) ∈ past := by
  cases h with
  | own final other =>
    rw [retryable] at final
    cases final
  | @store c e failed =>
    cases e with
    | conflict key expected found => exact ⟨c, key, expected, found, failed⟩
    | notFound | alreadyStored | subjectBound | corrupted | invalidKey | backend | file | json
    | emptyLedger => cases retryable
  | missing read none => cases retryable

namespace Registry

open Operating

variable {r : Registry} {actor : String} {name : SchemaName} {α β : Type} {past : List Talk}

/-- An operation reads as it is set to, and if it fails, there is a reason. -/
def Explains (r : Registry) (x : Operating α) (past : List Talk) : Prop :=
  Obeys (fun _ q => r.ReadsAsSet q) (fun past r => ∀ e, r = .error e → e.IsDueTo past) x past

lemma readsAsSet_of_no_call {q : Request} (other : ∀ c, q ≠ .store c) : r.ReadsAsSet q :=
  fun c call => absurd call (other c)

lemma readsAsSet_of_write {c : StoreCall} (writes : c.isWrite = true) :
    r.ReadsAsSet (.store c) := by
  intro c' call reads
  cases call
  rw [writes] at reads
  cases reads

lemma readsAsSet_of_read {c : StoreCall} (set : c.isCached = r.settings.cacheEnabled) :
    r.ReadsAsSet (.store c) := by
  intro c' call _
  cases call
  exact set

lemma explains_ok (b : β) : r.Explains (pure b) past :=
  obeys_pure fun _ failed => nomatch failed

lemma explains_throw {e : Failure} (final : e.isRetryable = false) (other : e ≠ .emptyLedger) :
    r.Explains (throw e : Operating β) past :=
  obeys_throw fun _ failed => by
    cases failed
    exact .own final other

lemma explains_ask_bind {q : Request} {f : q.Answer → Operating β} (other : ∀ c, q ≠ .store c)
    (h : ∀ x, r.Explains (f x) (past ++ [⟨q, x⟩])) : r.Explains (ask q >>= f) past :=
  obeys_ask_bind (readsAsSet_of_no_call other) h

/-- A result that is known already. -/
lemma explains_lift_bind {ε : Type} {told : ε → Failure} {x : Except ε α} {f : α → Operating β}
    (own : ∀ e, (told e).isRetryable = false ∧ told e ≠ .emptyLedger)
    (h : ∀ a, r.Explains (f a) past) : r.Explains (lift told x >>= f) past :=
  obeys_lift_bind (fun a _ => h a) fun e _ _ failed => by
    cases failed
    exact .own (own e).1 (own e).2

/-- A part of the name may be blank. -/
lemma explains_check_bind {parts : List NamePart} {f : Unit → Operating β}
    (h : r.Explains (f ()) past) : r.Explains (lift id (name.check parts) >>= f) past := by
  refine obeys_lift_bind (fun _ _ => h) fun e refused _ failed => ?_
  cases failed
  rw [SchemaName.check] at refused
  split at refused
  · cases refused
    exact .own rfl (by simp)
  · cases refused

lemma explains_authorize_bind {scope : String} {operation : Operation} {f : Unit → Operating β}
    (h : ∀ past, r.Explains (f ()) past) : r.Explains (authorize actor scope operation >>= f) past :=
  obeys_authorize_bind (readsAsSet_of_no_call (by simp)) (h _) fun d _ failed => by
    cases failed
    exact .own rfl (by simp)

/-- The failure of the store is passed on. -/
lemma explains_consult_bind {c : StoreCall} {f : c.Result → Operating β}
    (set : r.ReadsAsSet (.store c))
    (h : ∀ x, r.Explains (f x) (past ++ [⟨.store c, Except.ok x⟩])) :
    r.Explains (consult c >>= f) past :=
  obeys_consult_bind set h fun e _ failed => by
    cases failed
    exact .store (List.mem_append_right _ (List.mem_singleton_self _))

lemma explains_load_bind {f : Aggregate → Operating β}
    (h : ∀ a, r.Explains (f a)
      (past ++ [⟨.store (.fetch name r.settings.cacheEnabled), Except.ok (some a)⟩])) :
    r.Explains (r.load name >>= f) past :=
  obeys_load_bind (readsAsSet_of_read rfl) h
    (fun _ failed => by
      cases failed
      exact .own rfl (by simp))
    fun e _ failed => by
      cases failed
      exact .store (List.mem_append_right _ (List.mem_singleton_self _))

lemma Explains.bind {x : Operating α} {f : α → Operating β} (first : r.Explains x past)
    (second : ∀ past a, r.Explains (f a) past) : r.Explains (x >>= f) past := by
  refine obeys_bind (Program.Obeys.mono (fun past result due => ?_) first)
  refine ⟨fun a _ => second past a, fun e failed e' same => ?_⟩
  cases same
  exact due e failed

lemma explains_compile (a : Aggregate) : r.Explains (r.compile a) past := by
  rw [Registry.compile]
  split
  · refine explains_ask_bind (by simp) fun x => ?_
    refine explains_lift_bind (fun e => ⟨rfl, by simp⟩) fun d => ?_
    split
    · exact explains_ok _
    · exact explains_throw rfl (by simp)
  · exact explains_throw rfl (by simp)

lemma explains_attach_bind {a : Aggregate} {f : Aggregate → Operating β}
    (h : ∀ past a, r.Explains (f a) past) : r.Explains (r.attach a >>= f) past := by
  rw [Registry.attach]
  split
  · exact h past a
  · rw [bind_assoc]
    exact (explains_compile a).bind fun past d => h past _

/-- **If a job fails, there is a reason.** -/
theorem explains_program (j : Job) : j.registry.Explains j.program [] := by
  obtain ⟨r, actor, task⟩ := j
  cases task with
  | register name request =>
    refine explains_check_bind (explains_authorize_bind fun past => ?_)
    refine explains_consult_bind (readsAsSet_of_read rfl) fun found => ?_
    cases found with
    | some a => exact explains_throw rfl (by simp)
    | none =>
      refine explains_ask_bind (by simp) fun id => explains_ask_bind (by simp) fun created => ?_
      refine explains_ask_bind (by simp) fun started => explains_attach_bind fun past a => ?_
      exact explains_consult_bind (readsAsSet_of_write rfl) fun _ => explains_ok _
  | update name request =>
    refine explains_check_bind (explains_authorize_bind fun past => ?_)
    refine explains_load_bind fun current => ?_
    refine explains_ask_bind (by simp) fun modified => explains_ask_bind (by simp) fun started => ?_
    refine obeys_lift_bind (fun candidate _ => ?_) fun e refused _ failed => ?_
    · refine explains_ask_bind (by simp) fun verdict => ?_
      refine explains_lift_bind (fun e => ⟨rfl, by simp⟩) fun _ => ?_
      refine explains_attach_bind fun past a => ?_
      exact explains_consult_bind (readsAsSet_of_write rfl) fun _ => explains_ok _
    · -- what was read has no next version, because it has no last one
      split at refused
      · cases refused
      · rename_i none
        cases refused
        cases failed
        refine @Failure.IsDueTo.missing _ name r.settings.cacheEnabled current (by simp) ?_
        simpa [Aggregate.next?, Ledger.append?] using none
  | delete name =>
    refine explains_check_bind (explains_authorize_bind fun past => ?_)
    refine explains_load_bind fun current => ?_
    exact explains_consult_bind (readsAsSet_of_write rfl) fun _ => explains_ok _
  | get name =>
    refine explains_check_bind (explains_authorize_bind fun past => ?_)
    exact explains_load_bind fun _ => explains_ok _
  | getBySubject name =>
    refine explains_check_bind (explains_authorize_bind fun past => ?_)
    refine explains_consult_bind (readsAsSet_of_read rfl) fun found => ?_
    cases found with
    | some record => exact explains_ok _
    | none => exact explains_throw rfl (by simp [subjectNotFound])
  | listBySubject name =>
    refine explains_check_bind (explains_authorize_bind fun past => ?_)
    refine explains_consult_bind (readsAsSet_of_read rfl) fun found => ?_
    cases found with
    | none => exact explains_throw rfl (by simp [subjectNotFound])
    | some records =>
      cases records with
      | nil => exact explains_throw rfl (by simp [subjectNotFound])
      | cons record records => exact explains_ok _
  | compileArtifact name =>
    refine explains_check_bind (explains_authorize_bind fun past => ?_)
    dsimp only
    split
    · refine explains_load_bind fun current => ?_
      split
      · exact explains_ok _
      · refine (explains_compile current).bind fun past d => ?_
        exact explains_consult_bind (readsAsSet_of_write rfl) fun _ => explains_ok _
    · exact explains_throw rfl (by simp)

end Registry

end SchemaLedger
