import SchemaLedger.Proofs.Dialogue.Jobs

/-!
What ends a job.

* `Exchange.IsFailedCall`: an exchange in which the store failed.
* `IsQuiet`: exchanges in which the store was not asked for a write.
* `Registry.EndsWithCall`: a program that asks nothing more once the store has failed or was asked
  for a write; one rule for each step that the operations share.
* `Job.obeys_asks`: a job gives up once the store has failed, and it asks for a write only where
  `Job.MayWrite` allows it.
-/

namespace SchemaLedger

namespace Program

variable {I : Interface} {α : Type} {mayAsk mayAsk' : List (Exchange I) → I.Ask → Prop}
  {mayEnd mayEnd' : List (Exchange I) → α → Prop}

/-- A program that obeys two rules obeys both at once. -/
lemma Obeys.and {p : Program I α} {past : List (Exchange I)} (h : p.Obeys mayAsk mayEnd past)
    (h' : p.Obeys mayAsk' mayEnd' past) :
    p.Obeys (fun past q => mayAsk past q ∧ mayAsk' past q)
      (fun past a => mayEnd past a ∧ mayEnd' past a) past := by
  induction p generalizing past with
  | done a => exact ⟨h, h'⟩
  | ask q next ih => exact ⟨⟨h.1, h'.1⟩, fun r => ih r (h.2 r) (h'.2 r)⟩

/-- What a program may ask can be weakened. -/
lemma Obeys.mono_ask (weaker : ∀ past q, mayAsk past q → mayAsk' past q) {p : Program I α}
    {past : List (Exchange I)} (h : p.Obeys mayAsk mayEnd past) : p.Obeys mayAsk' mayEnd past := by
  induction p generalizing past with
  | done a => exact h
  | ask q next ih => exact ⟨weaker past q h.1, fun r => ih r (h.2 r)⟩

end Program

/-- The store failed in this exchange. -/
def Exchange.IsFailedCall (x : Talk) : Prop :=
  ∃ (c : StoreCall) (e : StoreError), x = ⟨.store c, Except.error e⟩

/-- The store has not failed so far. -/
def IsServed (past : List Talk) : Prop :=
  ∀ x ∈ past, ¬x.IsFailedCall

lemma IsServed.append {past : List Talk} {x : Talk} (good : IsServed past) (new : ¬x.IsFailedCall) :
    IsServed (past ++ [x]) := by
  intro y hy
  rcases List.mem_append.1 hy with old | last
  · exact good y old
  · rw [List.mem_singleton.1 last]
    exact new

/-- Nothing was to be written so far. -/
def IsQuiet (past : List Talk) : Prop :=
  ∀ x ∈ past, ∀ c, x.question = .store c → c.isWrite = false

lemma isQuiet_append {past : List Talk} {x : Talk} :
    IsQuiet (past ++ [x]) ↔ IsQuiet past ∧ ∀ c, x.question = .store c → c.isWrite = false := by
  simp [IsQuiet, or_imp, forall_and]

/-- A job that may write has not written yet. -/
lemma Job.MayWrite.isQuiet {j : Job} {past : List Talk} {c : StoreCall} (h : j.MayWrite past c) :
    IsQuiet past := by
  have opening {r : Registry} {actor : String} {name : SchemaName} {operation : Operation}
      {found : Option Aggregate} : IsQuiet (r.opening actor name operation found) := by
    simp [IsQuiet, Registry.opening, StoreCall.isWrite]
  have compiling {r : Registry} {a a' : Aggregate} {past : List Talk}
      (h : r.Attaches a past a') : IsQuiet past := by
    cases h <;> simp [IsQuiet]
  cases h with
  | register valid attached =>
    exact List.forall_mem_append.2
      ⟨List.forall_mem_append.2 ⟨opening, by simp⟩, compiling attached⟩
  | update valid next attached =>
    exact List.forall_mem_append.2
      ⟨List.forall_mem_append.2 ⟨opening, by simp⟩, compiling attached⟩
  | delete valid => exact opening
  | attach valid on missing bound => exact List.forall_mem_append.2 ⟨opening, by simp⟩

/-- So far the store has not failed, and it was not asked for a write. -/
structure IsOpen (past : List Talk) : Prop where
  served : IsServed past
  quiet : IsQuiet past

lemma IsOpen.append {past : List Talk} {x : Talk} (h : IsOpen past) (new : ¬x.IsFailedCall)
    (reads : ∀ c, x.question = .store c → c.isWrite = false) : IsOpen (past ++ [x]) :=
  ⟨h.served.append new, isQuiet_append.2 ⟨h.quiet, reads⟩⟩

namespace Registry

open Operating

variable {r : Registry} {actor : String} {name : SchemaName} {α β : Type} {past : List Talk}

/-- Nothing is asked once the store has failed, or was asked for a write. -/
def EndsWithCall (x : Operating α) (past : List Talk) : Prop :=
  Obeys (fun past _ => IsOpen past) (fun _ _ => True) x past

lemma not_isFailedCall_of_no_call {q : Request} {x : q.Answer} (other : ∀ c, q ≠ .store c) :
    ¬Exchange.IsFailedCall ⟨q, x⟩ := by
  rintro ⟨c, e, same⟩
  exact other c (congrArg Exchange.question same)

lemma not_isFailedCall_ok {c : StoreCall} (x : c.Result) :
    ¬Exchange.IsFailedCall ⟨.store c, Except.ok x⟩ := by
  rintro ⟨c', e, same⟩
  cases same

/-- A question to a collaborator other than the store. -/
lemma endsWithCall_ask_bind {q : Request} {f : q.Answer → Operating β} (other : ∀ c, q ≠ .store c)
    (good : IsOpen past) (h : ∀ past, IsOpen past → ∀ x, EndsWithCall (f x) past) :
    EndsWithCall (ask q >>= f) past :=
  obeys_ask_bind good fun x =>
    h _ (good.append (not_isFailedCall_of_no_call other) fun c asked => absurd asked (other c)) x

/-- A result that is known already. -/
lemma endsWithCall_lift_bind {ε : Type} {told : ε → Failure} {x : Except ε α} {f : α → Operating β}
    (h : ∀ a, EndsWithCall (f a) past) : EndsWithCall (lift told x >>= f) past :=
  obeys_lift_bind (fun a _ => h a) fun _ _ => trivial

lemma endsWithCall_authorize_bind {scope : String} {operation : Operation} {f : Unit → Operating β}
    (good : IsOpen past)
    (h : ∀ past, IsOpen past → EndsWithCall (f ()) past) :
    EndsWithCall (authorize actor scope operation >>= f) past :=
  obeys_authorize_bind good
    (h _ (good.append (not_isFailedCall_of_no_call (by simp)) (by simp))) fun _ => trivial

/-- The store is asked for a read; when it fails nothing follows. -/
lemma endsWithCall_consult_bind {c : StoreCall} {f : c.Result → Operating β}
    (reads : c.isWrite = false) (good : IsOpen past)
    (h : ∀ past, IsOpen past → ∀ x, EndsWithCall (f x) past) :
    EndsWithCall (consult c >>= f) past :=
  obeys_consult_bind good
    (fun x => h _ (good.append (not_isFailedCall_ok x) fun _ same => by cases same; exact reads) x)
    fun _ => trivial

/-- The store is asked for a write; nothing follows. -/
lemma endsWithCall_write {c : StoreCall} {b : c.Result → β} (good : IsOpen past) :
    EndsWithCall (consult c >>= fun x => pure (b x)) past :=
  obeys_consult_bind good (fun _ => obeys_pure trivial) fun _ => trivial

lemma endsWithCall_load_bind {f : Aggregate → Operating β} (good : IsOpen past)
    (h : ∀ past, IsOpen past → ∀ a, EndsWithCall (f a) past) :
    EndsWithCall (r.load name >>= f) past :=
  obeys_load_bind good
    (fun a => h _ (good.append (not_isFailedCall_ok _) fun _ same => by cases same; rfl) a) trivial
    fun _ => trivial

lemma endsWithCall_compile_bind {a : Aggregate} {f : Artifact → Operating β}
    (good : IsOpen past)
    (h : ∀ past, IsOpen past → ∀ d, EndsWithCall (f d) past) :
    EndsWithCall (r.compile a >>= f) past :=
  obeys_compile_bind good
    (fun d _ => h _ (good.append (not_isFailedCall_of_no_call (by simp)) (by simp)) d) trivial
    fun _ _ => trivial

lemma endsWithCall_attach_bind {a : Aggregate} {f : Aggregate → Operating β}
    (good : IsOpen past)
    (h : ∀ past, IsOpen past → ∀ a, EndsWithCall (f a) past) :
    EndsWithCall (r.attach a >>= f) past := by
  refine obeys_attach_bind good (fun compiling a' attached => h _ ?_ a') fun _ _ _ => trivial
  cases attached with
  | skipped off => rwa [List.append_nil]
  | compiled on mode bound =>
    exact good.append (not_isFailedCall_of_no_call (by simp)) (by simp)

/-- Every operation ends once the store has failed, or was asked for a write. -/
lemma endsWithCall_program (j : Job) : EndsWithCall j.program [] := by
  obtain ⟨r, actor, task⟩ := j
  have start : IsOpen [] := ⟨by simp [IsServed], by simp [IsQuiet]⟩
  cases task with
  | register name request =>
    refine endsWithCall_lift_bind fun _ => endsWithCall_authorize_bind start fun past good => ?_
    refine endsWithCall_consult_bind rfl good fun past good found => ?_
    cases found with
    | some a => exact obeys_throw trivial
    | none =>
      refine endsWithCall_ask_bind (by simp) good fun past good id => ?_
      refine endsWithCall_ask_bind (by simp) good fun past good created => ?_
      refine endsWithCall_ask_bind (by simp) good fun past good started => ?_
      refine endsWithCall_attach_bind good fun past good a => ?_
      exact endsWithCall_write good
  | update name request =>
    refine endsWithCall_lift_bind fun _ => endsWithCall_authorize_bind start fun past good => ?_
    refine endsWithCall_load_bind good fun past good current => ?_
    refine endsWithCall_ask_bind (by simp) good fun past good modified => ?_
    refine endsWithCall_ask_bind (by simp) good fun past good started => ?_
    refine endsWithCall_lift_bind fun candidate => ?_
    refine endsWithCall_ask_bind (by simp) good fun past good verdict => ?_
    refine endsWithCall_lift_bind fun _ => endsWithCall_attach_bind good fun past good a => ?_
    exact endsWithCall_write good
  | delete name =>
    refine endsWithCall_lift_bind fun _ => endsWithCall_authorize_bind start fun past good => ?_
    refine endsWithCall_load_bind good fun past good current => ?_
    exact endsWithCall_write good
  | get name =>
    refine endsWithCall_lift_bind fun _ => endsWithCall_authorize_bind start fun past good => ?_
    exact endsWithCall_load_bind good fun _ _ _ => obeys_pure trivial
  | getBySubject name =>
    refine endsWithCall_lift_bind fun _ => endsWithCall_authorize_bind start fun past good => ?_
    refine endsWithCall_consult_bind rfl good fun past good found => ?_
    cases found with
    | some record => exact obeys_pure trivial
    | none => exact obeys_throw trivial
  | listBySubject name =>
    refine endsWithCall_lift_bind fun _ => endsWithCall_authorize_bind start fun past good => ?_
    refine endsWithCall_consult_bind rfl good fun past good found => ?_
    match found with
    | some (record :: records) => exact obeys_pure trivial
    | some [] => exact obeys_throw trivial
    | none => exact obeys_throw trivial
  | compileArtifact name =>
    refine endsWithCall_lift_bind fun _ => endsWithCall_authorize_bind start fun past good => ?_
    dsimp only
    split
    · refine endsWithCall_load_bind good fun past good current => ?_
      split
      · exact obeys_pure trivial
      · refine endsWithCall_compile_bind good fun past good d => ?_
        exact endsWithCall_write good
    · exact obeys_throw trivial

end Registry

namespace Job

/-- What a job may ask, as long as the store has not failed. -/
def Asks (j : Job) (past : List Talk) (q : Request) : Prop :=
  j.MayAsk past q ∧ IsServed past

/-- **A job keeps to its rules**: it writes where `Job.MayWrite` allows it, and it asks nothing more
once the store has failed. -/
theorem obeys_asks (j : Job) : Operating.Obeys j.Asks (fun _ _ => True) j.program [] := by
  have both := Program.Obeys.and j.obeys (Registry.endsWithCall_program j)
  exact (both.mono_ask fun _ _ asks => ⟨asks.1, asks.2.served⟩).mono fun _ _ _ => trivial

end Job

end SchemaLedger
