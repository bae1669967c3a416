import SchemaLedger.Proofs.Concurrency.Removal
import SchemaLedger.Proofs.Concurrency.Runs

/-!
Artifacts, and the schemas that carry them.

* `Job.MayWrite.compiled`: a job that stores a schema with an artifact has had the artifact
  compiled, from what it stores.
* `World.Binds`: the artifact is one of the latest version of the schema, and was compiled from it.
* `World.StepOf.attaches`: an artifact that is attached to a stored schema comes to a version that
  it was compiled for.  The write expects the revision, so that none lands on a newer version.
* `World.nodup_revisions`: where all registries compile before they store, no revision is stored
  twice, since there is nothing to attach.
* `World.artifact_bound`: whatever is stored with an artifact is bound to it; and where all
  registries compile before they store, all that is stored, shown or removed has an artifact.
-/

namespace SchemaLedger

/-- The registry compiles every version before it is stored. -/
def Registry.CompilesFirst (r : Registry) : Prop :=
  r.settings.uploadEnabled = true ∧ r.settings.compileMode = .immediate

namespace Registry.Attaches

variable {r : Registry} {a a' : Aggregate} {d : Artifact} {compiling : List Talk}

/-- An artifact that was attached was compiled from the latest version. -/
lemma compiled_of_artifact (h : r.Attaches a compiling a') (bare : a.artifact = none)
    (carries : a'.artifact = some d) :
    d.recordVersion = a'.lastVersion ∧
      ∃ c, c.bare = a'.bare ∧ (⟨.compile c, Except.ok d⟩ : Talk) ∈ compiling := by
  cases h with
  | skipped off =>
    rw [bare] at carries
    cases carries
  | compiled on mode bound =>
    cases carries
    exact ⟨bound, a, rfl, List.mem_singleton_self _⟩

/-- A registry that compiles first attaches an artifact to everything. -/
lemma exists_artifact (h : r.Attaches a compiling a') (first : r.CompilesFirst) :
    ∃ d, a'.artifact = some d := by
  cases h with
  | skipped off =>
    rcases off with off | off
    · cases first.1.symm.trans off
    · cases first.2.symm.trans off
  | compiled on mode bound => exact ⟨_, rfl⟩

end Registry.Attaches

namespace Job.MayWrite

variable {j : Job} {past : List Talk} {call : StoreCall} {a : Aggregate} {d : Artifact}

/-- A job that stores a schema with an artifact has had the artifact compiled, from what it
stores. -/
lemma compiled (may : j.MayWrite past call) (payload : call.payload? = some a)
    (carries : a.artifact = some d) :
    d.recordVersion = a.lastVersion ∧
      ∃ c, c.bare = a.bare ∧ (⟨.compile c, Except.ok d⟩ : Talk) ∈ past := by
  cases may with
  | register valid attached =>
    cases payload
    obtain ⟨latest, c, same, asked⟩ := attached.compiled_of_artifact rfl carries
    exact ⟨latest, c, same, List.mem_append_right _ asked⟩
  | update valid next attached =>
    cases payload
    obtain ⟨record, -, rfl⟩ := Aggregate.next?_eq_some_iff.1 next
    obtain ⟨latest, c, same, asked⟩ := attached.compiled_of_artifact rfl carries
    exact ⟨latest, c, same, List.mem_append_right _ asked⟩
  | delete valid => cases payload
  | @attach _ _ _ current _ valid on missing bound =>
    cases payload
    cases carries
    exact ⟨bound, current, rfl, List.mem_append_right _ (List.mem_singleton_self _)⟩

/-- A job of a registry that compiles first stores nothing without an artifact. -/
lemma exists_artifact (may : j.MayWrite past call) (payload : call.payload? = some a)
    (first : j.registry.CompilesFirst) : ∃ d, a.artifact = some d := by
  cases may with
  | register valid attached =>
    cases payload
    exact attached.exists_artifact first
  | update valid next attached =>
    cases payload
    exact attached.exists_artifact first
  | delete valid => cases payload
  | attach valid on missing bound =>
    cases payload
    exact ⟨_, rfl⟩

/-- What a job does that is to compile: it has read a schema and had it compiled, and attaches the
artifact to it. -/
lemma attaches {r : Registry} {actor : String} {name : SchemaName}
    (may : MayWrite ⟨r, actor, .compileArtifact name⟩ past call) :
    ∃ c d cached, (⟨.store (.fetch name cached), Except.ok (some c)⟩ : Talk) ∈ past ∧
      (⟨.compile c, Except.ok d⟩ : Talk) ∈ past ∧ d.recordVersion = c.lastVersion ∧
      call = .replace name (c.withArtifact d) c.revision := by
  cases may with
  | @attach _ _ _ c d valid on missing bound =>
    exact ⟨c, d, _, List.mem_append_left _ Registry.fetch_mem_opening,
      List.mem_append_right _ (List.mem_singleton_self _), bound, rfl⟩

end Job.MayWrite

namespace World

/-! ### What is stored is bound to its artifact -/

section

variable {B : Backend} {w : World B} {a : Aggregate} {d : Artifact}

/-- The artifact is one of the latest version of the schema, and the compiler has made it from the
schema as it was without an artifact or with another one. -/
structure Binds (w : World B) (a : Aggregate) (d : Artifact) : Prop where
  latest : d.recordVersion = a.lastVersion
  compiled : ∃ e ∈ w.history, ∃ c : Aggregate, e.talk = ⟨.compile c, Except.ok d⟩ ∧ c.bare = a.bare

/-- It is what a view shows. -/
lemma Binds.view_artifact (h : w.Binds a d) (carries : a.artifact = some d) :
    a.view.artifact = some d :=
  Option.filter_eq_some_iff.2 ⟨carries, beq_iff_eq.2 h.latest⟩

/-- What was stored with an artifact is bound to it. -/
lemma Kept.binds (kept : w.Kept) (stored : a ∈ written w.history) (carries : a.artifact = some d) :
    w.Binds a d := by
  obtain ⟨before, e, later, call, split, payload, may⟩ := kept.exists_write stored
  obtain ⟨latest, c, same, asked⟩ := may.compiled payload carries
  obtain ⟨x, hx, -, talk⟩ := mem_talksOf.1 asked
  exact ⟨latest, x, by rw [split]; exact List.mem_append_left _ hx, c, talk, same⟩

/-- All registries compile before they store. -/
def CompilesFirst (w : World B) : Prop :=
  ∀ t ∈ w.threads, t.job.registry.CompilesFirst

/-- Whoever has exchanged anything compiles before it stores. -/
lemma Kept.compilesFirst (kept : w.Kept) (first : w.CompilesFirst) :
    ∀ e ∈ w.history, e.job.registry.CompilesFirst := by
  intro e he
  obtain ⟨t, started, same⟩ := kept.owned e he
  exact same ▸ first t (List.mem_of_getElem? started)

/-- Then nothing was stored without an artifact. -/
lemma Kept.exists_artifact (kept : w.Kept)
    (first : ∀ e ∈ w.history, e.job.registry.CompilesFirst) (stored : a ∈ written w.history) :
    ∃ d, a.artifact = some d := by
  obtain ⟨before, e, later, call, split, payload, may⟩ := kept.exists_write stored
  exact may.exists_artifact payload (first e (by simp [split]))

end

/-! ### Artifacts that are attached later -/

variable {w w₁ w₂ : World MemoryStore.backend} {a b : Aggregate}

/-- Where no id was drawn twice, a revision that is still stored has not changed. -/
lemma Reaches.bare_eq_of_revision (run : start.Reaches w) (nodup : w.drawn.Nodup) {key : String}
    (stored : w.stored? key = some b) (member : a ∈ written w.history)
    (same : a.revision = b.revision) : a.bare = b.bare := by
  obtain ⟨moves, rfl⟩ := run.exists_moves nodup
  exact (traced_after moves).bare_eq_of_revision stored member same

/-- An artifact that a job attaches was compiled for the version that is stored then, and so for the
very schema where no id was drawn twice. -/
lemma StepOf.attaches {caller : Nat} {e : Event} {r : Registry} {actor : String} {name : SchemaName}
    {call : StoreCall} (h : StepOf start w caller w₁ w₂ e)
    (compiles : e.job = ⟨r, actor, .compileArtifact name⟩) (effect : e.talk.effect? = some call) :
    ∃ c d s, (⟨.compile c, Except.ok d⟩ : Talk) ∈ w₁.transcript caller ∧
      d.recordVersion = c.lastVersion ∧ w₁.stored? name.fullName = some s ∧
      s.revision = c.revision ∧ w₂.stored? name.fullName = some (c.withArtifact d) ∧
      (w.drawn.Nodup → c.bare = s.bare) := by
  obtain ⟨may, performs⟩ := h.performs effect
  rw [compiles] at may
  obtain ⟨c, d, cached, read, asked, bound, rfl⟩ := may.attaches
  obtain ⟨s, stored, same⟩ := performs.replaced
  refine ⟨c, d, s, h.own ▸ asked, bound, stored, same, performs.get?_payload rfl, fun nodup => ?_⟩
  obtain ⟨x, hx, -, talk⟩ := mem_talksOf.1 read
  have earlier := (h.onward.history_grows.filterMap fun e => e.talk.drawn?).sublist
  exact h.earlier.bare_eq_of_revision (nodup.sublist earlier) stored
    (h.earlier.written_of_read hx talk) same.symm

/-! ### Registries that compile first -/

/-- Where all registries compile first, no revision is stored twice. -/
lemma nodup_revisions (moves : List (Move MemoryStore.backend))
    (first : ∀ e ∈ (start.after moves).history, e.job.registry.CompilesFirst) :
    ((written (start.after moves).history).map Aggregate.revision).Nodup := by
  induction moves using List.reverseRecOn with
  | nil => exact List.nodup_nil
  | append_singleton moves m ih =>
    have first' : ∀ e ∈ (start.after moves).history, e.job.registry.CompilesFirst :=
      fun e he => first e (history_subset moves [m] he)
    cases outcome_after moves m with
    | silent history _ =>
      rw [history]
      exact ih first'
    | quiet history _ effect _ =>
      rw [history, written_append_of_none (by simp [Event.written?, effect])]
      exact ih first'
    | @wrote e call history _ _ _ =>
      rw [history, written_concat]
      cases puts : e.written? with
      | none => simpa using ih first'
      | some a =>
        rw [Option.toList_some, List.map_append, List.map_singleton]
        refine List.nodup_append.2 ⟨ih first', List.nodup_singleton _, ?_⟩
        simp only [List.mem_map, List.mem_singleton]
        rintro _ ⟨b, hb, rfl⟩ _ rfl
        rcases attaches_or_new history puts with ⟨-, current, _, _, _, read, missing, -⟩ | new
        · -- whatever the job has read has an artifact already
          have member := (traced_after moves).written_of_transcript read
          obtain ⟨d, carries⟩ := (kept_after _ moves).exists_artifact first' member
          rw [currentArtifact_of_written member, carries] at missing
          cases missing
        · exact new b hb

/-- So a revision that was stored identifies the schema, with its artifact. -/
lemma Reaches.eq_of_revision (run : start.Reaches w) (nodup : w.drawn.Nodup)
    (first : w.CompilesFirst) (ha : a ∈ written w.history) (hb : b ∈ written w.history)
    (same : a.revision = b.revision) : a = b := by
  have events := run.kept.compilesFirst first
  obtain ⟨moves, rfl⟩ := run.exists_moves nodup
  exact List.inj_on_of_nodup_map (nodup_revisions moves events) ha hb same

/-- A job has shown the schema with the name. -/
def Got {B : Backend} (w : World B) (caller : Nat) (name : SchemaName) (view : SchemaView) : Prop :=
  ∃ r actor, w.threads[caller]? = some ⟨⟨r, actor, .get name⟩, .done (.ok view)⟩

/-- A job has read a schema in a step of its own, as it was stored then. -/
def HasRead (w : World MemoryStore.backend) (caller : Nat) (name : SchemaName) (a : Aggregate) :
    Prop :=
  ∃ w₁ w₂ e cached, StepOf start w caller w₁ w₂ e ∧
    e.talk = ⟨.store (.fetch name cached), Except.ok (some a)⟩ ∧
    w₁.stored? name.fullName = some a

/-- A job has removed a schema in a step of its own, as it was stored then. -/
def HasRemoved (w : World MemoryStore.backend) (caller : Nat) (name : SchemaName) (a : Aggregate) :
    Prop :=
  ∃ w₁ w₂ e, StepOf start w caller w₁ w₂ e ∧
    e.talk = ⟨.store (.remove name a.revision), Except.ok ()⟩ ∧
    w₁.stored? name.fullName = some a

section

variable {caller : Nat} {name : SchemaName} {view : SchemaView}

/-- What a job has read was stored. -/
lemma Reaches.hasRead (run : start.Reaches w) {cached : Bool}
    (read : (⟨.store (.fetch name cached), Except.ok (some a)⟩ : Talk) ∈ w.transcript caller) :
    w.HasRead caller name a := by
  obtain ⟨w₁, w₂, e, step, talk⟩ := run.exists_stepOf read
  exact ⟨w₁, w₂, e, cached, step, talk, step.stored?_eq talk⟩

lemma HasRead.written (h : w.HasRead caller name a) : a ∈ written w.history := by
  obtain ⟨w₁, w₂, e, cached, step, -, stored⟩ := h
  exact step.onward.written_subset (step.earlier.written_of_stored stored)

/-- A job shows what it has read, whether it removes it or not. -/
lemma Reaches.shows (run : start.Reaches w)
    (shown : w.Got caller name view ∨ w.Deleted caller name view) :
    ∃ a, w.HasRead caller name a ∧ view = a.view := by
  rcases shown with ⟨r, actor, ended⟩ | ⟨r, actor, ended⟩
  · obtain ⟨-, a, talks, rfl⟩ := run.kept.mayEnd ended
    exact ⟨a, run.hasRead (talks ▸ Registry.fetch_mem_opening), rfl⟩
  · obtain ⟨-, a, talks, rfl⟩ := run.kept.mayEnd ended
    exact ⟨a, run.hasRead (talks ▸ List.mem_append_left _ Registry.fetch_mem_opening), rfl⟩

/-- What a job shows that it has removed is what it has removed, if all registries compile first and
no id was drawn twice. -/
lemma Reaches.hasRemoved (run : start.Reaches w) (nodup : w.drawn.Nodup) (first : w.CompilesFirst)
    (deleted : w.Deleted caller name view) : ∃ a, w.HasRemoved caller name a ∧ view = a.view := by
  obtain ⟨r, actor, ended⟩ := deleted
  obtain ⟨-, a, talks, rfl⟩ := run.kept.mayEnd ended
  have read : w.HasRead caller name a :=
    run.hasRead (talks ▸ List.mem_append_left _ Registry.fetch_mem_opening)
  obtain ⟨w₁, w₂, e, step, talk⟩ :=
    run.exists_stepOf (talks ▸ List.mem_append_right _ (List.mem_singleton_self _))
  obtain ⟨b, stored, same⟩ := (step.performs (by rw [talk]; rfl)).2.removed.1
  have member := step.onward.written_subset (step.earlier.written_of_stored stored)
  obtain rfl := run.eq_of_revision nodup first member read.written same
  exact ⟨_, ⟨w₁, w₂, e, step, talk, stored⟩, rfl⟩

end

/-- **An artifact is bound to what is stored**, whatever the compiler answers and whichever
registries compile at once or later: it is one of the latest version and was compiled from it; and
an artifact that is attached later comes to the version that it was compiled for.  If all registries
compile before they store, there is an artifact with all that is stored, and with all that is
shown. -/
theorem artifact_bound (w : World MemoryStore.backend) (run : start.Reaches w) :
    (∀ key a d, w.stored? key = some a → a.artifact = some d → w.Binds a d) ∧
    (∀ caller w₁ w₂ e r actor name call, StepOf start w caller w₁ w₂ e →
      e.job = ⟨r, actor, .compileArtifact name⟩ → e.talk.effect? = some call →
      ∃ c d s, (⟨.compile c, Except.ok d⟩ : Talk) ∈ w₁.transcript caller ∧
        d.recordVersion = c.lastVersion ∧ w₁.stored? name.fullName = some s ∧
        s.revision = c.revision ∧ w₂.stored? name.fullName = some (c.withArtifact d) ∧
        (w.drawn.Nodup → c.bare = s.bare)) ∧
    (w.CompilesFirst →
      (∀ key a, w.stored? key = some a → ∃ d, a.artifact = some d ∧ w.Binds a d) ∧
      (∀ caller name view, w.Got caller name view ∨ w.Deleted caller name view →
        ∃ a d, w.HasRead caller name a ∧ view = a.view ∧ view.artifact = some d ∧ w.Binds a d) ∧
      (w.drawn.Nodup → ∀ caller name view, w.Deleted caller name view →
        ∃ a, w.HasRemoved caller name a ∧ view = a.view)) := by
  refine ⟨fun key a d stored carries => run.kept.binds (run.written_of_stored stored) carries,
    fun caller w₁ w₂ e r actor name call step compiles effect => step.attaches compiles effect,
    fun first => ?_⟩
  have bound {a : Aggregate} (member : a ∈ written w.history) :
      ∃ d, a.artifact = some d ∧ w.Binds a d := by
    obtain ⟨d, carries⟩ := run.kept.exists_artifact (run.kept.compilesFirst first) member
    exact ⟨d, carries, run.kept.binds member carries⟩
  refine ⟨fun key a stored => bound (run.written_of_stored stored),
    fun caller name view shown => ?_,
    fun nodup caller name view deleted => run.hasRemoved nodup first deleted⟩
  obtain ⟨a, read, rfl⟩ := run.shows shown
  obtain ⟨d, carries, binds⟩ := bound read.written
  exact ⟨a, d, read, rfl, binds.view_artifact carries, binds⟩

end World

namespace Rehearsal

/-- A registry that compiles before it stores. -/
def eager : Registry where
  settings := { uploadEnabled := true }
  hasCompiler := true

/-- A job of this registry that is answered some times. -/
def eagerly (caller : Nat) (task : Task) (answers : Nat) : List (Move MemoryStore.backend) :=
  .start ⟨eager, "ann", task⟩ :: List.replicate answers (.answer caller say)

/-- The schema is registered, shown and removed. -/
def lifetime : List (Move MemoryStore.backend) :=
  eagerly 0 (.register orders registration) 7 ++ eagerly 1 (.get orders) 2 ++
    eagerly 2 (.delete orders) 3

end Rehearsal

namespace World

open Rehearsal in
/-- An artifact is attached to a schema after its registration; and where it is compiled first, it
is shown with the schema, and when the schema is removed. -/
theorem artifact_of_lifetime :
    (start.after (registering ++ alone 1 (.compileArtifact orders) 4)).Binds
      (registered.withArtifact (artifact 1)) (artifact 1) ∧
    (start.after lifetime).Got 1 orders (registered.withArtifact (artifact 1)).view ∧
    (∃ a d, (start.after lifetime).HasRead 1 orders a ∧
      (registered.withArtifact (artifact 1)).view.artifact = some d ∧
      (start.after lifetime).Binds a d) ∧
    ∃ a, (start.after lifetime).HasRemoved 2 orders a ∧
      (registered.withArtifact (artifact 1)).view = a.view := by
  have later := (artifact_bound _ (reaches_after start
    (registering ++ alone 1 (.compileArtifact orders) 4))).1 orders.fullName
    (registered.withArtifact (artifact 1)) (artifact 1) rfl rfl
  have first : (start.after lifetime).CompilesFirst := by
    intro t ht
    have registries : (start.after lifetime).threads.map (·.job.registry) =
        List.replicate 3 eager := rfl
    have same := List.eq_of_mem_replicate (registries ▸ List.mem_map_of_mem ht)
    rw [same]
    exact ⟨rfl, rfl⟩
  have got : (start.after lifetime).Got 1 orders (registered.withArtifact (artifact 1)).view :=
    ⟨eager, "ann", rfl⟩
  obtain ⟨-, shown, removed⟩ := (artifact_bound _ (reaches_after start lifetime)).2.2 first
  obtain ⟨a, d, read, -, shows, binds⟩ := shown 1 orders _ (.inl got)
  exact ⟨later, got, ⟨a, d, read, shows, binds⟩,
    removed (nodup_drawn_after _ _) 2 orders _ ⟨eager, "ann", rfl⟩⟩

end World

end SchemaLedger
