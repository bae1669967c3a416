import SchemaLedger.Proofs.Concurrency.Artifacts

/-!
What a job shows of the schema that it removes.

* `World.exists_removal`: a job that removes a schema has read it, and shows what it has read.
* `World.removal_shown`: what was removed is what is shown, but for the artifacts that other jobs
  have attached between the read and the removal.  They leave the revision as it is, so that the
  removal is let through (`World.artifact_not_shown`).
-/

namespace SchemaLedger

/-- Views of schemas that differ in the artifact at most. -/
lemma Aggregate.view_of_bare {a b : Aggregate} (h : a.bare = b.bare) :
    b.view = { a.view with artifact := b.view.artifact } := by
  obtain ⟨name, audit, info, ledger, -, -⟩ := bare_eq_bare_iff.1 h
  simp only [view, lastVersion, name, audit, info, ledger]

/-- A job that removes a schema has read one under its name. -/
lemma Job.MayWrite.read_of_remove {j : Job} {past : List Talk} {name : SchemaName}
    {expected : Revision} (h : j.MayWrite past (.remove name expected)) :
    ∃ cached current,
      (⟨.store (.fetch name cached), Except.ok (some current)⟩ : Talk) ∈ past := by
  cases h with
  | delete valid => exact ⟨_, _, Registry.fetch_mem_opening⟩

namespace World

variable {moves : List (Move MemoryStore.backend)}

/-- A job has removed a schema, and was answered with a view. -/
def Deleted {B : Backend} (w : World B) (caller : Nat) (name : SchemaName) (view : SchemaView) :
    Prop :=
  ∃ r actor, w.threads[caller]? = some ⟨⟨r, actor, .delete name⟩, .done (.ok view)⟩

/-- The read and the removal of a job that has removed a schema. -/
lemma exists_removal {caller : Nat} {name : SchemaName} {view : SchemaView}
    (ended : (start.after moves).Deleted caller name view) :
    ∃ before x between e later cached current,
      (start.after moves).history = before ++ x :: (between ++ e :: later) ∧
      x.caller = caller ∧
      x.talk = ⟨.store (.fetch name cached), Except.ok (some current)⟩ ∧
      e.caller = caller ∧
      e.talk = ⟨.store (.remove name current.revision), Except.ok ()⟩ ∧ view = current.view := by
  have kept : (start.after moves).Kept := kept_after _ moves
  obtain ⟨r, actor, ended⟩ := ended
  obtain ⟨-, current, talks, rfl⟩ := kept.mayEnd ended
  obtain ⟨e, he, rfl, talk⟩ :=
    mem_talksOf.1 (talks ▸ List.mem_append_right _ (List.mem_singleton_self _))
  obtain ⟨before, later, split⟩ := List.append_of_mem he
  -- the job has read a schema before it wrote, and it reads once
  have may := kept.mayWrite before e later (.remove name current.revision) split
    (by rw [talk]; rfl)
  obtain ⟨cached, current', read⟩ := may.read_of_remove
  obtain rfl : current' = current := by
    have among : (⟨.store (.fetch name cached), Except.ok (some current')⟩ : Talk) ∈
        (start.after moves).transcript e.caller := by
      rw [transcript, split, talksOf_append]
      exact List.mem_append_left _ read
    rw [talks] at among
    rcases List.mem_append.1 among with among | among
    · exact Option.some.inj (Registry.eq_of_fetch_mem_opening among).2
    · cases List.mem_singleton.1 among
  obtain ⟨x, hx, same, asked⟩ := mem_talksOf.1 read
  obtain ⟨unread, between, rfl⟩ := List.append_of_mem hx
  exact ⟨unread, x, between, e, later, cached, _, by simpa using split, same, asked, rfl, talk, rfl⟩

/-- A job reads a schema after some moves, and removes what is stored under the name after some
more. -/
structure Removes (earlier between : List (Move MemoryStore.backend))
    (m : Move MemoryStore.backend) (caller : Nat) (name : SchemaName) (current removed : Aggregate)
    (since : List Event) : Prop where
  /-- What the job reads. -/
  found : (start.after earlier).stored? name.fullName = some current
  /-- The read, and all that was exchanged since. -/
  read : ∃ x cached, (start.after (earlier ++ between)).history =
    (start.after earlier).history ++ x :: since ∧ x.caller = caller ∧
      x.talk = ⟨.store (.fetch name cached), Except.ok (some current)⟩
  /-- What is in the store immediately before the removal. -/
  stored : (start.after (earlier ++ between)).stored? name.fullName = some removed
  /-- The removal is the job's own write. -/
  wrote : ∃ e, (start.after (earlier ++ between ++ [m])).history =
    (start.after (earlier ++ between)).history ++ [e] ∧ e.caller = caller ∧
      e.talk = ⟨.store (.remove name removed.revision), Except.ok ()⟩
  /-- Nothing is stored in its place. -/
  gone : (start.after (earlier ++ between ++ [m])).stored? name.fullName = none

/-- What was removed is what was read, with the artifact that was attached last since then. -/
lemma Removes.view_eq {earlier between : List (Move MemoryStore.backend)}
    {m : Move MemoryStore.backend} {caller : Nat} {name : SchemaName} {current removed : Aggregate}
    {since : List Event} (h : Removes earlier between m caller name current removed since)
    (same : current.revision = removed.revision) :
    removed.view = { current.view with
      artifact := (artifactsOf since removed.revision).getLast?.or current.view.artifact } := by
  obtain ⟨x, cached, history, -, talk⟩ := h.read
  have artifact : removed.view.artifact =
      (artifactsOf since removed.revision).getLast?.or current.view.artifact := by
    rw [view_artifact_of_stored h.stored, view_artifact_of_stored h.found, history, same,
      artifactsOf_append_read talk, List.getLast?_append]
  rw [← artifact]
  exact Aggregate.view_of_bare (bare_eq_of_stored h.found h.stored same)

/-- **What is shown is what was removed**, but for artifacts that other jobs have attached since
it was read. -/
theorem removal_shown (moves : List (Move MemoryStore.backend)) (caller : Nat) (name : SchemaName)
    (view : SchemaView) (deleted : (start.after moves).Deleted caller name view) :
    ∃ earlier between m rest current removed since, moves = earlier ++ between ++ m :: rest ∧
      Removes earlier between m caller name current removed since ∧ view = current.view ∧
      removed.view = { view with
        artifact := (artifactsOf since removed.revision).getLast?.or view.artifact } ∧
      ((∀ e ∈ since, e.attaches removed.revision = false) → view = removed.view) := by
  obtain ⟨before, x, since, e, after, cached, current, split, reads, asked, writes, talk, rfl⟩ :=
    exists_removal deleted
  have split' : (start.after moves).history = (before ++ x :: since) ++ e :: after := by
    simpa using split
  obtain ⟨writing, m, rest, rfl, history, wrote, -, performs⟩ :=
    moment_of_write split' (by rw [talk]; rfl)
  obtain ⟨⟨removed, stored, same⟩, gone⟩ := performs.removed
  have split₀ : (start.after writing).history = before ++ x :: (since ++ []) := by simpa using history
  obtain ⟨earlier, m', between, rfl, rfl, found⟩ := moment_of_read split₀ asked
  have removes : Removes earlier (m' :: between) m caller name current removed since :=
    ⟨found, ⟨x, cached, history, reads, asked⟩, stored,
      ⟨e, by rw [wrote, history], writes, same ▸ talk⟩, gone⟩
  have shown := removes.view_eq same.symm
  refine ⟨earlier, m' :: between, m, rest, current, removed, since, rfl, removes, rfl, shown,
    fun quiet => ?_⟩
  rw [same] at quiet shown
  rw [shown, artifactsOf_eq_nil_of_quiet split₀ asked quiet]
  rfl

open Rehearsal in
/-- A job that removes a schema with an artifact shows the artifact. -/
theorem removal_of_attached :
    (start.after (registering ++ alone 1 (.compileArtifact orders) 4 ++
      alone 2 (.delete orders) 3)).Deleted 2 orders (registered.withArtifact (artifact 1)).view ∧
    ∃ earlier between m current removed since,
      Removes earlier between m 2 orders current removed since ∧
      removed.view = { (registered.withArtifact (artifact 1)).view with
        artifact := (artifactsOf since removed.revision).getLast?.or (some (artifact 1)) } := by
  have deleted : (start.after (registering ++ alone 1 (.compileArtifact orders) 4 ++
      alone 2 (.delete orders) 3)).Deleted 2 orders
      (registered.withArtifact (artifact 1)).view := ⟨registry, "ann", rfl⟩
  obtain ⟨earlier, between, m, rest, current, removed, since, -, removes, -, shown, -⟩ :=
    removal_shown _ 2 orders _ deleted
  exact ⟨deleted, earlier, between, m, current, removed, since, removes, shown⟩

end World

namespace Rehearsal

/-- A job reads the schema that it is to remove, and another job attaches an artifact. -/
def overtaken : List (Move MemoryStore.backend) :=
  alone 1 (.delete orders) 2 ++ alone 2 (.compileArtifact orders) 4

end Rehearsal

namespace World

open Rehearsal in
/-- An artifact that is attached between the read and the removal is removed, but not shown. -/
theorem artifact_not_shown :
    (start.after (registering ++ overtaken ++ [.answer 1 say])).Deleted 1 orders registered.view ∧
    (start.after (registering ++ overtaken)).stored? orders.fullName =
      some (registered.withArtifact (artifact 1)) ∧
    (start.after (registering ++ overtaken ++ [.answer 1 say])).stored? orders.fullName = none ∧
    registered.view ≠ (registered.withArtifact (artifact 1)).view ∧
    registered.view.artifact = none ∧
    (registered.withArtifact (artifact 1)).view.artifact = some (artifact 1) := by
  have other : registered.view ≠ (registered.withArtifact (artifact 1)).view := by
    intro same
    cases congrArg SchemaView.artifact same
  exact ⟨⟨registry, "ann", rfl⟩, rfl, rfl, other, rfl, rfl⟩

end World

end SchemaLedger
