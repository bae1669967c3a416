import SchemaLedger.Proofs.Concurrency.Lineage
import SchemaLedger.Proofs.Dialogue.Questions
import SchemaLedger.Proofs.Store.Index

/-!
Runs of jobs of whose ids nothing is known.

* `World.Reaches`: steps one after the other.  The collaborators say what they like, and an id may
  be drawn again and again; the store may be any to start with.
* `World.Reaches.exists_step`: each exchange took place in a step of its own, between two worlds of
  the run.
* `World.Reaches.kept`, `World.Reaches.obey`: jobs keep to their part all the same, and to whatever
  each of their programs obeys by itself.
* `World.Reaches.exists_moves`: where no id was drawn twice, the steps are moves.
* `World.StepOf.stored?_eq`, `World.StepOf.performs`: what is read in a step is stored, and what is
  written in a step is what the job may write.  All that is stored was written before
  (`World.Reaches.written_of_stored`), and so was all that was read.
* `World.failure_changes_nothing`: no step of a job that fails, or that is to read only, changes
  what is stored; and a job that has asked for a write has asked for nothing else since.
-/

namespace SchemaLedger

namespace World

variable {B : Backend}

/-- One world leads to another, by any steps. -/
def Reaches (w w' : World B) : Prop :=
  Relation.ReflTransGen LooseStep w w'

/-- A step of a job on the way from one world to another, between two worlds, with its exchange. -/
structure StepOf (w w' : World B) (caller : Nat) (w₁ w₂ : World B) (e : Event) : Prop where
  earlier : w.Reaches w₁
  step : w₁.LooseStep w₂
  later : w₂.Reaches w'
  history : w₂.history = w₁.history ++ [e]
  own : e.caller = caller

/-- Moves lead from one world to another. -/
lemma reaches_after (w : World B) (moves : List (Move B)) : w.Reaches (w.after moves) :=
  after_induction .refl (fun _ _ run step => run.tail step.loose) moves

lemma reaches_of_step {w w' : World B} (step : w.LooseStep w') : w.Reaches w' :=
  Relation.ReflTransGen.single step

/-- A step that draws no id again is a move, if it does anything. -/
lemma LooseStep.eq_or_exists_move {w w' : World B} (step : w.LooseStep w')
    (nodup : w'.drawn.Nodup) : w' = w ∨ ∃ m, w' = w.perform m := by
  cases step with
  | idle => exact .inl rfl
  | started job => exact .inr ⟨.start job, rfl⟩
  | troubled t => exact .inr ⟨.trouble t, rfl⟩
  | @answered caller job q next say waiting =>
    have fresh : w.Fresh ⟨q, (w.reply say q).1⟩ := by
      intro id draws again
      simp only [drawn, List.filterMap_append, List.filterMap_cons, draws] at nodup
      exact List.disjoint_of_nodup_append nodup again (List.mem_cons_self ..)
    exact .inr ⟨.answer caller say, by simp only [perform, waiting, if_pos fresh]⟩

/-- A step starts a job at most, and replaces none. -/
lemma LooseStep.jobs_grow {w w' : World B} (step : w.LooseStep w') :
    w.threads.map (·.job) <+: w'.threads.map (·.job) := by
  cases step with
  | idle | troubled => exact List.prefix_refl _
  | started job => exact ⟨[job], by simp⟩
  | @answered caller job q next say waiting =>
    obtain ⟨bound, here⟩ := List.getElem?_eq_some_iff.1 waiting
    have kept : w.threads.map (·.job) =
        (w.threads.set caller ⟨job, next (w.reply say q).1⟩).map (·.job) := by
      refine List.ext_getElem (by simp) fun i hi _ => ?_
      by_cases same : i = caller
      · subst same
        simp [here]
      · simp [List.getElem_set_ne (Ne.symm same)]
    rw [kept]

/-- A call is answered by the store as it is before the step. -/
lemma LooseStep.answer_eq {w w' : World B} {e : Event} {c : StoreCall} {x : c.Answer}
    (step : w.LooseStep w') (added : w'.history = w.history ++ [e])
    (called : e.talk = ⟨.store c, x⟩) : (B.answer w.store c).1 = x := by
  cases step with
  | idle | started | troubled => simp at added
  | answered say waiting =>
    cases List.append_cancel_left added
    cases called
    rfl

namespace Reaches

variable {store : B.State} {w w' w'' : World B}

lemma trans (run : w.Reaches w') (more : w'.Reaches w'') : w.Reaches w'' :=
  Relation.ReflTransGen.trans run more

/-- What was exchanged stays exchanged. -/
lemma history_grows (run : w.Reaches w') : w.history <+: w'.history := by
  induction run with
  | refl => exact List.prefix_refl _
  | tail _ step ih =>
    rcases step.history with same | ⟨e, more⟩
    · rwa [same]
    · rw [more]
      exact ih.trans (List.prefix_append _ _)

/-- Jobs keep to their part. -/
lemma kept (run : (opened store).Reaches w) : w.Kept := by
  induction run with
  | refl => exact kept_after store []
  | tail _ step ih => exact ih.step step

/-- Jobs keep to any rule that each program obeys by itself. -/
lemma obey {mayAsk : Job → List Talk → Request → Prop}
    {mayEnd : (j : Job) → List Talk → Except Failure j.task.Result → Prop}
    (each : ∀ j : Job, Operating.Obeys (mayAsk j) (mayEnd j) j.program [])
    (run : (opened store).Reaches w) : w.Obey mayAsk mayEnd := by
  induction run with
  | refl => exact obey_after each store []
  | tail run step ih => exact ih.step each (kept run).owned step

/-- The step in which an exchange took place. -/
lemma exists_step (run : (opened store).Reaches w) {before later : List Event} {e : Event}
    (split : w.history = before ++ e :: later) :
    ∃ w₁ w₂, StepOf (opened store) w e.caller w₁ w₂ e ∧ w₁.history = before := by
  induction run generalizing later with
  | refl => simp [opened] at split
  | @tail w w' run step ih =>
    rcases step.history with same | ⟨x, more⟩
    · obtain ⟨w₁, w₂, of, history⟩ := ih (same ▸ split)
      exact ⟨w₁, w₂, { of with later := of.later.tail step }, history⟩
    · rcases eq_concat_cases (more ▸ split) with ⟨rfl, rfl, rfl⟩ | ⟨later', -, split'⟩
      · exact ⟨w, w', ⟨run, step, .refl, more, rfl⟩, rfl⟩
      · obtain ⟨w₁, w₂, of, history⟩ := ih split'
        exact ⟨w₁, w₂, { of with later := of.later.tail step }, history⟩

/-- The step in which a job had an exchange. -/
lemma exists_stepOf (run : (opened store).Reaches w) {caller : Nat} {x : Talk}
    (member : x ∈ w.transcript caller) :
    ∃ w₁ w₂ e, StepOf (opened store) w caller w₁ w₂ e ∧ e.talk = x := by
  obtain ⟨e, he, rfl, talk⟩ := mem_talksOf.1 member
  obtain ⟨before, later, split⟩ := List.append_of_mem he
  obtain ⟨w₁, w₂, step, -⟩ := run.exists_step split
  exact ⟨w₁, w₂, e, step, talk⟩

/-- The jobs that were started stay, in their order. -/
lemma jobs_grow (run : w.Reaches w') : w.threads.map (·.job) <+: w'.threads.map (·.job) := by
  induction run with
  | refl => exact List.prefix_refl _
  | tail _ step ih => exact ih.trans step.jobs_grow

/-- A job that was started is under way later. -/
lemma exists_thread (run : w.Reaches w') {t : Thread} (started : t ∈ w.threads) :
    ∃ t' ∈ w'.threads, t'.job = t.job :=
  List.mem_map.1 (run.jobs_grow.subset (List.mem_map_of_mem started))

/-- Where no id was drawn twice, moves have led there. -/
lemma exists_moves (run : w.Reaches w') (nodup : w'.drawn.Nodup) :
    ∃ moves, w' = w.after moves := by
  induction run with
  | refl => exact ⟨[], rfl⟩
  | tail run step ih =>
    have before := (reaches_of_step step).history_grows.filterMap fun e => e.talk.drawn?
    obtain ⟨moves, rfl⟩ := ih (nodup.sublist before.sublist)
    rcases step.eq_or_exists_move nodup with same | ⟨m, next⟩
    · exact ⟨moves, same⟩
    · exact ⟨moves ++ [m], by rw [next, after_append]; rfl⟩

end Reaches

namespace StepOf

variable {store : B.State} {w₀ w w₁ w₂ : World B} {caller : Nat} {e : Event}

/-- Its exchange stays in the history. -/
lemma mem_history (h : StepOf (opened store) w caller w₁ w₂ e) : e ∈ w.history :=
  h.later.history_grows.subset (by rw [h.history]; simp)

/-- The way from before it. -/
lemma onward (h : StepOf w₀ w caller w₁ w₂ e) : w₁.Reaches w :=
  (reaches_of_step h.step).trans h.later

/-- A call is answered by the store as it is then. -/
lemma answer_eq {c : StoreCall} {x : c.Answer} (h : StepOf w₀ w caller w₁ w₂ e)
    (called : e.talk = ⟨.store c, x⟩) : (B.answer w₁.store c).1 = x :=
  h.step.answer_eq h.history called

/-- A job asks for a write only where it may. -/
lemma mayWrite {c : StoreCall} {x : c.Answer} (h : StepOf (opened store) w caller w₁ w₂ e)
    (called : e.talk = ⟨.store c, x⟩) (writes : c.isWrite = true) :
    e.job.MayWrite (w₁.transcript e.caller) c := by
  have added := h.history
  cases h.step with
  | idle | started | troubled => simp at added
  | answered say waiting =>
    cases List.append_cancel_left added
    cases called
    exact (h.earlier.kept.obeys _ _ waiting).1 c rfl writes

/-- Its exchange stays one of the job's. -/
lemma mem_transcript (h : StepOf (opened store) w caller w₁ w₂ e) : e.talk ∈ w.transcript caller :=
  mem_talksOf.2 ⟨e, h.mem_history, h.own, rfl⟩

end StepOf

/-! ### A job writes once, and last -/

variable {store : B.State} {w : World B}

/-- Before its last exchange a job has not asked for a write. -/
lemma Reaches.isQuiet_dropLast (run : (opened store).Reaches w) (caller : Nat) :
    IsQuiet (w.transcript caller).dropLast := by
  induction run with
  | refl => simp [transcript, talksOf, opened, IsQuiet]
  | @tail w w' run step ih =>
    cases step with
    | idle | started | troubled => exact ih
    | @answered caller' job q next say waiting =>
      simp only [transcript, talksOf_append]
      by_cases same : caller' = caller
      · -- the job was still asking, so that it had not asked for a write
        subst same
        have asks := Reaches.obey Registry.endsWithCall_program run caller' _ waiting
        simpa [transcript, talksOf] using asks.1.quiet
      · simpa [transcript, talksOf, same] using ih

/-- A job that has asked for a write has come to its end. -/
lemma Reaches.done_of_write (run : (opened store).Reaches w) {caller : Nat} {t : Thread}
    (started : w.threads[caller]? = some t) (wrote : ¬ IsQuiet (w.transcript caller)) :
    ∃ r, t.rest = .done r := by
  have obeys := Reaches.obey Registry.endsWithCall_program run caller t started
  cases rest : t.rest with
  | done r => exact ⟨r, rfl⟩
  | ask q next =>
    rw [rest] at obeys
    exact absurd obeys.1.quiet wrote

end World

/-! ### What is stored was written -/

namespace World

variable {store : MemoryStore} {w w₁ w₂ : World MemoryStore.backend} {caller : Nat} {e : Event}

/-- A step brings about no more than an outcome. -/
lemma StepOf.outcome (h : StepOf (opened store) w caller w₁ w₂ e) : w₁.Outcome w₂ :=
  outcome_of_step (h.earlier.kept.step h.step) h.step

/-- What is read in a step is stored. -/
lemma StepOf.stored?_eq {name : SchemaName} {cached : Bool} {found : Option Aggregate}
    (h : StepOf (opened store) w caller w₁ w₂ e)
    (read : e.talk = ⟨.store (.fetch name cached), Except.ok found⟩) :
    w₁.stored? name.fullName = found :=
  (h.outcome.of_concat h.history).2.2 name cached found read

/-- What is written in a step is what the job may write then. -/
lemma StepOf.performs {call : StoreCall} (h : StepOf (opened store) w caller w₁ w₂ e)
    (effect : e.talk.effect? = some call) :
    e.job.MayWrite (w₁.transcript e.caller) call ∧ w₁.tables.Performs call w₂.tables :=
  (h.outcome.of_concat h.history).2.1 call effect

/-- Subjects and schemas come in pairs all the way. -/
lemma Reaches.isPaired (run : (opened store).Reaches w) (paired : store.tables.IsPaired) :
    w.tables.IsPaired := by
  induction run with
  | refl => exact paired
  | tail run step ih =>
    cases outcome_of_step ((kept run).step step) step with
    | silent _ tables => exact tables ▸ ih
    | quiet _ tables _ _ => exact tables ▸ ih
    | wrote _ _ _ performs => exact ih.performs performs

/-- What was written stays written. -/
lemma Reaches.written_subset (run : w₁.Reaches w₂) : written w₁.history ⊆ written w₂.history :=
  (run.history_grows.filterMap _).subset

/-- What is stored was written, if nothing was stored at first. -/
lemma Reaches.written_of_stored (run : start.Reaches w) {key : String} {a : Aggregate}
    (stored : w.stored? key = some a) : a ∈ written w.history := by
  induction run generalizing key a with
  | refl => cases stored
  | tail run step ih =>
    have longer := (reaches_of_step step).written_subset
    cases outcome_of_step ((kept run).step step) step with
    | silent _ tables => exact longer (ih (by rwa [stored?, tables] at stored))
    | quiet _ tables _ _ => exact longer (ih (by rwa [stored?, tables] at stored))
    | wrote history effect _ performs =>
      rcases performs.get?_cases stored with ⟨payload, -⟩ | ⟨before, -⟩
      · rw [history, written_concat, Event.written?, effect, Option.bind_some, payload]
        exact List.mem_append_right _ (List.mem_singleton_self a)
      · exact longer (ih before)

/-- So was all that was read. -/
lemma Reaches.written_of_read (run : start.Reaches w) (member : e ∈ w.history) {name : SchemaName}
    {cached : Bool} {a : Aggregate}
    (read : e.talk = ⟨.store (.fetch name cached), Except.ok (some a)⟩) :
    a ∈ written w.history := by
  obtain ⟨before, later, split⟩ := List.append_of_mem member
  obtain ⟨w₁, w₂, step, -⟩ := run.exists_step split
  exact step.onward.written_subset (step.earlier.written_of_stored (step.stored?_eq read))

end World

/-! ### What fails changes nothing -/

/-- The task is to read only. -/
def Task.isRead : Task → Bool
  | .get _ | .getBySubject _ | .listBySubject _ => true
  | _ => false

/-- A job that is to read only does not write. -/
lemma Job.MayWrite.isRead_eq_false {j : Job} {past : List Talk} {call : StoreCall}
    (h : j.MayWrite past call) : j.task.isRead = false := by
  cases h <;> rfl

namespace World

variable {store : MemoryStore} {w w₁ w₂ : World MemoryStore.backend} {caller : Nat} {e : Event}

/-- A step that brings nothing about leaves the tables as they are. -/
lemma StepOf.tables_eq (h : StepOf (opened store) w caller w₁ w₂ e)
    (quiet : ∀ call, e.job.MayWrite (w₁.transcript e.caller) call → e.talk.effect? ≠ some call) :
    w₂.tables = w₁.tables := by
  cases effect : e.talk.effect? with
  | some call => exact absurd effect (quiet call (h.performs effect).1)
  | none => exact (h.outcome.of_concat h.history).1 effect

/-- **What fails changes nothing**, whatever the collaborators say and whatever other jobs do in
between: no step of a job that failed, or that is to read only, has changed what is stored or the
index of subjects.  No job asks for a write but in its last exchange. -/
theorem failure_changes_nothing (store : MemoryStore) (w : World MemoryStore.backend)
    (run : (opened store).Reaches w) (caller : Nat) (t : Thread)
    (started : w.threads[caller]? = some t) :
    ((∃ e, t.rest = .done (.error e)) ∨ t.job.task.isRead = true →
      ∀ w₁ w₂ e, StepOf (opened store) w caller w₁ w₂ e → w₂.tables = w₁.tables) ∧
    IsQuiet (w.transcript caller).dropLast ∧
    (¬ IsQuiet (w.transcript caller) → ∃ r, t.rest = .done r) := by
  refine ⟨fun harmless w₁ w₂ e h => h.tables_eq fun call may effect => ?_,
    run.isQuiet_dropLast caller, run.done_of_write started⟩
  obtain ⟨t', started', same⟩ := run.kept.owned e h.mem_history
  rw [h.own, started] at started'
  cases started'
  rcases harmless with ⟨failure, failed⟩ | reads
  · obtain ⟨job, rest⟩ := t
    obtain rfl : rest = .done (.error failure) := failed
    rw [run.kept.mayEnd started e.talk h.mem_transcript] at effect
    cases effect
  · rw [same, may.isRead_eq_false] at reads
    cases reads

end World

namespace Rehearsal

/-- A job reads the schema that it is to change, and another job changes it first. -/
def outrun : List (Move MemoryStore.backend) :=
  .start (job (.update orders change)) :: List.replicate 5 (.answer 1 say) ++
    alone 2 (.update orders change) 6

end Rehearsal

namespace World

open Rehearsal in
/-- A change that comes too late fails with a conflict, and leaves the change of the other job. -/
theorem failure_of_outrun :
    (start.after (registering ++ outrun ++ [.answer 1 say])).threads[1]? =
      some ⟨job (.update orders change), .done (.error (.conflict orders.fullName 1))⟩ ∧
    (start.after (registering ++ outrun)).stored? orders.fullName = some changed ∧
    (start.after (registering ++ outrun ++ [.answer 1 say])).tables =
      (start.after (registering ++ outrun)).tables := by
  have run := reaches_after start (registering ++ outrun ++ [.answer 1 say])
  have step : StepOf start (start.after (registering ++ outrun ++ [.answer 1 say])) 1
      (start.after (registering ++ outrun))
      (start.after (registering ++ outrun ++ [.answer 1 say]))
      ⟨1, job (.update orders change), ⟨.store (.replace orders changed registered.revision),
        Except.error (.conflict orders.fullName registered.revision changed.revision)⟩⟩ :=
    { earlier := reaches_after _ _
      step := (step_concat _ _ _).loose
      later := .refl
      history := rfl
      own := rfl }
  have harmless := (failure_changes_nothing {} _ run 1 _ rfl).1 (.inl ⟨_, rfl⟩)
  exact ⟨rfl, rfl, harmless _ _ _ step⟩

end World

end SchemaLedger
