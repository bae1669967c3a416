import SchemaLedger.Proofs.Concurrency.OnFiles
import SchemaLedger.Proofs.Dialogue.Reasons

/-!
Where conflicts come from.

* `World.Candid`: what a store may show in one step.  A read shows what is stored; a conflict is
  reported where another revision is stored than the expected one; and the revision under a full
  name changes only when a schema is registered, changed or removed under it.
  `World.CandidAllTheWay` says so of all steps of a run.
* `World.candid_of_step`, `World.Sheltered.candid`: so it is with the store in memory, and with the
  store on files, whose reads may come from the cache.
* `World.Overtaken`: another job has written between the read and the write of a job.
* `World.conflicts_have_causes`: a job that ends with a conflict was overtaken; one that had the
  store to itself does not end with a conflict.
-/

namespace SchemaLedger

/-- The task registers, changes or removes a schema. -/
def Task.isEdit : Task → Bool
  | .register _ _ => true
  | .update _ _ => true
  | .delete _ => true
  | _ => false

/-- The revision that a write expects. -/
def StoreCall.expected? : StoreCall → Option Revision
  | .replace _ _ expected => some expected
  | .remove _ expected => some expected
  | _ => none

lemma StoreCall.isWrite_of_expected {c : StoreCall} {r : Revision} (expects : c.expected? = some r) :
    c.isWrite = true := by
  cases c with
  | replace | remove => rfl
  | fetch | fetchRecord | fetchRecords | register => cases expects

/-- A job expects the revision that it has read. -/
lemma Job.MayWrite.read_of_expected {j : Job} {past : List Talk} {c : StoreCall} {r : Revision}
    (may : j.MayWrite past c) (expects : c.expected? = some r) :
    ∃ cached current, (⟨.store (.fetch j.task.name cached), Except.ok (some current)⟩ : Talk) ∈ past ∧
      current.revision = r := by
  cases may with
  | register => cases expects
  | update =>
    cases expects
    exact ⟨_, _, List.mem_append_left _ (List.mem_append_left _ Registry.fetch_mem_opening), rfl⟩
  | delete =>
    cases expects
    exact ⟨_, _, Registry.fetch_mem_opening, rfl⟩
  | attach =>
    cases expects
    exact ⟨_, _, List.mem_append_left _ Registry.fetch_mem_opening, rfl⟩

/-- An artifact that is attached leaves the revision as it was.  All other writes are edits. -/
lemma Job.MayWrite.isEdit_or {j : Job} {past : List Talk} {c : StoreCall} (may : j.MayWrite past c) :
    j.task.isEdit = true ∨ ∃ name a, c = .replace name a a.revision := by
  cases may with
  | register | update | delete => exact .inl rfl
  | attach => exact .inr ⟨_, _, rfl⟩

namespace World

variable {B : Backend} {w w' : World B}

/-- What the store may show in one step. -/
structure Candid (view : B.State → SchemaName → Option Aggregate) (w w' : World B) : Prop where
  honest : ∀ e name cached found, w'.history = w.history ++ [e] →
    e.talk = ⟨.store (.fetch name cached), Except.ok found⟩ → view w.store name = found
  late : ∀ e c key expected found, w'.history = w.history ++ [e] →
    e.talk = ⟨.store c, Except.error (.conflict key expected found)⟩ →
      ∃ r b, c.expected? = some r ∧ view w.store c.name = some b ∧ b.revision ≠ r
  edits : ∀ name, (view w'.store name).map Aggregate.revision ≠
      (view w.store name).map Aggregate.revision →
    ∃ e c, w'.history = w.history ++ [e] ∧ e.talk.effect? = some c ∧
      c.name.fullName = name.fullName ∧ e.job.task.isEdit = true

/-- The store is candid in every step on the way. -/
def CandidAllTheWay (view : B.State → SchemaName → Option Aggregate) (store : B.State)
    (w : World B) : Prop :=
  ∀ w₁ w₂, (opened store).Reaches w₁ → w₁.LooseStep w₂ → w₂.Reaches w → Candid view w₁ w₂

/-! ### What changes a revision -/

/-- Between two worlds of a run in which the store is candid, a revision changes only by an edit
under its full name. -/
lemma exists_edit {view : B.State → SchemaName → Option Aggregate} {store : B.State}
    {w₁ w₂ : World B} {name : SchemaName} (candid : CandidAllTheWay view store w)
    (run : (opened store).Reaches w₁) (on : w₁.Reaches w₂) (later : w₂.Reaches w)
    (changed : (view w₂.store name).map Aggregate.revision ≠
      (view w₁.store name).map Aggregate.revision) :
    ∃ more, w₂.history = w₁.history ++ more ∧ ∃ e ∈ more, ∃ c, e.talk.effect? = some c ∧
      c.name.fullName = name.fullName ∧ e.job.task.isEdit = true := by
  induction on with
  | refl => exact absurd rfl changed
  | @tail w₂ w₃ on step ih =>
    by_cases same : (view w₃.store name).map Aggregate.revision =
        (view w₂.store name).map Aggregate.revision
    · obtain ⟨more, history, e, he, edit⟩ :=
        ih ((reaches_of_step step).trans later) fun still => changed (same.trans still)
      obtain ⟨rest, grown⟩ := (reaches_of_step step).history_grows
      exact ⟨more ++ rest, by rw [← grown, history, List.append_assoc], e,
        List.mem_append_left _ he, edit⟩
    · obtain ⟨e, c, added, edit⟩ := (candid w₂ w₃ (run.trans on) step later).edits name same
      obtain ⟨more, history⟩ := Reaches.history_grows on
      exact ⟨more ++ [e], by rw [added, ← history, List.append_assoc], e, by simp, c, edit⟩

/-! ### Jobs that were overtaken -/

/-- Between the read and the write of a job, another job has registered, changed or removed the
schema under the full name, and has succeeded. -/
structure Overtaken (w : World B) (caller : Nat) (name : SchemaName) (read : Event)
    (between : List Event) (write : Event) : Prop where
  split : ∃ before later, w.history = before ++ read :: (between ++ write :: later)
  reads : read.caller = caller ∧ ∃ cached current,
    read.talk = ⟨.store (.fetch name cached), Except.ok (some current)⟩
  writes : write.caller = caller ∧ ∃ c key expected found, c.isWrite = true ∧ c.name = name ∧
    write.talk = ⟨.store c, Except.error (.conflict key expected found)⟩
  overtaker : ∃ e ∈ between, ∃ t result, e.caller ≠ caller ∧ e.job.task.isEdit = true ∧
    e.job.task.name.fullName = name.fullName ∧ e.talk.effect? ≠ none ∧
    w.threads[e.caller]? = some t ∧ t.rest = .done (.ok result)

/-- A job that has written has succeeded. -/
lemma Reaches.succeeds_of_effect {store : B.State} (run : (opened store).Reaches w) {e : Event}
    (member : e ∈ w.history) (wrote : e.talk.effect? ≠ none) :
    ∃ t result, w.threads[e.caller]? = some t ∧ t.rest = .done (.ok result) := by
  obtain ⟨t, started, -⟩ := run.kept.owned e member
  have own : e.talk ∈ w.transcript e.caller := mem_talksOf.2 ⟨e, member, rfl, rfl⟩
  have asked : ¬ IsQuiet (w.transcript e.caller) := by
    intro quiet
    obtain ⟨c, effect⟩ := Option.ne_none_iff_exists'.1 wrote
    obtain ⟨question, writes⟩ := question_of_effect? effect
    cases writes.symm.trans (quiet e.talk own c question)
  obtain ⟨result, done⟩ := run.done_of_write started asked
  cases result with
  | ok result => exact ⟨t, result, started, done⟩
  | error failure =>
    obtain ⟨job, rest⟩ := t
    obtain rfl : rest = .done (.error failure) := done
    exact absurd (run.kept.mayEnd started e.talk own) wrote

/-- A job that asks for a write that expects a revision has read it, in a step before. -/
lemma StepOf.exists_read {store : B.State} {caller : Nat} {w₁ w₂ : World B} {e : Event}
    {c : StoreCall} {x : c.Answer} {r : Revision} (h : StepOf (opened store) w caller w₁ w₂ e)
    (called : e.talk = ⟨.store c, x⟩) (expects : c.expected? = some r) :
    ∃ w₃ w₄ read cached current, StepOf (opened store) w₁ caller w₃ w₄ read ∧
      read.talk = ⟨.store (.fetch c.name cached), Except.ok (some current)⟩ ∧
      current.revision = r := by
  have may := h.mayWrite called (StoreCall.isWrite_of_expected expects)
  obtain ⟨cached, current, read, same⟩ := may.read_of_expected expects
  obtain ⟨w₃, w₄, x, step, asked⟩ := h.earlier.exists_stepOf read
  rw [← may.name_eq] at asked
  exact ⟨w₃, w₄, x, cached, current, h.own ▸ step, asked, same⟩

/-- A conflict is reported if the revision has changed since it was read, and so there was an edit
in between. -/
lemma exists_edit_of_conflict {view : B.State → SchemaName → Option Aggregate} {store : B.State}
    (candid : CandidAllTheWay view store w) {caller : Nat} {w₁ w₂ : World B} {write : Event}
    {c : StoreCall} {key : String}
    {expected found : Revision} (late : StepOf (opened store) w caller w₁ w₂ write)
    (reported : write.talk = ⟨.store c, Except.error (.conflict key expected found)⟩) :
    c.isWrite = true ∧ ∃ before read between, w₁.history = before ++ read :: between ∧
      read.caller = caller ∧
      (∃ cached current,
        read.talk = ⟨.store (.fetch c.name cached), Except.ok (some current)⟩) ∧
      ∃ e ∈ between, ∃ c', e.talk.effect? = some c' ∧ c'.name.fullName = c.name.fullName ∧
        e.job.task.isEdit = true := by
  obtain ⟨r, b, expects, stored, other⟩ := (candid w₁ w₂ late.earlier late.step late.later).late
    write c key expected found late.history reported
  obtain ⟨w₃, w₄, read, cached, current, early, asked, same⟩ := late.exists_read reported expects
  have reading := candid w₃ w₄ early.earlier early.step (early.later.trans late.onward)
  have honest := reading.honest read c.name cached _ early.history asked
  -- the read itself changes nothing
  have still : (view w₄.store c.name).map Aggregate.revision =
      (view w₃.store c.name).map Aggregate.revision := by
    by_contra changed
    obtain ⟨e, c', added, effect, -⟩ := reading.edits _ changed
    cases List.append_cancel_left (early.history.symm.trans added)
    rw [asked] at effect
    cases effect
  have changed : (view w₁.store c.name).map Aggregate.revision ≠
      (view w₄.store c.name).map Aggregate.revision := by
    rw [still, honest, stored, Option.map_some, Option.map_some, same]
    exact fun equal => other (Option.some.inj equal)
  obtain ⟨between, further, edit⟩ :=
    exists_edit candid (early.earlier.tail early.step) early.later late.onward changed
  refine ⟨StoreCall.isWrite_of_expected expects, w₃.history, read, between, ?_, early.own,
    ⟨cached, current, asked⟩, edit⟩
  rw [further, early.history, List.append_assoc, List.singleton_append]

/-- **A job that ends with a conflict was overtaken**, if the store is candid. -/
lemma overtaken_of_candid {view : B.State → SchemaName → Option Aggregate} {store : B.State}
    (run : (opened store).Reaches w) (candid : CandidAllTheWay view store w) {caller : Nat}
    {t : Thread} {failure : Failure} (started : w.threads[caller]? = some t)
    (failed : t.rest = .done (.error failure)) (retryable : failure.isRetryable = true) :
    ∃ read between write, w.Overtaken caller t.job.task.name read between write := by
  obtain ⟨job, rest⟩ := t
  obtain rfl : rest = .done (.error failure) := failed
  have due := Reaches.obey (fun j => Registry.explains_program j) run caller _ started failure rfl
  obtain ⟨c, key, expected, found, reported⟩ := due.conflict retryable
  obtain ⟨w₁, w₂, write, late, talk⟩ := run.exists_stepOf reported
  obtain ⟨writes, before, read, between, split, mine, asked, e, he, c', effect, name, edit⟩ :=
    exists_edit_of_conflict candid late talk
  -- the call is about the name of the job
  obtain ⟨t, started', own⟩ := run.kept.owned write late.mem_history
  rw [late.own, started] at started'
  cases started'
  have named := (late.mayWrite talk writes).name_eq
  rw [← own] at named
  -- whoever has written in between is another job, which has succeeded
  have member : e ∈ w.history := late.onward.history_grows.subset (split ▸ by simp [he])
  obtain ⟨t, result, ended, succeeded⟩ :=
    run.succeeds_of_effect member (effect ▸ Option.some_ne_none c')
  obtain ⟨before', later', split'⟩ := List.append_of_mem member
  have named' := (run.kept.mayWrite before' e later' c' split' effect).name_eq
  have other : e.caller ≠ caller := by
    intro same
    rw [run.kept.mayEnd started e.talk (mem_talksOf.2 ⟨e, member, same, rfl⟩)] at effect
    cases effect
  obtain ⟨later, whole⟩ := late.later.history_grows
  refine ⟨read, between, write, ⟨before, later, ?_⟩, ⟨mine, named ▸ asked⟩,
    ⟨late.own, c, key, expected, found, writes, named, talk⟩, e, he, t, result, other, edit,
    named' ▸ named ▸ name, effect ▸ Option.some_ne_none c', ended, succeeded⟩
  rw [← whole, late.history, split]
  simp

/-- What holds of the conflicts of a run. -/
structure ConflictsHaveCauses (start w : World B) : Prop where
  /-- A job that ended with a conflict was overtaken between its read and its write. -/
  overtaken : ∀ caller t failure, w.threads[caller]? = some t →
    t.rest = .done (.error failure) → failure.isRetryable = true →
      ∃ read between write, w.Overtaken caller t.job.task.name read between write
  /-- A job that was started at some moment, and since which no other job has written, has not ended
  with a conflict. -/
  undisturbed : ∀ w₀ caller t failure, start.Reaches w₀ → w₀.Reaches w →
    w₀.threads.length ≤ caller → w.threads[caller]? = some t →
    (∀ e ∈ w.history.drop w₀.history.length, e.caller ≠ caller → e.talk.effect? = none) →
      t.rest = .done (.error failure) → failure.isRetryable = false

/-- What was exchanged before the first exchange of a job that started later. -/
lemma prefix_of_late {w₀ : World B} (owned : w₀.Owned) (grows : w₀.history <+: w.history)
    {before later : List Event} {e : Event} (split : w.history = before ++ e :: later)
    (late : w₀.threads.length ≤ e.caller) : w₀.history <+: before := by
  have outside : e ∉ w₀.history := by
    intro member
    obtain ⟨t, started, -⟩ := owned e member
    have early := (List.getElem?_eq_some_iff.1 started).1
    omega
  have first : before ++ [e] <+: w.history := ⟨later, by simp [split]⟩
  rcases List.prefix_or_prefix_of_prefix grows first with shorter | longer
  · rcases List.prefix_concat_iff.1 shorter with same | shorter
    · exact absurd (same ▸ by simp) outside
    · exact shorter
  · exact absurd (longer.subset (by simp)) outside

/-- Conflicts have causes, if the store is candid. -/
lemma conflictsHaveCauses_of_candid {view : B.State → SchemaName → Option Aggregate}
    {store : B.State} (run : (opened store).Reaches w) (candid : CandidAllTheWay view store w) :
    ConflictsHaveCauses (opened store) w where
  overtaken := fun _ _ _ started failed retryable =>
    overtaken_of_candid run candid started failed retryable
  undisturbed := by
    intro w₀ caller t failure early later fresh started quiet failed
    by_contra retryable
    obtain ⟨read, between, write, cut⟩ :=
      overtaken_of_candid run candid started failed (Bool.not_eq_false _ ▸ retryable)
    obtain ⟨before, after, split⟩ := cut.split
    obtain ⟨e, he, t', result, other, -, -, wrote, -⟩ := cut.overtaker
    obtain ⟨rest, grown⟩ := prefix_of_late early.kept.owned later.history_grows split
      (cut.reads.1 ▸ fresh)
    refine wrote (quiet e ?_ other)
    rw [split, ← grown, List.append_assoc, List.drop_left]
    simp [he]

/-! ### Both stores are candid -/

end World

/-- The schema under the full name of a name. -/
def MemoryStore.shown (s : MemoryStore) (name : SchemaName) : Option Aggregate :=
  s.tables.schemas.get? name.fullName

/-- A conflict is reported where another revision is stored than the expected one. -/
lemma Tables.outdated_of_conflict {t : Tables} {c : StoreCall} {key : String}
    {expected found : Revision}
    (reported : (t.answer c).1 = Except.error (.conflict key expected found)) :
    ∃ r b, c.expected? = some r ∧ t.schemas.get? c.name.fullName = some b ∧ b.revision ≠ r := by
  cases c with
  | fetch => cases reported
  | fetchRecord name =>
    simp only [answer] at reported
    split at reported
    · exact absurd reported (Shelf.selectRecord_ne_conflict _ name key expected found)
    · cases reported
  | fetchRecords => cases reported
  | register name a =>
    rcases MemoryStore.answer_register_error (s := { tables := t }) reported with
      ⟨message, no⟩ | ⟨no, -⟩ | ⟨full, no, -⟩
    · cases no
    · cases no
    · cases no
  | replace name a r =>
    cases checked : checkRevision name.fullName (t.schemas.get? name.fullName) r with
    | ok u => simp [answer, replace, checked, bind, Except.bind] at reported
    | error e =>
      simp only [answer, replace, checked, bind, Except.bind] at reported
      cases reported
      obtain ⟨b, stored, other⟩ := Shelf.of_checkRevision_conflict checked
      exact ⟨r, b, rfl, stored, other⟩
  | remove name r =>
    cases checked : checkRevision name.fullName (t.schemas.get? name.fullName) r with
    | ok u => simp [answer, remove, checked, bind, Except.bind] at reported
    | error e =>
      simp only [answer, remove, checked, bind, Except.bind] at reported
      cases reported
      obtain ⟨b, stored, other⟩ := Shelf.of_checkRevision_conflict checked
      exact ⟨r, b, rfl, stored, other⟩

/-- So it is with the store that the tables are in, which reports no other conflicts. -/
lemma MemoryStore.outdated_of_conflict {s : MemoryStore} {c : StoreCall} {key : String}
    {expected found : Revision}
    (reported : (s.answer c).1 = Except.error (.conflict key expected found)) :
    ∃ r b, c.expected? = some r ∧ s.shown c.name = some b ∧ b.revision ≠ r := by
  simp only [answer] at reported
  split at reported
  · split at reported
    · cases reported
    · exact Tables.outdated_of_conflict reported
  · exact Tables.outdated_of_conflict reported

/-- An artifact that is attached leaves all revisions as they were. -/
lemma Tables.Performs.revision_of_replace {t t' : Tables} {name : SchemaName} {a : Aggregate}
    (performs : t.Performs (.replace name a a.revision) t') (key : String) :
    (t'.schemas.get? key).map Aggregate.revision = (t.schemas.get? key).map Aggregate.revision := by
  by_cases same : key = name.fullName
  · obtain ⟨b, stored, revision⟩ := performs.replaced
    have written : t'.schemas.get? name.fullName = some a := performs.get?_payload rfl
    rw [same, written, stored, Option.map_some, Option.map_some, revision]
  · rw [performs.get?_of_ne same]

namespace World

section Memory

variable {w w' : World MemoryStore.backend}

/-- The store in memory is candid. -/
lemma candid_of_step (kept' : w'.Kept) (step : w.LooseStep w') :
    Candid (B := MemoryStore.backend) MemoryStore.shown w w' where
  honest := by
    intro e name cached found added asked
    exact ((outcome_of_step kept' step).of_concat added).2.2 name cached found asked
  late := by
    intro e c key expected found added asked
    exact MemoryStore.outdated_of_conflict (step.answer_eq added asked)
  edits := by
    intro name
    have unchanged (same : w'.tables = w.tables) :
        (MemoryStore.shown w'.store name).map Aggregate.revision =
          (MemoryStore.shown w.store name).map Aggregate.revision :=
      congrArg (fun t : Tables => (t.schemas.get? name.fullName).map Aggregate.revision) same
    intro changed
    cases outcome_of_step kept' step with
    | silent _ tables => exact absurd (unchanged tables) changed
    | quiet _ tables _ _ => exact absurd (unchanged tables) changed
    | @wrote e c added effect may performs =>
      refine ⟨e, c, added, effect, ?_, ?_⟩
      · by_contra other
        exact changed (congrArg (Option.map _) (performs.get?_of_ne (Ne.symm other)))
      · rcases may.isEdit_or with edit | ⟨name', a, rfl⟩
        · exact edit
        · exact absurd (performs.revision_of_replace name.fullName) changed

end Memory

end World

namespace Shelf

variable {s s' : Shelf} {c : StoreCall} {name n : SchemaName} {a : Aggregate}

lemma IsAheadOf.exists_revision (ahead : s.IsAheadOf c) :
    ∃ r b, c.expected? = some r ∧ s.find c.name = some b ∧ b.revision ≠ r := by
  cases c with
  | replace name a r =>
    obtain ⟨b, found, other⟩ := ahead
    exact ⟨r, b, rfl, found, other⟩
  | remove name r =>
    obtain ⟨b, found, other⟩ := ahead
    exact ⟨r, b, rfl, found, other⟩
  | fetch | fetchRecord | fetchRecords | register => exact ahead.elim

/-- A change of a subject is seen under the full name of its schema only. -/
lemma find_update_of_ne {x : Option Aggregate} (new : ∀ a, x = some a → a.name.schema = name.schema)
    (old : ∀ b, s name.subjectRef = some b → b.name.schema = name.schema)
    (other : n.fullName ≠ name.fullName) :
    find (Function.update s name.subjectRef x) n = s.find n := by
  rw [find_update]
  split
  · rename_i same
    have apart : name.schema ≠ n.schema := by
      intro schema
      rw [SchemaName.fullName_eq, SchemaName.fullName_eq, same, schema] at other
      exact other rfl
    have absent {x : Option Aggregate} (all : ∀ a, x = some a → a.name.schema = name.schema) :
        (x.filter fun a => a.name.schema == n.schema) = none := by
      refine Option.filter_eq_none_iff.2 fun a ha => ?_
      rw [all a ha, beq_iff_eq]
      exact apart
    rw [absent new, find, same, absent old]
  · rfl

/-- All else stays as it was. -/
lemma Performs.find_of_ne (performs : s.Performs c s') (proper : c.IsProper)
    (other : n.fullName ≠ c.name.fullName) : s'.find n = s.find n := by
  cases performs with
  | @register name a free =>
    refine find_update_of_ne (fun b hb => ?_) (fun b hb => ?_) other
    · cases hb
      exact proper.1.schema
    · cases free.symm.trans hb
  | @replace name a b found =>
    refine find_update_of_ne (fun b hb => ?_) (fun b hb => ?_) other
    · cases hb
      exact proper.1.schema
    · rw [eq_of_find found hb]
      exact (find_eq_some_iff.1 found).2
  | @remove name b found =>
    refine find_update_of_ne (fun b hb => nomatch hb) (fun b hb => ?_) other
    rw [eq_of_find found hb]
    exact (find_eq_some_iff.1 found).2

/-- A schema is replaced where one with the expected revision is found. -/
lemma Performs.replaced {expected : Revision} (performs : s.Performs (.replace name a expected) s') :
    s' = Function.update s name.subjectRef (some a) ∧
      ∃ b, s.find name = some b ∧ b.revision = expected := by
  cases performs with
  | replace found => exact ⟨rfl, _, found, rfl⟩

/-- An artifact that is attached leaves all revisions as they were. -/
lemma Performs.revision_of_replace (performs : s.Performs (.replace name a a.revision) s')
    (named : a.IsNamed name) (n : SchemaName) :
    (s'.find n).map Aggregate.revision = (s.find n).map Aggregate.revision := by
  obtain ⟨rfl, b, found, revision⟩ := performs.replaced
  obtain ⟨bound, schema⟩ := find_eq_some_iff.1 found
  rw [find_update]
  split
  · rename_i same
    rw [find_of_bound (same ▸ bound), schema, ← named.schema, Option.filter_some]
    by_cases here : a.name.schema = n.schema
    · simp [here, revision]
    · simp [here]
  · rfl

end Shelf

namespace World

section Files

variable {site : Site} {s s' : Shelf} {w w' : World FileStore.backend}

/-- What an exchange brings about that was added. -/
lemma FileOutcome.of_concat (outcome : FileOutcome s s' w w') {e : Event}
    (added : w'.history = w.history ++ [e]) :
    (∀ name cached found, e.talk = ⟨.store (.fetch name cached), Except.ok found⟩ →
      s.find name = found) ∧
    ∀ c key expected found,
      e.talk = ⟨.store c, Except.error (.conflict key expected found)⟩ → s.IsAheadOf c := by
  cases outcome with
  | silent history _ => simp [added] at history
  | quiet history _ _ honest late =>
    cases List.append_cancel_left (added.symm.trans history)
    exact ⟨honest, late⟩
  | wrote history effect may performs =>
    cases List.append_cancel_left (added.symm.trans history)
    refine ⟨fun name cached found asked => ?_, fun c key expected found asked => ?_⟩
    · rw [asked] at effect
      cases effect
    · rw [asked] at effect
      simp [Exchange.effect?, Except.isOk, Except.toBool] at effect

/-- The store on files is candid, whether its reads come from the cache or not. -/
lemma Sheltered.candid (h : w.Sheltered site s) (kept : w.Kept)
    (small : w'.history.length < Word.limit 64) (step : w.LooseStep w') :
    Candid (B := FileStore.backend) FileStore.shown w w' := by
  obtain ⟨s', h', outcome⟩ := h.step kept small step
  constructor
  case honest =>
    intro e name cached found added asked
    exact (h.shown_eq name).trans ((outcome.of_concat added).1 name cached found asked)
  case late =>
    intro e c key expected found added asked
    obtain ⟨r, b, expects, stored, other⟩ :=
      ((outcome.of_concat added).2 c key expected found asked).exists_revision
    exact ⟨r, b, expects, (h.shown_eq c.name).trans stored, other⟩
  case edits =>
    intro name
    rw [h.shown_eq, h'.shown_eq]
    intro changed
    cases outcome with
    | silent _ same => exact absurd (by rw [same]) changed
    | quiet _ same => exact absurd (by rw [same]) changed
    | @wrote e c added effect may performs =>
      have short : w.history.length + 1 < Word.limit 64 := by simpa [added] using small
      have proper := (h.isFresh may short).isProper
      refine ⟨e, c, added, effect, ?_, ?_⟩
      · by_contra other
        exact changed (congrArg (Option.map _) (performs.find_of_ne proper (Ne.symm other)))
      · rcases may.isEdit_or with edit | ⟨name', a, rfl⟩
        · exact edit
        · exact absurd (performs.revision_of_replace proper.1 name) changed

end Files

/-- **Conflicts have causes**, with the store in memory and with a store on files, whether reads are
served from the cache or not and in whatever order the jobs take their steps.  (The exchanges on
files are fewer than 64 bits can count, so that every version is a number that a file can hold.) -/
theorem conflicts_have_causes :
    (∀ (m : MemoryStore) (w : World MemoryStore.backend), (opened m).Reaches w →
      ConflictsHaveCauses (opened m) w) ∧
    ∀ (site : Site) (w : World FileStore.backend), (lodged site).Reaches w →
      w.history.length < Word.limit 64 → ConflictsHaveCauses (lodged site) w := by
  refine ⟨fun m w run => ?_, fun site w run small => ?_⟩
  · exact conflictsHaveCauses_of_candid run fun w₁ w₂ before step later =>
      candid_of_step (before.kept.step step) step
  · have candid : CandidAllTheWay (B := FileStore.backend) FileStore.shown
        (FileStore.settled site) w := by
      intro w₁ w₂ before step later
      have short := later.history_grows.length_le.trans_lt small
      have shorter := (reaches_of_step step).history_grows.length_le.trans_lt short
      obtain ⟨s, h⟩ := before.sheltered shorter
      exact h.candid before.kept short step
    exact conflictsHaveCauses_of_candid run candid

open Rehearsal in
/-- The change that came too late was overtaken by the change of another job. -/
theorem overtaken_of_outrun :
    ∃ read between write,
      (start.after (registering ++ outrun ++ [.answer 1 say])).Overtaken 1 orders read between
        write := by
  have run := reaches_after start (registering ++ outrun ++ [.answer 1 say])
  exact (conflicts_have_causes.1 {} _ run).overtaken 1
    ⟨job (.update orders change), .done (.error (.conflict orders.fullName 1))⟩ _ rfl rfl rfl

end World

end SchemaLedger
