import SchemaLedger.Proofs.Concurrency.Revisions

/-!
Artifacts that jobs attach side by side.

* `artifactsOf`: the artifacts that were stored with a revision, oldest first.  Attaching one
  leaves the revision as it is, so there may be several.
* `World.attaches_or_new`: a write attaches an artifact to what its job has read without one, or
  its revision is new.
* `World.artifact_of_stored`: a stored schema carries the artifact that was stored last with its
  revision.
* `World.artifact_stable`: if no two jobs attach an artifact to the same revision side by side
  (`World.Orderly`), the first one stays.  If they do, the last one takes the place of the others
  (`World.artifact_overtaken`): the write that attaches it is let through, since it expects the
  revision that is still stored.
-/

namespace SchemaLedger

namespace Aggregate

/-- An artifact of the latest version is the current one. -/
lemma currentArtifact_withArtifact {a : Aggregate} {d : Artifact}
    (bound : d.recordVersion = a.lastVersion) :
    (a.withArtifact d).currentArtifact = some d :=
  Option.filter_eq_some_iff.2 ⟨rfl, beq_iff_eq.2 bound⟩

lemma artifact_of_currentArtifact {a : Aggregate} {d : Artifact}
    (h : a.currentArtifact = some d) : a.artifact = some d :=
  (Option.filter_eq_some_iff.1 h).1

end Aggregate

/-- The artifacts that were stored with a revision, oldest first. -/
def artifactsOf (history : List Event) (rev : Revision) : List Artifact :=
  ((written history).filter fun a => a.revision == rev).filterMap (·.artifact)

/-- The exchange is the write of a job that compiles, and has attached an artifact to the schema
with the revision. -/
def Event.attaches (e : Event) (rev : Revision) : Bool :=
  match e.job.task, e.talk.effect? with
  | .compileArtifact _, some (.replace _ _ expected) => expected == rev
  | _, _ => false

lemma artifactsOf_append (history later : List Event) (rev : Revision) :
    artifactsOf (history ++ later) rev = artifactsOf history rev ++ artifactsOf later rev := by
  simp [artifactsOf, written]

lemma mem_artifactsOf {history : List Event} {rev : Revision} {d : Artifact} :
    d ∈ artifactsOf history rev ↔
      ∃ e ∈ history, ∃ a, e.written? = some a ∧ a.revision = rev ∧ a.artifact = some d := by
  simp only [artifactsOf, written, List.mem_filterMap, List.mem_filter, beq_iff_eq]
  constructor
  · rintro ⟨a, ⟨⟨e, he, puts⟩, same⟩, carries⟩
    exact ⟨e, he, a, puts, same, carries⟩
  · rintro ⟨e, he, a, puts, same, carries⟩
    exact ⟨a, ⟨⟨e, he, puts⟩, same⟩, carries⟩

/-- What is stored under a revision adds its artifact. -/
lemma artifactsOf_concat_self {history : List Event} {e : Event} {a : Aggregate}
    (puts : e.written? = some a) :
    artifactsOf (history ++ [e]) a.revision =
      artifactsOf history a.revision ++ a.artifact.toList := by
  rw [artifactsOf_append]
  cases carries : a.artifact <;> simp [artifactsOf, written, puts, carries]

/-- All else adds nothing. -/
lemma artifactsOf_concat_of_ne {history : List Event} {e : Event} {rev : Revision}
    (other : ∀ a, e.written? = some a → a.revision ≠ rev) :
    artifactsOf (history ++ [e]) rev = artifactsOf history rev := by
  rw [artifactsOf_append]
  cases puts : e.written? with
  | none => simp [artifactsOf, written, puts]
  | some a => simp [artifactsOf, written, puts, other a puts]

/-- A read adds nothing. -/
lemma artifactsOf_append_read {before later : List Event} {e : Event} {rev : Revision}
    {name : SchemaName} {cached : Bool} {found : Option Aggregate}
    (read : e.talk = ⟨.store (.fetch name cached), Except.ok found⟩) :
    artifactsOf (before ++ e :: later) rev = artifactsOf before rev ++ artifactsOf later rev := by
  rw [← List.singleton_append, ← List.append_assoc, artifactsOf_append, artifactsOf_concat_of_ne]
  simp [Event.written?, read, Exchange.effect?, StoreCall.isWrite]

/-- No artifact is stored where nothing has the revision. -/
lemma artifactsOf_eq_nil {history : List Event} {rev : Revision}
    (new : ∀ a ∈ written history, a.revision ≠ rev) : artifactsOf history rev = [] := by
  refine List.eq_nil_iff_forall_not_mem.2 fun d hd => ?_
  obtain ⟨e, he, a, puts, same, -⟩ := mem_artifactsOf.1 hd
  exact new a (List.mem_filterMap.2 ⟨e, he, puts⟩) same

namespace Job

variable {j : Job} {past : List Talk} {call : StoreCall} {a : Aggregate}

/-- Whatever artifact a job stores belongs to the latest version. -/
lemma MayWrite.currentArtifact_eq (may : j.MayWrite past call) (payload : call.payload? = some a) :
    a.currentArtifact = a.artifact := by
  have attaches {r : Registry} {b : Aggregate} {compiling : List Talk}
      (attached : r.Attaches b compiling a) (none : b.artifact = none) :
      a.currentArtifact = a.artifact := by
    cases attached with
    | skipped off => rw [Aggregate.currentArtifact, none, Option.filter_none]
    | compiled on mode bound => exact Aggregate.currentArtifact_withArtifact bound
  cases may with
  | register valid attached =>
    cases payload
    exact attaches attached rfl
  | update valid next attached =>
    cases payload
    obtain ⟨record, -, rfl⟩ := Aggregate.next?_eq_some_iff.1 next
    exact attaches attached rfl
  | delete valid => cases payload
  | attach valid on missing bound =>
    cases payload
    exact Aggregate.currentArtifact_withArtifact bound

end Job

namespace World

variable {moves : List (Move MemoryStore.backend)}

/-- Whatever artifact is stored belongs to the latest version. -/
lemma currentArtifact_of_written {a : Aggregate} (ha : a ∈ written (start.after moves).history) :
    a.currentArtifact = a.artifact := by
  obtain ⟨before, e, later, call, -, payload, may⟩ := (kept_after _ moves).exists_write ha
  exact may.currentArtifact_eq payload

/-- A write attaches an artifact to a schema that its job has read without one, or nothing that
was stored before has the revision of what it stores. -/
lemma attaches_or_new {before later : List Event} {e : Event} {a : Aggregate}
    (split : (start.after moves).history = before ++ e :: later) (puts : e.written? = some a) :
    (e.attaches a.revision = true ∧ ∃ current name cached d,
      (⟨.store (.fetch name cached), Except.ok (some current)⟩ : Talk) ∈ talksOf before e.caller ∧
        current.currentArtifact = none ∧ a = current.withArtifact d) ∨
      ∀ b ∈ written before, b.revision ≠ a.revision := by
  obtain ⟨call, effect, payload⟩ := Option.bind_eq_some_iff.1 puts
  obtain ⟨earlier, m, rest, rfl, rfl, -, may, performs⟩ := moment_of_write split effect
  have traced := traced_after earlier
  rcases may.payload_cases payload with ⟨name, rfl, -⟩ |
    ⟨current, name, cached, read, rfl, -, info,
      ⟨record, grown, -⟩ | ⟨⟨r, actor, compiles⟩, missing, d, rfl⟩⟩
  · -- the id is new
    refine .inr fun b hb same => ?_
    have sameId : b.info.uniqueId = a.info.uniqueId := congrArg Revision.schemaId same
    obtain ⟨e', he', registers⟩ := traced.born b hb
    exact (kept_after _ _).registers_once (nodup_drawn_after _ _) split ⟨name, a, effect, rfl⟩
      e' he' (sameId ▸ registers)
  · -- the version is new: what is stored has one less, and all that was stored has no more
    refine .inr fun b hb same => ?_
    have sameId : b.info.uniqueId = a.info.uniqueId := congrArg Revision.schemaId same
    have sameVersion : b.lastVersion = a.lastVersion := congrArg Revision.version same
    obtain ⟨s, stored, expected⟩ := performs.replaced
    have sameId' : s.info.uniqueId = current.info.uniqueId := congrArg Revision.schemaId expected
    have sameVersion' : s.lastVersion = current.lastVersion := congrArg Revision.version expected
    have precedes := traced.precedes_stored stored hb (by rw [sameId, info, sameId'])
    have noMore : b.lastVersion ≤ s.lastVersion := precedes.records.length_le
    have oneMore : a.lastVersion = current.lastVersion + 1 := by
      simp [Aggregate.lastVersion, Ledger.lastVersion, grown]
    omega
  · refine .inl ⟨?_, current, name, cached, d, read, missing, rfl⟩
    simp only [Event.attaches, compiles, effect]
    exact beq_self_eq_true _

/-- What is stored carries the artifact that was stored last with its revision. -/
theorem artifact_of_stored (moves : List (Move MemoryStore.backend)) {key : String} {b : Aggregate}
    (stored : (start.after moves).stored? key = some b) :
    b.artifact = (artifactsOf (start.after moves).history b.revision).getLast? := by
  induction moves using List.reverseRecOn generalizing key b with
  | nil => cases stored
  | append_singleton moves m ih =>
    cases outcome_after moves m with
    | silent history tables =>
      rw [history]
      exact ih (by rwa [stored?, tables] at stored)
    | @quiet e history tables effect _ =>
      rw [history, artifactsOf_concat_of_ne (by simp [Event.written?, effect])]
      exact ih (by rwa [stored?, tables] at stored)
    | @wrote e call history effect may performs =>
      have puts : e.written? = call.payload? := by rw [Event.written?, effect, Option.bind_some]
      rw [history]
      rcases performs.get?_cases stored with ⟨payload, -⟩ | ⟨before, other⟩
      · rw [artifactsOf_concat_self (puts.trans payload)]
        rcases attaches_or_new history (puts.trans payload) with ⟨-, current, -, -, d, -, -, rfl⟩ |
          new
        · simp [Aggregate.withArtifact]
        · rw [artifactsOf_eq_nil new, List.nil_append]
          cases b.artifact <;> rfl
      · rw [artifactsOf_concat_of_ne fun a ha same => ?_]
        · exact ih before
        · -- what was written is stored besides, so that the two have two ids
          refine other ((traced_after _).key_unique stored
            (performs.get?_payload (puts.symm.trans ha)) ?_)
          exact (congrArg Revision.schemaId same).symm

/-- What is shown of a stored schema is the artifact that was stored last with its revision. -/
lemma view_artifact_of_stored {key : String} {b : Aggregate}
    (stored : (start.after moves).stored? key = some b) :
    b.view.artifact = (artifactsOf (start.after moves).history b.revision).getLast? :=
  (currentArtifact_of_written (written_of_stored stored)).trans (artifact_of_stored moves stored)

/-- Where a stored schema has no artifact, none was attached. -/
lemma artifactsOf_of_missing {key : String} {b : Aggregate}
    (stored : (start.after moves).stored? key = some b) (missing : b.currentArtifact = none) :
    artifactsOf (start.after moves).history b.revision = [] :=
  List.getLast?_eq_none_iff.1 ((view_artifact_of_stored stored).symm.trans missing)

/-- What was attached stays attached. -/
lemma artifactsOf_subset (moves more : List (Move MemoryStore.backend)) (rev : Revision) :
    artifactsOf (start.after moves).history rev ⊆
      artifactsOf (start.after (moves ++ more)).history rev := by
  rw [after_append]
  obtain ⟨later, longer⟩ := history_prefix_after (start.after moves) more
  rw [← longer, artifactsOf_append]
  exact List.subset_append_left _ _

/-- After a schema was read, nothing but a job that compiles adds an artifact to its revision. -/
lemma artifactsOf_eq_nil_of_quiet {before between later : List Event} {x : Event}
    {name : SchemaName} {cached : Bool} {current : Aggregate}
    (split : (start.after moves).history = before ++ x :: (between ++ later))
    (read : x.talk = ⟨.store (.fetch name cached), Except.ok (some current)⟩)
    (quiet : ∀ e ∈ between, e.attaches current.revision = false) :
    artifactsOf between current.revision = [] := by
  refine List.eq_nil_iff_forall_not_mem.2 fun d hd => ?_
  obtain ⟨y, hy, b, puts, same, -⟩ := mem_artifactsOf.1 hd
  have still := quiet y hy
  obtain ⟨between₁, between₂, rfl⟩ := List.append_of_mem hy
  have split' : (start.after moves).history =
      (before ++ x :: between₁) ++ y :: (between₂ ++ later) := by simpa using split
  rcases attaches_or_new split' puts with ⟨attaches, -⟩ | new
  · rw [same, still] at attaches
    cases attaches
  · -- the schema was stored when it was read, so the revision is not new
    obtain ⟨earlier, m, rest, rfl, rfl, stored⟩ := moment_of_read split read
    refine new current ?_ same.symm
    rw [written, List.filterMap_append]
    exact List.mem_append_left _ (written_of_stored stored)

/-! ### Artifacts that stay -/

/-- The job has answered with an artifact, and the schema that it had read had the revision. -/
def Compiled {B : Backend} (w : World B) (caller : Nat) (rev : Revision) (d : Artifact) : Prop :=
  ∃ r actor name cached current,
    w.threads[caller]? = some ⟨⟨r, actor, .compileArtifact name⟩, .done (.ok d)⟩ ∧
      (⟨.store (.fetch name cached), Except.ok (some current)⟩ : Talk) ∈ w.transcript caller ∧
      current.revision = rev

/-- No job attaches an artifact to the schema with the revision between the read and the write
of another one that does. -/
def Orderly {B : Backend} (w : World B) (rev : Revision) : Prop :=
  ∀ before between later e₁ e₂ name cached current,
    w.history = before ++ e₁ :: (between ++ e₂ :: later) → e₁.caller = e₂.caller →
    e₁.talk = ⟨.store (.fetch name cached), Except.ok (some current)⟩ →
    e₂.attaches rev = true → ∀ e ∈ between, e.attaches rev = false

/-- What a job answers was attached. -/
lemma Compiled.mem_artifactsOf {caller : Nat} {rev : Revision} {d : Artifact}
    (h : (start.after moves).Compiled caller rev d) :
    d ∈ artifactsOf (start.after moves).history rev := by
  obtain ⟨r, actor, name, cached, current, ended, read, rfl⟩ := h
  have kept : (start.after moves).Kept := kept_after _ moves
  obtain ⟨-, -, current', ⟨talks, carries⟩ | ⟨-, -, talks⟩⟩ := kept.mayEnd ended
  · have hcurrent := (traced_after moves).written_of_transcript read
    rw [talks] at read
    cases (Registry.eq_of_fetch_mem_opening read).2
    obtain ⟨e, he, puts⟩ := List.mem_filterMap.1 hcurrent
    exact SchemaLedger.mem_artifactsOf.2
      ⟨e, he, current, puts, rfl, Aggregate.artifact_of_currentArtifact carries⟩
  · have wrote : (⟨.store (.replace name (current'.withArtifact d) current'.revision),
        Except.ok ()⟩ : Talk) ∈ (start.after moves).transcript caller := by
      rw [talks]
      simp
    obtain ⟨e, he, -, talk⟩ := mem_talksOf.1 wrote
    have same : current = current' := by
      rw [talks] at read
      rcases List.mem_append.1 read with read | read
      · exact Option.some.inj (Registry.eq_of_fetch_mem_opening read).2
      · simp only [List.mem_cons, List.not_mem_nil, or_false] at read
        rcases read with read | read <;> cases read
    subst same
    exact SchemaLedger.mem_artifactsOf.2
      ⟨e, he, current.withArtifact d, by rw [Event.written?, talk]; rfl, rfl, rfl⟩

/-- If jobs attach artifacts one after the other, an artifact is attached where none was. -/
lemma Orderly.artifactsOf_eq_nil {rev : Revision} (orderly : (start.after moves).Orderly rev)
    {before later : List Event} {e : Event} {a : Aggregate}
    (split : (start.after moves).history = before ++ e :: later) (puts : e.written? = some a)
    (same : a.revision = rev) : artifactsOf before rev = [] := by
  subst same
  rcases attaches_or_new split puts with
    ⟨attaches, current, name, cached, d, read, missing, rfl⟩ | new
  · obtain ⟨x, hx, caller, talk⟩ := mem_talksOf.1 read
    obtain ⟨unread, between, rfl⟩ := List.append_of_mem hx
    have split' : (start.after moves).history = unread ++ x :: (between ++ e :: later) := by
      simpa using split
    -- there was none at the read, and none has come in between
    have quiet := orderly _ _ _ _ _ _ _ _ split' caller talk attaches
    have none_between := artifactsOf_eq_nil_of_quiet split' talk quiet
    obtain ⟨earlier, m, rest, rfl, rfl, stored⟩ := moment_of_read split' talk
    have none_read := artifactsOf_of_missing stored missing
    rw [artifactsOf_append_read talk]
    exact List.append_eq_nil_iff.2 ⟨none_read, none_between⟩
  · exact SchemaLedger.artifactsOf_eq_nil new

/-- If jobs attach artifacts one after the other, there is one for each revision. -/
lemma Orderly.artifact_unique {rev : Revision} (orderly : (start.after moves).Orderly rev)
    {d d' : Artifact} (hd : d ∈ artifactsOf (start.after moves).history rev)
    (hd' : d' ∈ artifactsOf (start.after moves).history rev) : d = d' := by
  obtain ⟨e, he, a, puts, same, carries⟩ := SchemaLedger.mem_artifactsOf.1 hd
  obtain ⟨e', he', a', puts', same', carries'⟩ := SchemaLedger.mem_artifactsOf.1 hd'
  obtain ⟨before, later, split⟩ := List.append_of_mem he
  rw [split] at he'
  rcases List.mem_append.1 he' with he' | he'
  · have member : d' ∈ artifactsOf before rev :=
      SchemaLedger.mem_artifactsOf.2 ⟨e', he', a', puts', same', carries'⟩
    rw [orderly.artifactsOf_eq_nil split puts same] at member
    cases member
  rcases List.mem_cons.1 he' with rfl | he'
  · cases puts.symm.trans puts'
    exact Option.some.inj (carries.symm.trans carries')
  · obtain ⟨later₁, later₂, rfl⟩ := List.append_of_mem he'
    have split' : (start.after moves).history = (before ++ e :: later₁) ++ e' :: later₂ := by
      simpa using split
    have member : d ∈ artifactsOf (before ++ e :: later₁) rev :=
      SchemaLedger.mem_artifactsOf.2 ⟨e, by simp, a, puts, same, carries⟩
    rw [orderly.artifactsOf_eq_nil split' puts' same'] at member
    cases member

/-- An artifact that was attached once is shown from then on, if jobs attach artifacts one after
the other. -/
lemma Orderly.view_artifact {rev : Revision} {d : Artifact} {rest : List (Move MemoryStore.backend)}
    (orderly : (start.after (moves ++ rest)).Orderly rev)
    (attached : d ∈ artifactsOf (start.after moves).history rev) {key : String} {b : Aggregate}
    (stored : (start.after moves).stored? key = some b) (same : b.revision = rev) :
    b.view.artifact = some d := by
  rw [view_artifact_of_stored stored, same]
  have longer := artifactsOf_subset moves rest rev
  obtain ⟨d', last⟩ := Option.ne_none_iff_exists'.1
    fun none => List.ne_nil_of_mem attached (List.getLast?_eq_none_iff.1 none)
  rw [last, orderly.artifact_unique (longer attached) (longer (List.mem_of_getLast? last))]

/-- **An attached artifact is stable** as long as jobs attach artifacts one after the other: once
a job has answered with it, every schema that is stored or read with the same revision shows it,
and every other job that compiles this revision answers with it too. -/
theorem artifact_stable (moves more : List (Move MemoryStore.backend)) (caller : Nat)
    (rev : Revision) (d : Artifact) (answered : (start.after moves).Compiled caller rev d)
    (orderly : (start.after (moves ++ more)).Orderly rev) :
    (∀ key b, (start.after (moves ++ more)).stored? key = some b → b.revision = rev →
      b.view.artifact = some d) ∧
    (∀ later e name cached b,
      (start.after (moves ++ more)).history = (start.after moves).history ++ later → e ∈ later →
      e.talk = ⟨.store (.fetch name cached), Except.ok (some b)⟩ → b.revision = rev →
      b.view.artifact = some d) ∧
    ∀ caller' d', (start.after (moves ++ more)).Compiled caller' rev d' → d' = d := by
  have attached := answered.mem_artifactsOf
  have longer := artifactsOf_subset moves more rev
  refine ⟨fun key b stored same => ?_, fun later e name cached b split he read same => ?_,
    fun caller' d' answered' => ?_⟩
  · rw [← List.append_nil (moves ++ more)] at orderly
    exact orderly.view_artifact (longer attached) stored same
  · obtain ⟨later₁, later₂, rfl⟩ := List.append_of_mem he
    rw [← List.append_assoc] at split
    obtain ⟨earlier, m, rest, all, history, stored⟩ := moment_of_read split read
    rw [all] at orderly
    refine orderly.view_artifact ?_ stored same
    rw [history, artifactsOf_append]
    exact List.mem_append_left _ attached
  · exact orderly.artifact_unique answered'.mem_artifactsOf (longer attached)

/-- An artifact that is the only one attached is attached in order. -/
lemma orderly_of_pairwise {B : Backend} {w : World B} {rev : Revision}
    (h : w.history.Pairwise fun e e' => e.attaches rev = true → e'.attaches rev = false) :
    w.Orderly rev := by
  intro before between later e₁ e₂ name cached current split _ _ attaches e he
  rw [split] at h
  have apart := (List.pairwise_cons.1 (List.pairwise_append.1 h).2.1).2
  have := (List.pairwise_append.1 apart).2.2 e he e₂ (List.mem_cons_self ..)
  cases quiet : e.attaches rev with
  | false => rfl
  | true => exact Bool.noConfusion ((this quiet).symm.trans attaches)

open Rehearsal in
/-- A job that comes after another one answers with the same artifact, and this is what is
shown. -/
theorem artifact_of_second :
    (start.after (registering ++ alone 1 (.compileArtifact orders) 4)).Compiled 1
      registered.revision (artifact 1) ∧
    (start.after (registering ++ alone 1 (.compileArtifact orders) 4 ++
      alone 2 (.compileArtifact orders) 2)).Orderly registered.revision ∧
    (registered.withArtifact (artifact 1)).view.artifact = some (artifact 1) ∧
    ∀ d, (start.after (registering ++ alone 1 (.compileArtifact orders) 4 ++
      alone 2 (.compileArtifact orders) 2)).Compiled 2 registered.revision d → d = artifact 1 := by
  have answered : (start.after (registering ++ alone 1 (.compileArtifact orders) 4)).Compiled 1
      registered.revision (artifact 1) :=
    ⟨registry, "ann", orders, true, registered, rfl, List.mem_of_getElem? (i := 1) rfl, rfl⟩
  have orderly : (start.after (registering ++ alone 1 (.compileArtifact orders) 4 ++
      alone 2 (.compileArtifact orders) 2)).Orderly registered.revision :=
    orderly_of_pairwise (by decide +kernel)
  obtain ⟨stored, -, others⟩ :=
    artifact_stable _ _ 1 registered.revision (artifact 1) answered orderly
  exact ⟨answered, orderly, stored orders.fullName _ rfl rfl, others 2⟩

end World

namespace Rehearsal

/-- What another compiler makes of a version. -/
def otherArtifact (version : Nat) : Artifact :=
  { artifact version with coordinate := "orders-2.jar" }

/-- Collaborators with the other compiler. -/
def sayOther : (q : Request) → q.Answer
  | .compile a => Except.ok (otherArtifact a.lastVersion)
  | q => say q

/-- Two jobs read the schema before either of them attaches an artifact; the first one goes on
to its end. -/
def sideBySide : List (Move MemoryStore.backend) :=
  .start (job (.compileArtifact orders)) :: .start (job (.compileArtifact orders)) ::
    (List.replicate 2 (.answer 1 say) ++ List.replicate 2 (.answer 2 sayOther) ++
      List.replicate 2 (.answer 1 say))

/-- The second one goes on to its end. -/
def overtaking : List (Move MemoryStore.backend) :=
  List.replicate 2 (.answer 2 sayOther)

end Rehearsal

namespace World

open Rehearsal in
/-- Two jobs that compile side by side both answer with their artifact, and the one that is
attached last takes the place of the other, though the revision stays the same. -/
theorem artifact_overtaken :
    (start.after (registering ++ sideBySide)).Compiled 1 registered.revision (artifact 1) ∧
    (start.after (registering ++ sideBySide)).stored? orders.fullName =
      some (registered.withArtifact (artifact 1)) ∧
    (start.after (registering ++ sideBySide ++ overtaking)).Compiled 2 registered.revision
      (otherArtifact 1) ∧
    (start.after (registering ++ sideBySide ++ overtaking)).stored? orders.fullName =
      some (registered.withArtifact (otherArtifact 1)) ∧
    (registered.withArtifact (otherArtifact 1)).revision = registered.revision ∧
    (registered.withArtifact (otherArtifact 1)).view.artifact ≠ some (artifact 1) :=
  ⟨⟨registry, "ann", orders, true, registered, rfl, List.mem_of_getElem? (i := 1) rfl, rfl⟩, rfl,
    ⟨registry, "ann", orders, true, registered, rfl, List.mem_of_getElem? (i := 1) rfl, rfl⟩, rfl,
    rfl, by decide⟩

end World

end SchemaLedger
