import SchemaLedger.Proofs.Concurrency.Lineage

/-!
A revision identifies a state.

* `World.gone_after`: a schema that was removed never comes back, whatever is registered under
  its name later.
* `World.revision_identifies_state`: schemas that are stored at any two moments under one
  revision differ in the artifact at most; and between the read and the write of one job
  nothing was registered under the name, so that no write lands on a schema that came after
  the one that was read.
-/

namespace SchemaLedger

/-- The exchange has completed a registration under a key. -/
def Event.RegistersUnder (e : Event) (key : String) : Prop :=
  ∃ name a, e.talk.effect? = some (.register name a) ∧ name.fullName = key

/-- The only schema that a job has read before its write is the one under the name of the
write, and the write expects its revision. -/
lemma Job.MayWrite.read_unique {j : Job} {past : List Talk} {call : StoreCall}
    (h : j.MayWrite past call) {name : SchemaName} {cached : Bool} {current : Aggregate}
    (read : (⟨.store (.fetch name cached), Except.ok (some current)⟩ : Talk) ∈ past) :
    (∃ a, call = .replace name a current.revision) ∨ call = .remove name current.revision := by
  have compiles {r : Registry} {a a' : Aggregate} {compiling : List Talk}
      (attached : r.Attaches a compiling a') :
      (⟨.store (.fetch name cached), Except.ok (some current)⟩ : Talk) ∉ compiling := by
    intro h
    cases attached with
    | skipped off => cases h
    | compiled on mode bound => cases List.mem_singleton.1 h
  cases h with
  | register valid attached =>
    have read := (List.mem_append.1 read).resolve_right (compiles attached)
    rcases List.mem_append.1 read with read | read
    · cases (Registry.eq_of_fetch_mem_opening read).2
    · simp only [List.mem_cons, List.not_mem_nil, or_false] at read
      rcases read with read | read | read <;> cases read
  | @update _ _ _ _ _ _ _ _ _ a valid next attached =>
    have read := (List.mem_append.1 read).resolve_right (compiles attached)
    rcases List.mem_append.1 read with read | read
    · obtain ⟨rfl, found⟩ := Registry.eq_of_fetch_mem_opening read
      cases found
      exact .inl ⟨a, rfl⟩
    · simp only [List.mem_cons, List.not_mem_nil, or_false] at read
      rcases read with read | read | read <;> cases read
  | delete valid =>
    obtain ⟨rfl, found⟩ := Registry.eq_of_fetch_mem_opening read
    cases found
    exact .inr rfl
  | attach valid on missing bound =>
    rcases List.mem_append.1 read with read | read
    · obtain ⟨rfl, found⟩ := Registry.eq_of_fetch_mem_opening read
      cases found
      exact .inl ⟨_, rfl⟩
    · cases List.mem_singleton.1 read

namespace World

variable {moves more : List (Move MemoryStore.backend)}

/-- The schema was registered once and is stored no more. -/
def Gone (w : World MemoryStore.backend) (id : UInt64) : Prop :=
  (∃ e ∈ w.history, e.Registers id) ∧
    ∀ key a, w.stored? key = some a → a.info.uniqueId ≠ id

/-- One move does not bring a schema back. -/
lemma Gone.step {w w' : World MemoryStore.backend} {id : UInt64} (h : w.Gone id) (traced : w.Traced)
    (kept : w'.Kept) (nodup : w'.drawn.Nodup) (outcome : w.Outcome w') : w'.Gone id := by
  obtain ⟨⟨e, he, registers⟩, absent⟩ := h
  cases outcome with
  | silent history tables =>
    exact ⟨⟨e, by rwa [history], registers⟩, by simpa only [stored?, tables] using absent⟩
  | quiet history tables _ _ =>
    exact ⟨⟨e, by rw [history]; exact List.mem_append_left _ he, registers⟩,
      by simpa only [stored?, tables] using absent⟩
  | @wrote e' call history effect may performs =>
    refine ⟨⟨e, by rw [history]; exact List.mem_append_left _ he, registers⟩,
      fun key b stored => ?_⟩
    generalize htables : w'.tables = tables at performs
    rw [stored?, htables] at stored
    cases performs with
    | @register name a free unbound =>
      rw [Dictionary.get?_insert] at stored
      split at stored
      · cases stored
        rintro rfl
        exact kept.registers_once nodup history ⟨name, b, effect, rfl⟩ e he registers
      · exact absent key b stored
    | @replace name a s found =>
      rw [Dictionary.get?_insert] at stored
      split at stored
      · cases stored
        rw [← (traced.precedes_of_mayWrite found may).1.info]
        exact absent _ s found
      · exact absent key b stored
    | remove found =>
      rw [Dictionary.get?_erase] at stored
      split at stored
      · cases stored
      · exact absent key b stored

/-- **A schema that was removed never comes back.** -/
theorem gone_after {id : UInt64} (h : (start.after moves).Gone id)
    (more : List (Move MemoryStore.backend)) : (start.after (moves ++ more)).Gone id := by
  induction more using List.reverseRecOn with
  | nil => simpa using h
  | append_singleton more m ih =>
    rw [← List.append_assoc]
    exact ih.step (traced_after _) (kept_after _ _) (nodup_drawn_after _ _) (outcome_after _ m)

/-- Schemas that are stored one after the other under one revision. -/
lemma bare_eq_of_stored {key key' : String} {a b : Aggregate}
    (ha : (start.after moves).stored? key = some a)
    (hb : (start.after (moves ++ more)).stored? key' = some b) (same : a.revision = b.revision) :
    a.bare = b.bare := by
  have earlier := (mem_lineage.1 ((traced_after moves).mem_lineage_of_stored ha)).1
  exact (traced_after (moves ++ more)).bare_eq_of_revision hb (written_subset more earlier) same

/-- A write that succeeds finds a schema with the id of the one that the job has read. -/
lemma stored_of_performs {w : World MemoryStore.backend} {j : Job} {past : List Talk}
    {call : StoreCall} {tables : Tables} {name : SchemaName} {cached : Bool} {current : Aggregate}
    (may : j.MayWrite past call)
    (read : (⟨.store (.fetch name cached), Except.ok (some current)⟩ : Talk) ∈ past)
    (performs : w.tables.Performs call tables) :
    ∃ s, w.stored? name.fullName = some s ∧ s.info.uniqueId = current.info.uniqueId := by
  rcases may.read_unique read with ⟨a, rfl⟩ | rfl
  · generalize expected : current.revision = revision at performs
    cases performs with
    | @replace _ _ s stored => exact ⟨s, stored, (congrArg Revision.schemaId expected).symm⟩
  · generalize expected : current.revision = revision at performs
    cases performs with
    | @remove _ s stored => exact ⟨s, stored, (congrArg Revision.schemaId expected).symm⟩

/-- Between the read and the write of one job nothing was registered under the name. -/
lemma not_registersUnder_between {before between later : List Event} {e₁ e₂ : Event}
    {name : SchemaName} {cached : Bool} {current : Aggregate} {call : StoreCall}
    (split : (start.after moves).history = before ++ e₁ :: (between ++ e₂ :: later))
    (same : e₁.caller = e₂.caller)
    (read : e₁.talk = ⟨.store (.fetch name cached), Except.ok (some current)⟩)
    (wrote : e₂.talk.effect? = some call) :
    ∀ e ∈ between, ¬ e.RegistersUnder name.fullName := by
  rintro e he ⟨name', a, effect, key⟩
  obtain ⟨between₁, between₂, rfl⟩ := List.append_of_mem he
  have split₂ : (start.after moves).history =
      (before ++ e₁ :: (between₁ ++ e :: between₂)) ++ e₂ :: later := by simpa using split
  obtain ⟨m₂, m, rest, rfl, history₂, -, may, performs₂⟩ := moment_of_write split₂ wrote
  have split₁ : (start.after m₂).history = (before ++ e₁ :: between₁) ++ e :: between₂ := by
    simpa using history₂
  obtain ⟨m₁, m', rest', rfl, history₁, -, -, performs₁⟩ := moment_of_write split₁ effect
  obtain ⟨m₀, m'', rest'', rfl, history₀, stored₀⟩ := moment_of_read history₁ read
  -- the job read a schema that was stored then, so one that was registered already
  have known : current ∈ written (start.after (m₀ ++ m'' :: rest'')).history :=
    written_subset _ (mem_lineage.1 ((traced_after m₀).mem_lineage_of_stored stored₀)).1
  -- when another one is registered under the name, the schema is gone
  have gone : (start.after (m₀ ++ m'' :: rest'')).Gone current.info.uniqueId := by
    refine ⟨(traced_after _).born current known, fun k b stored => ?_⟩
    intro sameId
    have names := ((traced_after _).precedes_stored stored known sameId.symm).name
    have place : k = name.fullName := by
      rw [((traced_after _).stored k b stored).1, ← names,
        ← ((traced_after m₀).stored _ current stored₀).1]
    rw [place, ← key] at stored
    rw [stored?, performs₁.free] at stored
    cases stored
  have still := gone_after gone (m' :: rest')
  have asked : (⟨.store (.fetch name cached), Except.ok (some current)⟩ : Talk) ∈
      (start.after (m₀ ++ m'' :: rest'' ++ m' :: rest')).transcript e₂.caller := by
    refine mem_talksOf.2 ⟨e₁, ?_, same, read⟩
    rw [history₂]
    simp
  obtain ⟨s, stored, sameId⟩ := stored_of_performs may asked performs₂
  exact still.2 _ s stored sameId

/-- **A revision identifies a state.** -/
theorem revision_identifies_state (moves more : List (Move MemoryStore.backend)) :
    (∀ key key' a b, (start.after moves).stored? key = some a →
      (start.after (moves ++ more)).stored? key' = some b → a.revision = b.revision →
        a.name = b.name ∧ a.audit = b.audit ∧ a.info = b.info ∧ a.ledger = b.ledger ∧
          a.storage = b.storage ∧ a.extras = b.extras) ∧
    ∀ before between later e₁ e₂ name cached current call,
      (start.after moves).history = before ++ e₁ :: (between ++ e₂ :: later) →
      e₁.caller = e₂.caller →
      e₁.talk = ⟨.store (.fetch name cached), Except.ok (some current)⟩ →
      e₂.talk.effect? = some call → ∀ e ∈ between, ¬ e.RegistersUnder name.fullName :=
  ⟨fun _ _ _ _ ha hb same => Aggregate.bare_eq_bare_iff.1 (bare_eq_of_stored ha hb same),
    fun _ _ _ _ _ _ _ _ _ split same read wrote =>
      not_registersUnder_between split same read wrote⟩

open Rehearsal in
/-- An artifact that is attached to a schema does not move its revision, and name and ledger
stay as they were. -/
theorem revision_of_attached :
    (start.after registering).stored? orders.fullName = some registered ∧
    (start.after (registering ++ alone 1 (.compileArtifact orders) 4)).stored? orders.fullName =
      some (registered.withArtifact (artifact 1)) ∧
    registered.revision = (registered.withArtifact (artifact 1)).revision ∧
    registered.ledger = (registered.withArtifact (artifact 1)).ledger ∧
    ¬ Event.RegistersUnder
      ⟨1, job (.compileArtifact orders), ⟨.compile registered, Except.ok (artifact 1)⟩⟩
      orders.fullName := by
  have agree := (revision_identifies_state registering (alone 1 (.compileArtifact orders) 4)).1
    orders.fullName orders.fullName registered (registered.withArtifact (artifact 1)) rfl rfl rfl
  have between :=
    (revision_identifies_state (registering ++ alone 1 (.compileArtifact orders) 4) []).2
      ((start.after registering).history ++
        [⟨1, job (.compileArtifact orders), ⟨.permit "ann" "shop" .update, Except.ok ()⟩⟩])
      [⟨1, job (.compileArtifact orders), ⟨.compile registered, Except.ok (artifact 1)⟩⟩] []
      ⟨1, job (.compileArtifact orders), ⟨.store (.fetch orders true), Except.ok (some registered)⟩⟩
      ⟨1, job (.compileArtifact orders), ⟨.store (.replace orders
        (registered.withArtifact (artifact 1)) registered.revision), Except.ok ()⟩⟩
      orders true registered
      (.replace orders (registered.withArtifact (artifact 1)) registered.revision) rfl rfl rfl rfl
  exact ⟨rfl, rfl, rfl, agree.2.2.2.1, between _ (List.mem_singleton_self _)⟩

end World

end SchemaLedger
