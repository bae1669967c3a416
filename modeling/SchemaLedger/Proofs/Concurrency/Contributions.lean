import SchemaLedger.Proofs.Concurrency.Lineage

/-!
Who contributed what to a ledger.

* `registrationsOf`, `changesOf`: the registrations and the changes of a schema that jobs have
  completed, in the order of their writes, each with its job.
* `World.Told`: the texts of the end of a lineage are the text of the registration and those
  of the changes, in this order.
* `World.accounted_after`: no update is lost, doubled or misplaced, in whatever order the
  questions of the jobs are answered (`World.Accounted`).
-/

namespace SchemaLedger

/-- The registration under the given id that an exchange has completed, with its job. -/
def Event.registration? (id : UInt64) : Event → Option (Nat × Registration)
  | ⟨caller, ⟨_, _, .register _ request⟩, talk⟩ =>
    match talk.effect? with
    | some (.register _ a) => if a.info.uniqueId = id then some (caller, request) else none
    | _ => none
  | _ => none

/-- The change to the schema with the given id that an exchange has completed, with its
job. -/
def Event.change? (id : UInt64) : Event → Option (Nat × Change)
  | ⟨caller, ⟨_, _, .update _ request⟩, talk⟩ =>
    match talk.effect? with
    | some (.replace _ _ expected) =>
      if expected.schemaId = id then some (caller, request) else none
    | _ => none
  | _ => none

/-- The registrations under an id, oldest first. -/
def registrationsOf (history : List Event) (id : UInt64) : List (Nat × Registration) :=
  history.filterMap (Event.registration? id)

/-- The changes to the schema with an id, oldest first. -/
def changesOf (history : List Event) (id : UInt64) : List (Nat × Change) :=
  history.filterMap (Event.change? id)

/-- All texts that were contributed to the schema with an id: that of its registration, and
then those of its changes. -/
def textsOf (history : List Event) (id : UInt64) : List String :=
  (registrationsOf history id).map (·.2.idl) ++ (changesOf history id).map (·.2.idl)

/-! ### What one exchange contributes -/

section

variable {history : List Event} {e : Event} {id : UInt64}

lemma registrationsOf_concat : registrationsOf (history ++ [e]) id =
    registrationsOf history id ++ (e.registration? id).toList := by
  cases h : e.registration? id <;> simp [registrationsOf, h]

lemma changesOf_concat :
    changesOf (history ++ [e]) id = changesOf history id ++ (e.change? id).toList := by
  cases h : e.change? id <;> simp [changesOf, h]

/-- What an exchange registers, it has brought about. -/
lemma effect?_of_registration? {x : Nat × Registration} (h : e.registration? id = some x) :
    x.1 = e.caller ∧ e.Registers id := by
  unfold Event.registration? at h
  split at h
  · split at h
    · rename_i effect
      split at h
      · cases h
        exact ⟨rfl, _, _, effect, ‹_›⟩
      · cases h
    · cases h
  · cases h

/-- What an exchange changes, it has brought about. -/
lemma effect?_of_change? {x : Nat × Change} (h : e.change? id = some x) :
    x.1 = e.caller ∧ ∃ name a expected, e.talk.effect? = some (.replace name a expected) := by
  unfold Event.change? at h
  split at h
  · split at h
    · rename_i effect
      split at h
      · cases h
        exact ⟨rfl, _, _, _, effect⟩
      · cases h
    · cases h
  · cases h

/-- Only what registers a schema is a registration. -/
lemma registration?_eq_none (other : ∀ name a, e.talk.effect? ≠ some (.register name a)) :
    e.registration? id = none := by
  cases h : e.registration? id with
  | none => rfl
  | some x =>
    obtain ⟨-, name, a, effect, -⟩ := effect?_of_registration? h
    exact absurd effect (other name a)

/-- Only what replaces a schema is a change. -/
lemma change?_eq_none
    (other : ∀ name a expected, e.talk.effect? ≠ some (.replace name a expected)) :
    e.change? id = none := by
  cases h : e.change? id with
  | none => rfl
  | some x =>
    obtain ⟨-, name, a, expected, effect⟩ := effect?_of_change? h
    exact absurd effect (other name a expected)

end

/-- An update that has replaced a schema has changed it. -/
lemma change?_of_update {e : Event} {name name' : SchemaName} {a : Aggregate} {expected : Revision}
    {r : Registry} {actor : String} {request : Change}
    (effect : e.talk.effect? = some (.replace name' a expected))
    (update : e.job = ⟨r, actor, .update name request⟩) (id : UInt64) :
    e.change? id = if expected.schemaId = id then some (e.caller, request) else none := by
  obtain ⟨caller, job, talk⟩ := e
  subst update
  simp only [Event.change?, effect]

/-- A registration contributes its text, and fixes the policy. -/
lemma contributes_of_register {e : Event} {name : SchemaName}
    {a : Aggregate} {past : List Talk} (effect : e.talk.effect? = some (.register name a))
    (may : e.job.MayWrite past (.register name a)) :
    ∃ request : Registration,
      (∀ id, e.registration? id =
        if a.info.uniqueId = id then some (e.caller, request) else none) ∧
      (∀ id, e.change? id = none) ∧ a.ledger.records.map (·.idl) = [request.idl] ∧
      a.info.policy = request.policy := by
  obtain ⟨caller, job, talk⟩ := e
  dsimp only at effect may
  cases may with
  | @register _ _ _ request _ _ _ _ _ valid attached =>
    refine ⟨request, fun id => ?_, fun id => rfl, ?_, ?_⟩
    · simp only [Event.registration?, effect]
    · rw [Aggregate.ledger_eq_of_bare attached.bare_eq]
      rfl
    · rw [Aggregate.info_eq_of_bare attached.bare_eq]
      rfl

/-- An update contributes its text, and an artifact that is attached contributes none. -/
lemma contributes_of_replace {e : Event} {name : SchemaName} {a : Aggregate}
    {expected : Revision} {past : List Talk}
    (effect : e.talk.effect? = some (.replace name a expected))
    (may : e.job.MayWrite past (.replace name a expected)) :
    (∀ id, e.registration? id = none) ∧
      ∃ current cached,
        (⟨.store (.fetch name cached), Except.ok (some current)⟩ : Talk) ∈ past ∧
        current.revision = expected ∧
        ((∃ request : Change,
          (∀ id, e.change? id =
            if expected.schemaId = id then some (e.caller, request) else none) ∧
          a.ledger.records.map (·.idl) = current.ledger.records.map (·.idl) ++ [request.idl]) ∨
        ((∀ id, e.change? id = none) ∧ a.ledger = current.ledger)) := by
  obtain ⟨current, cached, read, same, cases⟩ := may.replace_cases
  obtain ⟨caller, job, talk⟩ := e
  dsimp only at effect cases
  rcases cases with ⟨r, actor, request, _, record, rfl, -, -, grown, text⟩ | ⟨r, actor, rfl, still⟩
  · refine ⟨fun id => rfl, current, cached, read, same,
      .inl ⟨request, change?_of_update effect rfl, ?_⟩⟩
    rw [grown, List.map_append, List.map_singleton, text]
  · exact ⟨fun id => rfl, current, cached, read, same, .inr ⟨fun id => rfl, still⟩⟩

/-! ### The texts of a ledger -/

namespace World

/-- The texts of what was stored last of a schema are the text of its registration, which is
one, and those of its changes. -/
structure Told (history : List Event) : Prop where
  empty : ∀ id, lineage history id = [] → registrationsOf history id = [] ∧
    changesOf history id = []
  texts : ∀ id a, (lineage history id).getLast? = some a →
    (registrationsOf history id).length = 1 ∧ a.ledger.records.map (·.idl) = textsOf history id

/-- An exchange keeps this up if it contributes what it writes: nothing to a schema whose
ledger stays, and the last text where a ledger grows. -/
lemma Told.concat {history : List Event} {e : Event} (h : Told history)
    (contributes : ∀ id,
      (e.registration? id = none ∧ e.change? id = none ∧
        ∀ a, e.written? = some a → a.info.uniqueId = id →
          ∃ s, (lineage history id).getLast? = some s ∧ s.ledger = a.ledger) ∨
      ∃ a, e.written? = some a ∧ a.info.uniqueId = id ∧
        (registrationsOf (history ++ [e]) id).length = 1 ∧
        a.ledger.records.map (·.idl) = textsOf (history ++ [e]) id) :
    Told (history ++ [e]) := by
  refine ⟨fun id empty => ?_, fun id b last => ?_⟩
  · rw [lineage_concat, List.append_eq_nil_iff] at empty
    rcases contributes id with ⟨registration, change, -⟩ | ⟨a, puts, same, -⟩
    · rw [registrationsOf_concat, changesOf_concat, registration, change]
      simpa using h.empty id empty.1
    · simp [puts, same] at empty
  · rcases contributes id with ⟨registration, change, ledger⟩ | ⟨a, puts, rfl, one, texts⟩
    · rw [textsOf, registrationsOf_concat, changesOf_concat, registration, change,
        Option.toList_none, Option.toList_none, List.append_nil, List.append_nil, ← textsOf]
      cases puts : e.written? with
      | none =>
        rw [lineage_concat, puts, Option.toList_none, List.filter_nil, List.append_nil] at last
        exact h.texts id b last
      | some a =>
        by_cases same : a.info.uniqueId = id
        · obtain ⟨s, last', equal⟩ := ledger a puts same
          rw [← same, lineage_concat_self puts, List.getLast?_concat] at last
          cases last
          rw [← equal]
          exact h.texts id s last'
        · rw [lineage_concat_of_ne puts same] at last
          exact h.texts id b last
    · rw [lineage_concat_self puts, List.getLast?_concat] at last
      cases last
      exact ⟨one, texts⟩

section

variable {history : List Event} {e : Event} {past : List Talk} {name : SchemaName} {a s : Aggregate}

/-- An exchange that stores nothing contributes nothing. -/
lemma Told.concat_of_none (h : Told history)
    (register : ∀ name a, e.talk.effect? ≠ some (.register name a))
    (replace : ∀ name a expected, e.talk.effect? ≠ some (.replace name a expected))
    (written : e.written? = none) : Told (history ++ [e]) :=
  h.concat fun _ => .inl ⟨registration?_eq_none register, change?_eq_none replace,
    fun a puts => by rw [written] at puts; cases puts⟩

/-- A registration contributes the first text of a schema. -/
lemma Told.concat_register (h : Told history) (fresh : lineage history a.info.uniqueId = [])
    (effect : e.talk.effect? = some (.register name a))
    (may : e.job.MayWrite past (.register name a)) : Told (history ++ [e]) := by
  have puts : e.written? = some a := by simp [Event.written?, effect, StoreCall.payload?]
  obtain ⟨request, registration, change, texts, -⟩ := contributes_of_register effect may
  obtain ⟨noRegistration, noChange⟩ := h.empty _ fresh
  refine h.concat fun id => ?_
  by_cases same : a.info.uniqueId = id
  · subst same
    refine .inr ⟨a, puts, rfl, ?_, ?_⟩
    · rw [registrationsOf_concat, noRegistration, registration, if_pos rfl]
      rfl
    · rw [textsOf, registrationsOf_concat, changesOf_concat, noRegistration, noChange,
        registration, if_pos rfl, change, texts]
      rfl
  · refine .inl ⟨by rw [registration, if_neg same], change id, fun b hb same' => ?_⟩
    rw [puts] at hb
    cases hb
    exact absurd same' same

/-- A schema is replaced by one whose ledger has one more text. -/
lemma Told.concat_change (h : Told history) (last : (lineage history s.info.uniqueId).getLast? = some s)
    (puts : e.written? = some a) (kind : a.info.uniqueId = s.info.uniqueId)
    (registration : ∀ id, e.registration? id = none) {caller : Nat} {request : Change}
    (change : ∀ id, e.change? id = if s.info.uniqueId = id then some (caller, request) else none)
    (grown : a.ledger.records.map (·.idl) = s.ledger.records.map (·.idl) ++ [request.idl]) :
    Told (history ++ [e]) := by
  obtain ⟨one, texts⟩ := h.texts _ s last
  refine h.concat fun id => ?_
  by_cases same : s.info.uniqueId = id
  · subst same
    refine .inr ⟨a, puts, kind, ?_, ?_⟩
    · rwa [registrationsOf_concat, registration, Option.toList_none, List.append_nil]
    · rw [grown, texts, textsOf, textsOf, registrationsOf_concat, registration,
        changesOf_concat, change]
      simp
  · refine .inl ⟨registration id, by rw [change, if_neg same], fun b hb same' => ?_⟩
    rw [puts] at hb
    cases hb
    exact absurd (kind.symm.trans same') same

/-- A schema is replaced by one with the same ledger. -/
lemma Told.concat_still (h : Told history) (last : (lineage history s.info.uniqueId).getLast? = some s)
    (puts : e.written? = some a) (kind : a.info.uniqueId = s.info.uniqueId)
    (registration : ∀ id, e.registration? id = none) (change : ∀ id, e.change? id = none)
    (still : a.ledger = s.ledger) : Told (history ++ [e]) := by
  refine h.concat fun id => .inl ⟨registration id, change id, fun b hb same => ?_⟩
  rw [puts] at hb
  cases hb
  rw [← same, kind]
  exact ⟨s, last, still.symm⟩

end

/-- One move keeps this up. -/
lemma Told.step {w w' : World MemoryStore.backend} (h : Told w.history) (traced : w.Traced)
    (kept : w'.Kept) (nodup : w'.drawn.Nodup) (outcome : w.Outcome w') : Told w'.history := by
  cases outcome with
  | silent history _ => rwa [history]
  | @quiet e history _ effect _ =>
    rw [history]
    exact h.concat_of_none (by simp [effect]) (by simp [effect]) (by simp [Event.written?, effect])
  | @wrote e call history effect may performs =>
    rw [history]
    generalize htables : w'.tables = tables at performs
    cases performs with
    | @register name a free unbound =>
      have fresh := kept.registers_once nodup history ⟨name, a, effect, rfl⟩
      exact h.concat_register (traced.lineage_eq_nil fresh) effect may
    | @replace name a s stored =>
      have puts : e.written? = some a := by simp [Event.written?, effect, StoreCall.payload?]
      have last := (traced.stored _ s stored).2
      have kind : a.info.uniqueId = s.info.uniqueId := by
        rw [(traced.precedes_of_mayWrite stored may).1.info]
      obtain ⟨registration, current, cached, read, same, contributes⟩ :=
        contributes_of_replace effect may
      -- what the job has read is what is stored, but for the artifact
      have ledger := Aggregate.ledger_eq_of_bare
        (traced.bare_eq_of_revision stored (traced.written_of_transcript read) same)
      rw [ledger] at contributes
      rcases contributes with ⟨request, change, grown⟩ | ⟨change, still⟩
      · exact h.concat_change last puts kind registration change grown
      · exact h.concat_still last puts kind registration change still
    | @remove name s stored =>
      exact h.concat_of_none (by simp [effect]) (by simp [effect])
        (by simp [Event.written?, effect, StoreCall.payload?])

variable {moves : List (Move MemoryStore.backend)}

/-- **The texts of a ledger** are those that were contributed to it, after any moves. -/
theorem told_after (moves : List (Move MemoryStore.backend)) :
    Told (start.after moves).history := by
  induction moves using List.reverseRecOn with
  | nil => exact ⟨fun _ _ => ⟨rfl, rfl⟩, fun _ _ last => nomatch last⟩
  | append_singleton moves m ih =>
    exact ih.step (traced_after _) (kept_after _ _) (nodup_drawn_after _ _) (outcome_after _ m)

/-- A job contributes to a list once at most, if each entry is a write of its own. -/
lemma Kept.nodup_callers {B : Backend} {w : World B} (kept : w.Kept) {α : Type}
    {f : Event → Option (Nat × α)}
    (wrote : ∀ e x, f e = some x → x.1 = e.caller ∧ e.talk.effect? ≠ none) :
    ((w.history.filterMap f).map (·.1)).Nodup := by
  refine List.pairwise_map.2 (List.pairwise_filterMap.2 ?_)
  refine kept.pairwise_caller_ne.imp fun apart x hx y hy => ?_
  obtain ⟨hx, first⟩ := wrote _ x hx
  obtain ⟨hy, second⟩ := wrote _ y hy
  rw [hx, hy]
  exact apart first second

lemma effect?_ne_none_of_registration? {id : UInt64} {e : Event} {x : Nat × Registration}
    (h : e.registration? id = some x) : x.1 = e.caller ∧ e.talk.effect? ≠ none := by
  obtain ⟨caller, name, a, effect, -⟩ := effect?_of_registration? h
  exact ⟨caller, by simp [effect]⟩

lemma effect?_ne_none_of_change? {id : UInt64} {e : Event} {x : Nat × Change}
    (h : e.change? id = some x) : x.1 = e.caller ∧ e.talk.effect? ≠ none := by
  obtain ⟨caller, name, a, expected, effect⟩ := effect?_of_change? h
  exact ⟨caller, by simp [effect]⟩

/-- No job contributes twice. -/
lemma Kept.nodup_contributors {B : Backend} {w : World B} (kept : w.Kept) (id : UInt64) :
    ((registrationsOf w.history id).map (·.1) ++ (changesOf w.history id).map (·.1)).Nodup := by
  refine List.nodup_append.2
    ⟨kept.nodup_callers fun e x => effect?_ne_none_of_registration?,
      kept.nodup_callers fun e x => effect?_ne_none_of_change?, fun i hi j hj same => ?_⟩
  obtain ⟨x, hx, rfl⟩ := List.mem_map.1 hi
  obtain ⟨y, hy, rfl⟩ := List.mem_map.1 hj
  obtain ⟨e, he, hx⟩ := List.mem_filterMap.1 hx
  obtain ⟨e', he', hy⟩ := List.mem_filterMap.1 hy
  obtain ⟨hx, name, a, effect, -⟩ := effect?_of_registration? hx
  obtain ⟨hy, name', a', expected, effect'⟩ := effect?_of_change? hy
  have := kept.eq_of_effects he he' (by simp [effect]) (by simp [effect'])
    (hx.symm.trans (same.trans hy))
  rw [this, effect'] at effect
  cases effect

/-- A job was to update a schema, and was answered with a receipt. -/
def Updated {B : Backend} (w : World B) (caller : Nat) (name : SchemaName) (request : Change)
    (receipt : Receipt) : Prop :=
  ∃ r actor, w.threads[caller]? = some ⟨⟨r, actor, .update name request⟩, .done (.ok receipt)⟩

/-- The write of an update that was answered with a receipt. -/
lemma Kept.exists_write_of_updated {B : Backend} {w : World B} (kept : w.Kept) {caller : Nat}
    {name : SchemaName} {request : Change} {receipt : Receipt}
    (ended : w.Updated caller name request receipt) :
    ∃ before e later a expected, w.history = before ++ e :: later ∧
      e.talk.effect? = some (.replace name a expected) ∧ e.caller = caller ∧
      (∃ r actor, e.job = ⟨r, actor, .update name request⟩) ∧
      receipt = ⟨a.info.uniqueId, a.lastVersion⟩ := by
  obtain ⟨r, actor, ended⟩ := ended
  obtain ⟨past, a, expected, -, talks, rfl⟩ := kept.mayEnd ended
  obtain ⟨e, he, rfl, talk⟩ :=
    mem_talksOf.1 (talks ▸ List.mem_append_right _ (List.mem_singleton_self _))
  obtain ⟨before, later, split⟩ := List.append_of_mem he
  obtain ⟨t, ht, same⟩ := kept.owned e he
  cases ht.symm.trans ended
  exact ⟨before, e, later, a, expected, split, by rw [talk]; rfl, rfl, ⟨r, actor, same.symm⟩, rfl⟩

lemma exists_write_of_updated {caller : Nat} {name : SchemaName} {request : Change}
    {receipt : Receipt} (ended : (start.after moves).Updated caller name request receipt) :
    ∃ before e later a expected, (start.after moves).history = before ++ e :: later ∧
      e.talk.effect? = some (.replace name a expected) ∧ e.caller = caller ∧
      (∃ r actor, e.job = ⟨r, actor, .update name request⟩) ∧
      receipt = ⟨a.info.uniqueId, a.lastVersion⟩ :=
  have kept : (start.after moves).Kept := kept_after _ moves
  kept.exists_write_of_updated ended

/-- The last text of a ledger is that of the record at the last version. -/
lemma exists_record_of_texts {a : Aggregate} {texts : List String} {idl : String}
    (grown : a.ledger.records.map (·.idl) = texts ++ [idl]) :
    ∃ record, a.ledger.record? a.lastVersion = some record ∧ record.idl = idl := by
  have last : (a.ledger.records.map (·.idl)).getLast? = some idl := by
    rw [grown, List.getLast?_concat]
  rw [List.getLast?_map, Option.map_eq_some_iff] at last
  obtain ⟨record, last, rfl⟩ := last
  have nonempty : a.lastVersion ≠ 0 := by
    intro none
    rw [List.length_eq_zero_iff.1 none] at last
    cases last
  refine ⟨record, ?_, rfl⟩
  rw [Ledger.record?, if_neg nonempty, ← last, List.getLast?_eq_getElem?]
  rfl

/-- The moment of an update: the schema is stored with its text in the last place, and this is
the place of the update among the changes. -/
lemma moment_of_update {before later : List Event} {e : Event} {r : Registry} {actor : String}
    {name : SchemaName} {request : Change} {a : Aggregate} {expected : Revision}
    (split : (start.after moves).history = before ++ e :: later)
    (effect : e.talk.effect? = some (.replace name a expected))
    (update : e.job = ⟨r, actor, .update name request⟩) :
    e.change? a.info.uniqueId = some (e.caller, request) ∧
      (changesOf before a.info.uniqueId).length + 2 = a.lastVersion ∧
      (∃ record, a.ledger.record? a.lastVersion = some record ∧ record.idl = request.idl) ∧
      ∃ earlier rest, moves = earlier ++ rest ∧
        (start.after earlier).stored? name.fullName = some a := by
  obtain ⟨earlier, m, rest, rfl, rfl, after, may, performs⟩ := moment_of_write split effect
  have traced := traced_after earlier
  generalize htables : (start.after (earlier ++ [m])).tables = tables at performs
  cases performs with
  | @replace _ _ s stored =>
    obtain ⟨continues, -⟩ := traced.precedes_of_mayWrite stored may
    have change := change?_of_update effect update
    obtain ⟨-, current, cached, read, same, contributes⟩ := contributes_of_replace effect may
    have ledger := Aggregate.ledger_eq_of_bare
      (traced.bare_eq_of_revision stored (traced.written_of_transcript read) same)
    have grown : a.ledger.records.map (·.idl) = s.ledger.records.map (·.idl) ++ [request.idl] := by
      rcases contributes with ⟨request', change', grown⟩ | ⟨change', -⟩
      · have both := (change s.info.uniqueId).symm.trans (change' s.info.uniqueId)
        simp only [Aggregate.revision, if_true, Option.some.injEq, Prod.mk.injEq, true_and] at both
        rw [grown, ledger, both]
      · have both := (change s.info.uniqueId).symm.trans (change' s.info.uniqueId)
        simp [Aggregate.revision] at both
    obtain ⟨one, texts⟩ := (told_after earlier).texts _ s (traced.stored _ s stored).2
    rw [← continues.info]
    refine ⟨by rw [change]; exact if_pos rfl, ?_, exists_record_of_texts grown, earlier ++ [m], rest,
      by simp, ?_⟩
    · have count := congrArg List.length (grown.trans (by rw [texts]))
      simp only [textsOf, List.length_map, List.length_append, one, List.length_singleton] at count
      rw [Aggregate.lastVersion, Ledger.lastVersion]
      omega
    · rw [stored?, htables, Dictionary.get?_insert, if_pos rfl]

/-! ### No update is lost, doubled or misplaced -/

/-- What the jobs of a run have made of the ledgers. -/
structure Accounted (moves : List (Move MemoryStore.backend)) : Prop where
  /-- The texts of a stored ledger are the text of the one registration and the texts of all
  changes, in the order of their writes. -/
  ledger : ∀ key a, (start.after moves).stored? key = some a →
    ∃ caller request,
      registrationsOf (start.after moves).history a.info.uniqueId = [(caller, request)] ∧
      a.ledger.records.map (·.idl) =
        request.idl :: (changesOf (start.after moves).history a.info.uniqueId).map (·.2.idl)
  /-- No job is among the contributors twice. -/
  once : ∀ id, ((registrationsOf (start.after moves).history id).map (·.1) ++
    (changesOf (start.after moves).history id).map (·.1)).Nodup
  /-- An update that was answered with a version was the change for this version: it was stored
  with its text in the record of this version, and this is the record of all that is stored
  under the id. -/
  placed : ∀ caller name request receipt,
    (start.after moves).Updated caller name request receipt →
    2 ≤ receipt.version ∧
    (changesOf (start.after moves).history receipt.schemaId)[receipt.version - 2]? =
      some (caller, request) ∧
    ∃ earlier later a record, moves = earlier ++ later ∧
      (start.after earlier).stored? name.fullName = some a ∧
      a.info.uniqueId = receipt.schemaId ∧ a.lastVersion = receipt.version ∧
      a.ledger.record? receipt.version = some record ∧ record.version = receipt.version ∧
      record.idl = request.idl ∧
      ∀ key b, (start.after moves).stored? key = some b → b.info.uniqueId = receipt.schemaId →
        b.ledger.record? receipt.version = some record
  /-- No two updates are answered with one receipt. -/
  distinct : ∀ caller caller' name name' request request' receipt,
    (start.after moves).Updated caller name request receipt →
    (start.after moves).Updated caller' name' request' receipt → caller = caller'
  /-- A job that was answered with a failure has contributed nothing. -/
  failed : ∀ caller job failure,
    (start.after moves).threads[caller]? = some ⟨job, .done (.error failure)⟩ →
    ∀ id, caller ∉ (registrationsOf (start.after moves).history id).map (·.1) ∧
      caller ∉ (changesOf (start.after moves).history id).map (·.1)

/-- The place of an update among the changes. -/
lemma change_of_updated {caller : Nat} {name : SchemaName} {request : Change}
    {receipt : Receipt} (ended : (start.after moves).Updated caller name request receipt) :
    2 ≤ receipt.version ∧
      (changesOf (start.after moves).history receipt.schemaId)[receipt.version - 2]? =
        some (caller, request) := by
  obtain ⟨before, e, later, a, expected, split, effect, rfl, ⟨r, actor, job⟩, rfl⟩ :=
    exists_write_of_updated ended
  obtain ⟨change, place, -⟩ := moment_of_update split effect job
  refine ⟨by dsimp only; omega, ?_⟩
  dsimp only
  rw [split, changesOf, List.filterMap_append, List.filterMap_cons, change, ← changesOf,
    show a.lastVersion - 2 = (changesOf before a.info.uniqueId).length by omega,
    List.getElem?_append_right (Nat.le_refl _), Nat.sub_self, List.getElem?_cons_zero]

/-- A job that failed is no contributor. -/
lemma not_contributor_of_failed {caller : Nat} {job : Job} {failure : Failure}
    (ended : (start.after moves).threads[caller]? = some ⟨job, .done (.error failure)⟩)
    {α : Type} {f : Event → Option (Nat × α)}
    (wrote : ∀ e x, f e = some x → x.1 = e.caller ∧ e.talk.effect? ≠ none) :
    caller ∉ ((start.after moves).history.filterMap f).map (·.1) := by
  intro member
  obtain ⟨x, hx, rfl⟩ := List.mem_map.1 member
  obtain ⟨e, he, hx⟩ := List.mem_filterMap.1 hx
  obtain ⟨same, effect⟩ := wrote e x hx
  exact effect ((kept_after _ moves).mayEnd ended e.talk (mem_talksOf.2 ⟨e, he, same.symm, rfl⟩))

/-- **No update is lost, doubled or misplaced**, in whatever order the questions of the jobs
are answered. -/
theorem accounted_after (moves : List (Move MemoryStore.backend)) : Accounted moves where
  ledger := by
    intro key a stored
    obtain ⟨one, texts⟩ :=
      (told_after moves).texts _ a ((traced_after moves).stored key a stored).2
    obtain ⟨⟨caller, request⟩, single⟩ := List.length_eq_one_iff.1 one
    exact ⟨caller, request, single, by rw [texts, textsOf, single]; rfl⟩
  once := (kept_after _ moves).nodup_contributors
  placed := by
    intro caller name request receipt ended
    obtain ⟨two, place⟩ := change_of_updated ended
    obtain ⟨before, e, later, a, expected, split, effect, rfl, ⟨r, actor, job⟩, rfl⟩ :=
      exists_write_of_updated ended
    obtain ⟨-, -, ⟨record, here, text⟩, earlier, rest, rfl, stored⟩ :=
      moment_of_update split effect job
    have traced := traced_after earlier
    have member := (mem_lineage.1 (traced.mem_lineage_of_stored stored)).1
    refine ⟨two, place, earlier, rest, a, record, rfl, stored, rfl, rfl, here,
      Ledger.version_of_record? (traced.contiguous a member) here, text,
      fun key b stored' same => ?_⟩
    exact Ledger.record?_of_prefix
      ((traced_after _).precedes_stored stored' (written_subset rest member) same.symm).records here
  distinct := by
    intro caller caller' name name' request request' receipt ended ended'
    have place := (change_of_updated ended).2.symm.trans (change_of_updated ended').2
    exact congrArg Prod.fst (Option.some.inj place)
  failed := fun caller job failure ended id =>
    ⟨not_contributor_of_failed ended fun _ _ => effect?_ne_none_of_registration?,
      not_contributor_of_failed ended fun _ _ => effect?_ne_none_of_change?⟩

open Rehearsal in
example :
    changesOf (start.after (registering ++ alone 1 (.update orders change) 6)).history 7 =
      [(1, change)] := by
  rfl

end World

end SchemaLedger
