import SchemaLedger.Proofs.Concurrency.World

/-!
What is stored, and all that was stored before.

* `written`, `lineage`: all that was ever stored, and all that was stored of one schema, oldest
  first.
* `Aggregate.Precedes`: name, metadata and creation are the same, the later ledger continues the
  earlier one, and nothing but the artifact differs as long as no version is added.
* `Chronicle`: what is stored is the end of its lineage, a lineage is a chain of
  `Aggregate.Precedes`, and a job has read nothing but members of a lineage.  Each write keeps it
  (`Chronicle.register`, `Chronicle.replace`), and so does everything else (`Chronicle.keep`).

A write that succeeds on an outdated read is the case that needs all of it: the revision it expects
is that of the end of the lineage, so that what was read differs from what is stored in the
artifact at most (`Chronicle.precedes_of_mayWrite`).
-/

namespace SchemaLedger

/-- The schema that a write puts into the store. -/
def StoreCall.payload? : StoreCall → Option Aggregate
  | .register _ a => some a
  | .replace _ a _ => some a
  | _ => none

/-- The schema that an exchange has put into the store. -/
def Event.written? (e : Event) : Option Aggregate :=
  e.talk.effect?.bind StoreCall.payload?

/-- What a job stores is registered under its name; or it is a new version of what the job has
read; or it is what the job has read without an artifact, with one. -/
lemma Job.MayWrite.payload_cases {j : Job} {past : List Talk} {call : StoreCall} {a : Aggregate}
    (may : j.MayWrite past call) (payload : call.payload? = some a) :
    (∃ name, call = .register name a ∧ a.name = name.unversioned ∧ a.info.tenant = name.tenant ∧
      a.info.schemaName = name.schema ∧
      ∃ record, a.ledger.records = [record] ∧ record.subjects = [name.subjectRef]) ∨
    ∃ current name cached, (⟨.store (.fetch name cached), Except.ok (some current)⟩ : Talk) ∈ past ∧
      call = .replace name a current.revision ∧ a.name = current.name ∧ a.info = current.info ∧
      ((∃ record, a.ledger.records = current.ledger.records ++ [record] ∧
          record.subjects = [name.subjectRef]) ∨
        (∃ r actor, j = ⟨r, actor, .compileArtifact name⟩) ∧ current.currentArtifact = none ∧
          ∃ d, a = current.withArtifact d) := by
  cases may with
  | @register _ _ name _ _ _ _ _ _ valid attached =>
    cases payload
    have same := attached.bare_eq
    refine .inl ⟨name, rfl, ?_⟩
    rw [Aggregate.name_eq_of_bare same, Aggregate.info_eq_of_bare same,
      Aggregate.ledger_eq_of_bare same]
    exact ⟨rfl, rfl, rfl, _, rfl, rfl⟩
  | @update _ _ name _ current _ _ _ _ _ valid next attached =>
    cases payload
    obtain ⟨last, -, rfl⟩ := Aggregate.next?_eq_some_iff.1 next
    have same := attached.bare_eq
    refine .inr ⟨current, name, _,
      List.mem_append_left _ (List.mem_append_left _ Registry.fetch_mem_opening), rfl, ?_⟩
    rw [Aggregate.name_eq_of_bare same, Aggregate.info_eq_of_bare same,
      Aggregate.ledger_eq_of_bare same]
    exact ⟨rfl, rfl, .inl ⟨_, rfl, rfl⟩⟩
  | delete valid => cases payload
  | @attach r actor name current d valid on missing bound =>
    cases payload
    exact .inr ⟨current, name, _, List.mem_append_left _ Registry.fetch_mem_opening, rfl, rfl, rfl,
      .inr ⟨⟨r, actor, rfl⟩, missing, d, rfl⟩⟩

/-- All schemas that were put into the store, oldest first. -/
def written (history : List Event) : List Aggregate :=
  history.filterMap Event.written?

/-- All that was stored of the schema with the given id, oldest first. -/
def lineage (history : List Event) (id : UInt64) : List Aggregate :=
  (written history).filter fun a => a.info.uniqueId == id

/-- The exchange has completed the registration of a schema with the given id. -/
def Event.Registers (e : Event) (id : UInt64) : Prop :=
  ∃ name a, e.talk.effect? = some (.register name a) ∧ a.info.uniqueId = id

/-! ### Schemas that grow -/

/-- Two audits tell of one creation. -/
structure Audit.SameOrigin (a b : Audit) : Prop where
  createdBy : a.createdBy = b.createdBy
  description : a.description = b.description
  createdAt : a.createdAt = b.createdAt

lemma Audit.SameOrigin.trans {a b c : Audit} (ab : a.SameOrigin b) (bc : b.SameOrigin c) :
    a.SameOrigin c :=
  ⟨ab.createdBy.trans bc.createdBy, ab.description.trans bc.description,
    ab.createdAt.trans bc.createdAt⟩

namespace Aggregate

/-- The second schema is the first one, or came from it by more versions and other
artifacts. -/
structure Precedes (a b : Aggregate) : Prop where
  name : a.name = b.name
  info : a.info = b.info
  origin : a.audit.SameOrigin b.audit
  records : a.ledger.records <+: b.ledger.records
  bare : a.lastVersion = b.lastVersion → a.bare = b.bare

/-- An artifact makes no difference. -/
lemma Precedes.of_bare {a b : Aggregate} (h : a.bare = b.bare) : a.Precedes b where
  name := name_eq_of_bare h
  info := info_eq_of_bare h
  origin := by
    rw [(bare_eq_bare_iff.1 h).2.1]
    exact ⟨rfl, rfl, rfl⟩
  records := by rw [ledger_eq_of_bare h]
  bare := fun _ => h

lemma Precedes.trans {a b c : Aggregate} (ab : a.Precedes b) (bc : b.Precedes c) :
    a.Precedes c where
  name := ab.name.trans bc.name
  info := ab.info.trans bc.info
  origin := ab.origin.trans bc.origin
  records := ab.records.trans bc.records
  bare := fun h => by
    have h₁ := ab.records.length_le
    have h₂ := bc.records.length_le
    simp only [lastVersion, Ledger.lastVersion] at h
    exact (ab.bare (by simp only [lastVersion, Ledger.lastVersion]; omega)).trans
      (bc.bare (by simp only [lastVersion, Ledger.lastVersion]; omega))

/-- A schema precedes its next version. -/
lemma Precedes.of_next? {a c : Aggregate} {name : SchemaName} {owner idl : String}
    {modified started : Instant} (h : a.next? name owner idl modified started = some c) :
    a.Precedes c := by
  obtain ⟨r, -, rfl⟩ := next?_eq_some_iff.1 h
  refine ⟨rfl, rfl, ⟨rfl, rfl, rfl⟩, List.prefix_append _ _, fun same => ?_⟩
  simp [lastVersion, Ledger.lastVersion] at same

end Aggregate

/-! ### Histories that get longer -/

lemma written_concat {history : List Event} {e : Event} :
    written (history ++ [e]) = written history ++ e.written?.toList := by
  cases h : e.written? <;> simp [written, h]

lemma lineage_concat {history : List Event} {e : Event} {id : UInt64} :
    lineage (history ++ [e]) id =
      lineage history id ++ e.written?.toList.filter fun a => a.info.uniqueId == id := by
  rw [lineage, written_concat, List.filter_append, lineage]

lemma mem_lineage {history : List Event} {id : UInt64} {a : Aggregate} :
    a ∈ lineage history id ↔ a ∈ written history ∧ a.info.uniqueId = id := by
  simp [lineage]

/-- Nothing is added where nothing is written. -/
lemma written_append_of_none {history new : List Event} (h : ∀ e ∈ new, e.written? = none) :
    written (history ++ new) = written history := by
  rw [written, List.filterMap_append, List.filterMap_eq_nil_iff.2 h, List.append_nil, written]

/-- What is written becomes the end of its lineage. -/
lemma lineage_concat_self {history : List Event} {e : Event} {a : Aggregate}
    (h : e.written? = some a) :
    lineage (history ++ [e]) a.info.uniqueId = lineage history a.info.uniqueId ++ [a] := by
  simp [lineage_concat, h]

/-- All other lineages stay as they are. -/
lemma lineage_concat_of_ne {history : List Event} {e : Event} {a : Aggregate} {id : UInt64}
    (h : e.written? = some a) (ne : a.info.uniqueId ≠ id) :
    lineage (history ++ [e]) id = lineage history id := by
  simp [lineage_concat, h, ne]

/-- The two exchanges that drew an id are one, if no id was drawn twice. -/
lemma eq_of_drawn {history : List Event}
    (h : (history.filterMap fun e => e.talk.drawn?).Nodup) {e₁ e₂ : Event}
    (h₁ : e₁ ∈ history) (h₂ : e₂ ∈ history) {id : UInt64} (drawn₁ : e₁.talk.drawn? = some id)
    (drawn₂ : e₂.talk.drawn? = some id) : e₁ = e₂ := by
  have apart := List.pairwise_filterMap.1 h
  have : Std.Symm fun a b : Event =>
      ∀ x, a.talk.drawn? = some x → ∀ y, b.talk.drawn? = some y → x ≠ y :=
    ⟨fun _ _ hab x hx y hy => (hab y hy x hx).symm⟩
  by_contra ne
  exact apart.forall h₁ h₂ ne id drawn₁ id drawn₂ rfl

/-- A job that registers a schema has drawn its id. -/
lemma Job.MayWrite.drew {j : Job} {past : List Talk} {name : SchemaName} {a : Aggregate}
    (h : j.MayWrite past (.register name a)) :
    ∃ x ∈ past, x.drawn? = some a.info.uniqueId := by
  cases h with
  | @register _ _ _ _ id _ _ _ _ valid attached =>
    refine ⟨⟨.drawId, id⟩, by simp, ?_⟩
    rw [Aggregate.info_eq_of_bare attached.bare_eq]
    rfl

namespace World

variable {B : Backend} {w : World B}

/-- The write that has stored a schema. -/
lemma Kept.exists_write (kept : w.Kept) {a : Aggregate} (stored : a ∈ written w.history) :
    ∃ before e later call, w.history = before ++ e :: later ∧ call.payload? = some a ∧
      e.job.MayWrite (talksOf before e.caller) call := by
  obtain ⟨e, he, puts⟩ := List.mem_filterMap.1 stored
  obtain ⟨call, effect, payload⟩ := Option.bind_eq_some_iff.1 puts
  obtain ⟨before, later, split⟩ := List.append_of_mem he
  exact ⟨before, e, later, call, split, payload, kept.mayWrite before e later call split effect⟩

/-- The exchange that drew the id under which a job registers. -/
lemma Kept.drew (kept : w.Kept) {before later : List Event} {e : Event} {id : UInt64}
    (split : w.history = before ++ e :: later) (h : e.Registers id) :
    ∃ d ∈ before, d.caller = e.caller ∧ d.talk.drawn? = some id := by
  obtain ⟨name, a, effect, rfl⟩ := h
  obtain ⟨x, hx, drawn⟩ := (kept.mayWrite before e later _ split effect).drew
  obtain ⟨d, hd, same, rfl⟩ := mem_talksOf.1 hx
  exact ⟨d, hd, same, drawn⟩

/-- An id is registered once at most. -/
lemma Kept.registers_once (kept : w.Kept) (nodup : w.drawn.Nodup) {before later : List Event}
    {e : Event} {id : UInt64} (split : w.history = before ++ e :: later) (h : e.Registers id) :
    ∀ e' ∈ before, ¬ e'.Registers id := by
  intro e' he' h'
  obtain ⟨before', later', rfl⟩ := List.append_of_mem he'
  obtain ⟨d, hd, same, drawn⟩ := kept.drew split h
  have split' : w.history = before' ++ e' :: (later' ++ e :: later) := by simp [split]
  obtain ⟨d', hd', same', drawn'⟩ := kept.drew split' h'
  -- both have drawn the id, so both are exchanges of one job, which writes only once
  obtain rfl : d = d' := eq_of_drawn nodup (by rw [split]; exact List.mem_append_left _ hd)
    (by rw [split]; simp [hd']) drawn drawn'
  obtain ⟨name, a, effect, -⟩ := h
  obtain ⟨name', a', effect', -⟩ := h'
  have quiet := (kept.mayWrite _ e later _ split effect).effect?_eq_none e'.talk
    (mem_talksOf.2 ⟨e', he', same'.symm.trans same, rfl⟩)
  rw [quiet] at effect'
  cases effect'

end World

/-! ### What jobs make of what they read -/

/-- What a job registers is a first version under the name. -/
lemma Job.MayWrite.registers {j : Job} {past : List Talk} {name : SchemaName} {a : Aggregate}
    (may : j.MayWrite past (.register name a)) :
    a.name = name.unversioned ∧ a.ledger.isContiguous = true := by
  cases may with
  | register valid attached =>
    rw [Aggregate.name_eq_of_bare attached.bare_eq, Aggregate.ledger_eq_of_bare attached.bare_eq]
    exact ⟨rfl, Ledger.isContiguous_start ..⟩

/-- What a job has read and now replaces, with what it has made of it. -/
lemma Job.MayWrite.continues {j : Job} {past : List Talk} {name : SchemaName} {a : Aggregate}
    {expected : Revision} (may : j.MayWrite past (.replace name a expected)) :
    ∃ current cached, (⟨.store (.fetch name cached), Except.ok (some current)⟩ : Talk) ∈ past ∧
      current.revision = expected ∧ current.Precedes a ∧
      (current.ledger.isContiguous = true → a.ledger.isContiguous = true) := by
  cases may with
  | @update _ _ _ _ current candidate _ _ _ _ valid next attached =>
    refine ⟨current, _,
      List.mem_append_left _ (List.mem_append_left _ Registry.fetch_mem_opening), rfl,
      (Aggregate.Precedes.of_next? next).trans (.of_bare attached.bare_eq.symm), fun h => ?_⟩
    rw [Aggregate.ledger_eq_of_bare attached.bare_eq]
    obtain ⟨l, happend, rfl⟩ := Option.map_eq_some_iff.1 next
    exact Ledger.isContiguous_append h happend
  | @attach _ _ _ current d valid on missing bound =>
    exact ⟨current, _, List.mem_append_left _ Registry.fetch_mem_opening, rfl, .of_bare rfl, id⟩

/-! ### The chronicle of a store -/

/-- What is known of the schemas that are stored, each in its place, and of those that were stored
before. -/
structure Chronicle {K : Type} (place : Aggregate → K) (stored : K → Option Aggregate)
    (history : List Event) : Prop where
  /-- What is stored is stored in its place, and is the end of its lineage. -/
  stored : ∀ key a, stored key = some a →
    key = place a ∧ (lineage history a.info.uniqueId).getLast? = some a
  /-- Each member of a lineage continues the members before it. -/
  grows : ∀ id, (lineage history id).Pairwise Aggregate.Precedes
  /-- What was read is a member of a lineage. -/
  fetched : ∀ e ∈ history, ∀ name cached a,
    e.talk = ⟨.store (.fetch name cached), Except.ok (some a)⟩ → a ∈ written history
  /-- Every lineage starts with a registration. -/
  born : ∀ a ∈ written history, ∃ e ∈ history, e.Registers a.info.uniqueId
  contiguous : ∀ a ∈ written history, a.ledger.isContiguous = true

namespace Chronicle

variable {K : Type} {place : Aggregate → K} {stored stored' : K → Option Aggregate}
  {history new : List Event} {key : K} {a b s : Aggregate}

/-- Nothing was stored and nothing is. -/
lemma empty (none : ∀ key, stored key = none) : Chronicle place stored [] where
  stored key a here := by
    rw [none] at here
    cases here
  grows _ := .nil
  fetched _ he := nomatch he
  born _ ha := nomatch ha
  contiguous _ ha := nomatch ha

lemma mem_lineage_of_stored (h : Chronicle place stored history) (here : stored key = some a) :
    a ∈ lineage history a.info.uniqueId :=
  List.mem_of_getLast? (h.stored key a here).2

/-- What is stored was written. -/
lemma written_of_stored (h : Chronicle place stored history) (here : stored key = some a) :
    a ∈ written history :=
  (mem_lineage.1 (h.mem_lineage_of_stored here)).1

/-- Each member of a lineage precedes its end, which is stored. -/
lemma precedes_stored (h : Chronicle place stored history) (here : stored key = some s)
    (ha : a ∈ written history) (same : a.info.uniqueId = s.info.uniqueId) : a.Precedes s := by
  have member : a ∈ lineage history s.info.uniqueId := mem_lineage.2 ⟨ha, same⟩
  obtain ⟨older, chain⟩ := List.getLast?_eq_some_iff.1 (h.stored key s here).2
  have grows := h.grows s.info.uniqueId
  rw [chain] at member grows
  rcases List.mem_append.1 member with member | member
  · exact (List.pairwise_append.1 grows).2.2 a member s (List.mem_singleton_self s)
  · rw [List.mem_singleton.1 member]
    exact .of_bare rfl

/-- **A revision that is still stored has not changed**: whoever read it knows what is stored
but for the artifact. -/
lemma bare_eq_of_revision (h : Chronicle place stored history) (here : stored key = some s)
    (ha : a ∈ written history) (same : a.revision = s.revision) : a.bare = s.bare := by
  simp only [Aggregate.revision, Revision.mk.injEq] at same
  exact (h.precedes_stored here ha same.1).bare same.2

/-- Two schemas that are stored at once have two ids. -/
lemma key_unique (h : Chronicle place stored history) {key' : K} (ha : stored key = some a)
    (hb : stored key' = some b) (same : a.info.uniqueId = b.info.uniqueId) : key = key' := by
  obtain ⟨rfl, last⟩ := h.stored key a ha
  obtain ⟨rfl, last'⟩ := h.stored key' b hb
  rw [same, last'] at last
  cases last
  rfl

/-- Nothing was stored under an id that was never registered. -/
lemma lineage_eq_nil {id : UInt64} (h : Chronicle place stored history)
    (fresh : ∀ e ∈ history, ¬ e.Registers id) : lineage history id = [] := by
  refine List.eq_nil_iff_forall_not_mem.2 fun b hb => ?_
  obtain ⟨member, rfl⟩ := mem_lineage.1 hb
  obtain ⟨e, he, registers⟩ := h.born b member
  exact fresh e he registers

/-- What a job has read is a member of a lineage. -/
lemma written_of_transcript (h : Chronicle place stored history) {caller : Nat} {name : SchemaName}
    {cached : Bool} (read : (⟨.store (.fetch name cached), Except.ok (some a)⟩ : Talk) ∈
      talksOf history caller) : a ∈ written history := by
  obtain ⟨e, he, -, talk⟩ := World.mem_talksOf.1 read
  exact h.fetched e he name cached a talk

/-- A write that succeeds continues what is stored, even if what the job has read is outdated:
the revision is still the same, and so all but the artifact is. -/
lemma precedes_of_mayWrite (h : Chronicle place stored history) (here : stored key = some s)
    {j : Job} {caller : Nat} {name : SchemaName}
    (may : j.MayWrite (talksOf history caller) (.replace name a s.revision)) :
    s.Precedes a ∧ a.ledger.isContiguous = true := by
  obtain ⟨current, cached, read, same, continues, contiguous⟩ := may.continues
  have hcurrent := h.written_of_transcript read
  have bare := h.bare_eq_of_revision here hcurrent same
  exact ⟨(Aggregate.Precedes.of_bare bare.symm).trans continues,
    contiguous (h.contiguous current hcurrent)⟩

/-- Exchanges that put nothing into the store. -/
lemma keep (h : Chronicle place stored history) (quiet : ∀ e ∈ new, e.written? = none)
    (less : ∀ key a, stored' key = some a → stored key = some a)
    (read : ∀ e ∈ new, ∀ name cached a,
      e.talk = ⟨.store (.fetch name cached), Except.ok (some a)⟩ → a ∈ written history) :
    Chronicle place stored' (history ++ new) := by
  have same : written (history ++ new) = written history := written_append_of_none quiet
  have lineages (id) : lineage (history ++ new) id = lineage history id := by
    rw [lineage, same, lineage]
  refine ⟨fun key a here => ?_, fun id => ?_, fun e he name cached a asked => ?_, fun a ha => ?_,
    fun a ha => ?_⟩
  · rw [lineages]
    exact h.stored key a (less key a here)
  · rw [lineages]
    exact h.grows id
  · rw [same]
    rcases List.mem_append.1 he with he | he
    · exact h.fetched e he name cached a asked
    · exact read e he name cached a asked
  · rw [same] at ha
    obtain ⟨e, he, registers⟩ := h.born a ha
    exact ⟨e, List.mem_append_left _ he, registers⟩
  · rw [same] at ha
    exact h.contiguous a ha

variable [DecidableEq K]

/-- An exchange that puts a schema into the store, behind the others of its lineage. -/
lemma put {e : Event} (h : Chronicle place stored history) (puts : e.written? = some a)
    (known : place a = key) (tables : ∀ k, stored' k = if k = key then some a else stored k)
    (alone : ∀ k b, k ≠ key → stored k = some b → b.info.uniqueId ≠ a.info.uniqueId)
    (older : ∀ b ∈ lineage history a.info.uniqueId, b.Precedes a)
    (born : ∃ e' ∈ history ++ [e], e'.Registers a.info.uniqueId)
    (contiguous : a.ledger.isContiguous = true) : Chronicle place stored' (history ++ [e]) := by
  have all : written (history ++ [e]) = written history ++ [a] := by
    rw [written_concat, puts, Option.toList_some]
  refine ⟨fun k b here => ?_, fun id => ?_, fun e' he' name cached b read => ?_,
    fun b hb => ?_, fun b hb => ?_⟩
  · rw [tables] at here
    split at here
    · rename_i same
      cases here
      rw [lineage_concat_self puts, List.getLast?_concat]
      exact ⟨same.trans known.symm, rfl⟩
    · rename_i other
      rw [lineage_concat_of_ne puts (alone k b other here).symm]
      exact h.stored k b here
  · by_cases same : a.info.uniqueId = id
    · subst same
      rw [lineage_concat_self puts]
      refine List.pairwise_append.2 ⟨h.grows _, List.pairwise_singleton _ _, fun b hb c hc => ?_⟩
      rw [List.mem_singleton.1 hc]
      exact older b hb
    · rw [lineage_concat_of_ne puts same]
      exact h.grows id
  · rw [all]
    rcases List.mem_append.1 he' with he' | he'
    · exact List.mem_append_left _ (h.fetched e' he' name cached b read)
    · -- a read puts nothing into the store
      rw [List.mem_singleton.1 he'] at read
      rw [Event.written?, read] at puts
      cases puts
  · rw [all] at hb
    rcases List.mem_append.1 hb with hb | hb
    · obtain ⟨e', he', registers⟩ := h.born b hb
      exact ⟨e', List.mem_append_left _ he', registers⟩
    · rw [List.mem_singleton.1 hb]
      exact born
  · rw [all] at hb
    rcases List.mem_append.1 hb with hb | hb
    · exact h.contiguous b hb
    · rw [List.mem_singleton.1 hb]
      exact contiguous

/-- A schema under a fresh id starts a lineage. -/
lemma register {e : Event} {name : SchemaName} (h : Chronicle place stored history)
    (effect : e.talk.effect? = some (.register name a)) (known : place a = key)
    (tables : ∀ k, stored' k = if k = key then some a else stored k)
    (fresh : ∀ e' ∈ history, ¬ e'.Registers a.info.uniqueId)
    (contiguous : a.ledger.isContiguous = true) : Chronicle place stored' (history ++ [e]) := by
  have empty := h.lineage_eq_nil fresh
  refine h.put (by simp [Event.written?, effect, StoreCall.payload?]) known tables
    (fun k b _ here same => ?_) (by simp [empty]) ⟨e, by simp, name, a, effect, rfl⟩ contiguous
  have member := h.mem_lineage_of_stored here
  rw [same, empty] at member
  cases member

/-- What replaces a stored schema continues its lineage, if it continues the schema. -/
lemma replace {e : Event} {name : SchemaName} {expected : Revision}
    (h : Chronicle place stored history) (effect : e.talk.effect? = some (.replace name a expected))
    (here : stored key = some s) (known : place a = place s) (continues : s.Precedes a)
    (tables : ∀ k, stored' k = if k = key then some a else stored k)
    (contiguous : a.ledger.isContiguous = true) : Chronicle place stored' (history ++ [e]) := by
  refine h.put (by simp [Event.written?, effect, StoreCall.payload?])
    (known.trans (h.stored _ s here).1.symm) tables (fun k b other here' same => ?_)
    (fun b hb => ?_) ?_ contiguous
  · exact other (h.key_unique here' here (same.trans (by rw [continues.info])))
  · obtain ⟨hb, same⟩ := mem_lineage.1 hb
    exact (h.precedes_stored here hb (same.trans (by rw [continues.info]))).trans continues
  · obtain ⟨e', he', registers⟩ := h.born s (h.written_of_stored here)
    exact ⟨e', List.mem_append_left _ he', continues.info ▸ registers⟩

end Chronicle

end SchemaLedger
