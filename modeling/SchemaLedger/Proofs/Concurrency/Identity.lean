import SchemaLedger.Proofs.Concurrency.Runs
import SchemaLedger.Proofs.Ledger.Integrity

/-!
What a schema is from its registration on.

* `Aggregate.IsMade`: the schemas that operations can make, from a registration by new versions
  and artifacts.  All that is ever stored is one of them (`World.Reaches.isMade`), since a job
  makes what it stores of what it has read.
* `Aggregate.IsCoherent`: name, metadata and records of a schema agree.  So they do in all schemas
  that operations can make (`Aggregate.IsMade.isCoherent`).
* `World.RegisteredOnce`: one registration has the id, and no other, before or after it.
* `World.identity_fixed`: what is stored is coherent, in its place, and was registered once; and as
  long as it is stored, its records are only added to, and all else stays as it was but for the
  last change and the artifact.
-/

namespace SchemaLedger

/-! ### Schemas that operations make -/

namespace Aggregate

/-- The schemas that operations can make. -/
inductive IsMade : Aggregate → Prop
  | registered (name : SchemaName) (request : Registration) (id : UInt64)
    (created started : Instant) : IsMade (.registered name request id created started)
  | next {a c : Aggregate} {name : SchemaName} {owner idl : String} {modified started : Instant}
    (made : IsMade a) (next : a.next? name owner idl modified started = some c) : IsMade c
  | attached {a : Aggregate} (made : IsMade a) (d : Artifact) : IsMade (a.withArtifact d)

/-- Name, metadata and records agree: the name selects no version, the metadata tells its parts, and
the records are numbered 1, 2, … in order, carry the fingerprints of their texts, and belong to the
schema. -/
structure IsCoherent (a : Aggregate) : Prop where
  unversioned : a.name.version = none
  tenant : a.info.tenant = a.name.tenant
  schemaName : a.info.schemaName = a.name.schema
  contiguous : a.ledger.isContiguous = true
  authentic : a.ledger.isAuthentic = true
  records : ∀ r ∈ a.ledger.records, r.schemaId = a.info.uniqueId ∧ r.family = a.info.family

variable {a c : Aggregate} {name : SchemaName}

lemma isCoherent_registered {request : Registration} {id : UInt64} {created started : Instant} :
    (registered name request id created started).IsCoherent := by
  have intact : (Ledger.start name id request.family request.idl started).IsIntact :=
    Ledger.isIntact_start
  obtain ⟨contiguous, authentic⟩ := Ledger.isIntact_iff.1 intact
  refine ⟨rfl, rfl, rfl, contiguous, authentic, fun r hr => ?_⟩
  obtain rfl := List.mem_singleton.1 hr
  exact ⟨rfl, rfl⟩

/-- A new version takes id and family from the record before it. -/
lemma IsCoherent.next {owner idl : String} {modified started : Instant} (h : a.IsCoherent)
    (next : a.next? name owner idl modified started = some c) : c.IsCoherent := by
  obtain ⟨ledger, appended, rfl⟩ := Option.map_eq_some_iff.1 next
  obtain ⟨contiguous, authentic⟩ := Ledger.isIntact_iff.1
    ((Ledger.isIntact_iff.2 ⟨h.contiguous, h.authentic⟩).append appended)
  obtain ⟨last, there, rfl⟩ := Ledger.append?_eq_some_iff.1 appended
  refine ⟨h.unversioned, h.tenant, h.schemaName, contiguous, authentic, fun r hr => ?_⟩
  rcases List.mem_append.1 hr with hr | hr
  · exact h.records r hr
  · obtain rfl := List.mem_singleton.1 hr
    exact h.records last (List.mem_of_getLast? there)

/-- Name, metadata and records of a schema that operations have made agree. -/
lemma IsMade.isCoherent (made : a.IsMade) : a.IsCoherent := by
  induction made with
  | registered name request id created started => exact isCoherent_registered
  | next made next ih => exact ih.next next
  | attached made d ih => exact ⟨ih.1, ih.2, ih.3, ih.4, ih.5, ih.6⟩

/-- No operation labels a schema. -/
lemma IsMade.labels_eq (made : a.IsMade) : a.storage = Labels.empty ∧ a.extras = Labels.empty := by
  induction made with
  | registered name request id created started => exact ⟨rfl, rfl⟩
  | next made next ih =>
    obtain ⟨ledger, -, rfl⟩ := Option.map_eq_some_iff.1 next
    exact ih
  | attached made d ih => exact ih

/-- What a registry stores for a schema is made of it. -/
lemma IsMade.attaches {r : Registry} {compiling : List Talk} (made : a.IsMade)
    (attached : r.Attaches a compiling c) : c.IsMade := by
  cases attached with
  | skipped off => exact made
  | compiled on mode bound => exact made.attached _

end Aggregate

/-- A job makes what it stores of what it has read. -/
lemma Job.MayWrite.isMade {j : Job} {past : List Talk} {call : StoreCall} {a : Aggregate}
    (may : j.MayWrite past call) (payload : call.payload? = some a)
    (read : ∀ name cached current,
      (⟨.store (.fetch name cached), Except.ok (some current)⟩ : Talk) ∈ past → current.IsMade) :
    a.IsMade := by
  cases may with
  | register valid attached =>
    cases payload
    exact (Aggregate.IsMade.registered ..).attaches attached
  | update valid next attached =>
    cases payload
    have made := read _ _ _
      (List.mem_append_left _ (List.mem_append_left _ Registry.fetch_mem_opening))
    exact (made.next next).attaches attached
  | delete valid => cases payload
  | attach valid on missing bound =>
    cases payload
    exact (read _ _ _ (List.mem_append_left _ Registry.fetch_mem_opening)).attached _

namespace World

/-- All that was stored was made by operations, even where an id was drawn twice. -/
lemma Reaches.isMade {w : World MemoryStore.backend} (run : start.Reaches w) :
    ∀ a ∈ written w.history, a.IsMade := by
  induction run with
  | refl => exact fun _ h => nomatch h
  | tail run step ih =>
    intro a ha
    rcases (outcome_of_step ((kept run).step step) step).mem_written ha with
      old | ⟨e, call, -, -, payload, may, -⟩
    · exact ih a old
    · refine may.isMade payload fun name cached current read => ?_
      obtain ⟨x, hx, -, talk⟩ := mem_talksOf.1 read
      exact ih current (written_of_read run hx talk)

/-! ### One registration for each id -/

/-- One exchange has completed a registration with the id, and no other has. -/
def RegisteredOnce {B : Backend} (w : World B) (id : UInt64) : Prop :=
  ∃ before e later, w.history = before ++ e :: later ∧ e.Registers id ∧
    ∀ e' ∈ before ++ later, ¬ e'.Registers id

/-- A registration under an id that is not drawn again is the only one. -/
lemma Kept.registeredOnce {B : Backend} {w : World B} (kept : w.Kept) (nodup : w.drawn.Nodup)
    {e : Event} {id : UInt64} (member : e ∈ w.history) (registers : e.Registers id) :
    w.RegisteredOnce id := by
  obtain ⟨before, later, split⟩ := List.append_of_mem member
  refine ⟨before, e, later, split, registers, fun e' he' again => ?_⟩
  rcases List.mem_append.1 he' with he' | he'
  · exact kept.registers_once nodup split registers e' he' again
  · obtain ⟨between, later', rfl⟩ := List.append_of_mem he'
    have split' : w.history = (before ++ e :: between) ++ e' :: later' := by simp [split]
    exact kept.registers_once nodup split' again e (by simp) registers

/-- **The identity of a schema is fixed, and its history is only added to.**  Whatever is stored is
stored under its own name, agrees with itself, and has an id that no other registration has, before
or after.  Between two moments at which it is stored its records are only added to; name, metadata,
creation and labels stay as they were. -/
theorem identity_fixed (moves more : List (Move MemoryStore.backend)) :
    (∀ key a, (start.after moves).stored? key = some a →
      key = a.name.fullName ∧ a.IsCoherent ∧
      (start.after (moves ++ more)).RegisteredOnce a.info.uniqueId ∧
      ∀ key' b, (start.after moves).stored? key' = some b → b.info.uniqueId = a.info.uniqueId →
        key' = key) ∧
    ∀ key key' a b, (start.after moves).stored? key = some a →
      (start.after (moves ++ more)).stored? key' = some b → a.info.uniqueId = b.info.uniqueId →
      a.ledger.records <+: b.ledger.records ∧ a.name = b.name ∧ a.info = b.info ∧
        a.audit.SameOrigin b.audit ∧ a.storage = b.storage ∧ a.extras = b.extras := by
  have made (moves key a) (stored : (start.after moves).stored? key = some a) : a.IsMade :=
    (reaches_after start moves).isMade a (written_of_stored stored)
  refine ⟨fun key a stored => ⟨((traced_after moves).stored key a stored).1,
    (made moves key a stored).isCoherent, ?_, fun key' b stored' same =>
      (traced_after moves).key_unique stored' stored same⟩, fun key key' a b ha hb same => ?_⟩
  · obtain ⟨e, he, registers⟩ := (traced_after moves).born a (written_of_stored stored)
    exact (kept_after _ _).registeredOnce (nodup_drawn_after _ _) (history_subset moves more he)
      registers
  · have precedes := (traced_after (moves ++ more)).precedes_stored hb
      (written_subset more (written_of_stored ha)) same
    obtain ⟨storage, extras⟩ := (made moves key a ha).labels_eq
    obtain ⟨storage', extras'⟩ := (made (moves ++ more) key' b hb).labels_eq
    exact ⟨precedes.records, precedes.name, precedes.info, precedes.origin,
      storage.trans storage'.symm, extras.trans extras'.symm⟩

end World

namespace Rehearsal

/-- The schema is changed. -/
def changing : List (Move MemoryStore.backend) :=
  alone 1 (.update orders change) 6

/-- The schema is removed, and another one is registered under the name. -/
def renewing : List (Move MemoryStore.backend) :=
  alone 2 (.delete orders) 3 ++
    .start (job (.register orders registration)) :: List.replicate 6 (.answer 3 sayNext)

end Rehearsal

namespace World

open Rehearsal in
/-- A change of a schema adds a record to it.  What is registered after its removal has another
id. -/
theorem identity_of_renewed :
    registered.ledger.records <+: changed.ledger.records ∧
    changed.IsCoherent ∧
    (start.after (registering ++ changing ++ renewing)).stored? orders.fullName =
      some (.registered orders registration 8 noon noon) ∧
    (start.after (registering ++ changing ++ renewing)).RegisteredOnce 7 := by
  have grows := (identity_fixed registering changing).2 orders.fullName orders.fullName registered
    changed rfl rfl rfl
  obtain ⟨-, coherent, once, -⟩ :=
    (identity_fixed (registering ++ changing) renewing).1 orders.fullName changed rfl
  exact ⟨grows.1, coherent, rfl, once⟩

end World

end SchemaLedger
