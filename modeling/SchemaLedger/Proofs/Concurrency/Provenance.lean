import Mathlib.Data.List.Lex
import SchemaLedger.Proofs.Concurrency.Runs

/-!
The times that a schema carries.

* `Instant.le_iff`: instants are ordered as their parts are, from the year to the nanosecond.
* `Aggregate.IsInOrder`: creation, last change and records of a schema come in the order of their
  times, and the last change lies between the last two records.  So it is with a new schema, and a
  new version keeps it if it is stamped after everything that the schema carries
  (`Aggregate.IsInOrder.next`).
* `World.Reaches.stamps_subset`: all times that are stored were read from the clock before.
* `World.provenance_in_order`: with a clock that never goes back, all that is stored is in order.

A candidate is stamped well before it is stored, and other jobs read the clock and write in between.
What carries the proof is the read, and not the write: whatever a job has read from the store was
stored by then, so that all its times were read from the clock by then.
-/

namespace SchemaLedger

/-! ### Instants in order -/

namespace Instant

/-- Lists of numbers are compared as the library does. -/
lemma precedes_eq_decide (as bs : List Int) : precedes as bs = decide (as < bs) := by
  induction as generalizing bs with
  | nil => cases bs <;> simp [precedes]
  | cons a as ih =>
    cases bs with
    | nil => simp [precedes]
    | cons b bs =>
      rw [Bool.eq_iff_iff]
      simp [precedes, ih, List.cons_lt_cons_iff]

/-- Instants are ordered as their parts are. -/
lemma le_iff {a b : Instant} : a ≤ b ↔ a.parts ≤ b.parts := by
  change b.isBefore a = false ↔ a.parts ≤ b.parts
  rw [isBefore, precedes_eq_decide, decide_eq_false_iff_not, not_lt]

instance : Preorder Instant where
  le_refl _ := le_iff.2 le_rfl
  le_trans _ _ _ ab bc := le_iff.2 ((le_iff.1 ab).trans (le_iff.1 bc))

end Instant

/-! ### Schemas in order -/

namespace Aggregate

/-- All times that a schema carries, but for its artifact's. -/
def stamps (a : Aggregate) : List Instant :=
  a.audit.createdAt :: a.audit.modifiedAt :: a.ledger.records.map (·.createdAt)

/-- Creation, last change and records come in the order of their times.  The last change is no later
than the last record, and no earlier than the record before it. -/
structure IsInOrder (a : Aggregate) : Prop where
  records : (a.ledger.records.map (·.createdAt)).Pairwise (· ≤ ·)
  first : ∃ r, a.ledger.records.head? = some r ∧ a.audit.createdAt ≤ r.createdAt
  modified : a.audit.createdAt ≤ a.audit.modifiedAt
  last : ∃ r, a.ledger.last? = some r ∧ a.audit.modifiedAt ≤ r.createdAt
  previous : ∀ earlier r s, a.ledger.records = earlier ++ [r, s] →
    r.createdAt ≤ a.audit.modifiedAt

variable {a c : Aggregate}

lemma stamps_eq_of_bare (same : a.bare = c.bare) : a.stamps = c.stamps := by
  rw [stamps, stamps, (bare_eq_bare_iff.1 same).2.1, ledger_eq_of_bare same]

/-- The artifact makes no difference. -/
lemma IsInOrder.of_bare (h : a.IsInOrder) (same : c.bare = a.bare) : c.IsInOrder := by
  have audit := (bare_eq_bare_iff.1 same).2.1
  have ledger := ledger_eq_of_bare same
  exact ⟨ledger ▸ h.records, ledger ▸ audit ▸ h.first, audit ▸ h.modified,
    ledger ▸ audit ▸ h.last, ledger ▸ audit ▸ h.previous⟩

/-- A new schema is in order, if its audit is stamped before its record. -/
lemma isInOrder_registered {name : SchemaName} {request : Registration} {id : UInt64}
    {created started : Instant} (le : created ≤ started) :
    (registered name request id created started).IsInOrder where
  records := List.pairwise_singleton _ _
  first := ⟨_, rfl, le⟩
  modified := le_refl created
  last := ⟨_, rfl, le⟩
  previous := fun earlier r s two => by
    have := congrArg List.length two
    simp [registered, make, Ledger.start] at this

/-- A new version keeps the order, if its audit is stamped after all that the schema carries, and its
record after its audit. -/
lemma IsInOrder.next {name : SchemaName} {owner idl : String} {modified started : Instant}
    (h : a.IsInOrder) (next : a.next? name owner idl modified started = some c)
    (later : ∀ t ∈ a.stamps, t ≤ modified) (le : modified ≤ started) : c.IsInOrder := by
  obtain ⟨last, -, rfl⟩ := next?_eq_some_iff.1 next
  have carried (r) (hr : r ∈ a.ledger.records) : r.createdAt ≤ modified :=
    later _ (List.mem_cons_of_mem _ (List.mem_cons_of_mem _ (List.mem_map_of_mem hr)))
  obtain ⟨first, there, created⟩ := h.first
  refine ⟨?_, ⟨first, ?_, created⟩, later _ (List.mem_cons_self ..), ⟨_, List.getLast?_concat, le⟩,
    fun earlier r s two => ?_⟩
  · rw [List.map_append, List.pairwise_append]
    refine ⟨h.records, List.pairwise_singleton _ _, fun t ht t' ht' => ?_⟩
    obtain ⟨r, hr, rfl⟩ := List.mem_map.1 ht
    obtain rfl := List.mem_singleton.1 ht'
    exact (carried r hr).trans le
  · rw [List.head?_append, there]
    rfl
  · -- the last record is the new one, so that the one before it was there already
    rw [List.append_cons earlier r [s]] at two
    obtain ⟨before, -⟩ := List.append_inj' two rfl
    exact carried r (before ▸ by simp)

end Aggregate

/-! ### What the clock has told -/

/-- The time that an exchange has read from the clock. -/
def Exchange.reading? : Talk → Option Instant
  | ⟨.readClock, now⟩ => some now
  | _ => none

/-- All times that were read from the clock, oldest first. -/
def readingsOf (history : List Event) : List Instant :=
  history.filterMap fun e => e.talk.reading?

lemma readingsOf_append (history later : List Event) :
    readingsOf (history ++ later) = readingsOf history ++ readingsOf later :=
  List.filterMap_append

/-- One job reads some of the times. -/
lemma sublist_readingsOf (history : List Event) (caller : Nat) :
    ((talksOf history caller).filterMap Exchange.reading?).Sublist (readingsOf history) := by
  rw [talksOf, List.filterMap_map]
  exact List.filter_sublist.filterMap _

/-- What a job had exchanged at first, it had exchanged before all else. -/
lemma exists_split_of_talksOf {history : List Event} {caller : Nat} {xs ys : List Talk}
    (h : talksOf history caller = xs ++ ys) :
    ∃ before later, history = before ++ later ∧ talksOf before caller = xs ∧
      talksOf later caller = ys := by
  obtain ⟨first, second, both, rfl, rfl⟩ := List.map_eq_append_iff.1 h
  obtain ⟨before, later, rfl, rfl, rfl⟩ := List.filter_eq_append_iff.1 both
  exact ⟨before, later, rfl, rfl, rfl⟩

/-- What a job stores carries times that it has read from the clock, or that what it has read from
the store carries. -/
lemma Job.MayWrite.mem_of_mem_stamps {j : Job} {past : List Talk} {call : StoreCall}
    {a : Aggregate} {t : Instant} (may : j.MayWrite past call) (payload : call.payload? = some a)
    (stamp : t ∈ a.stamps) :
    t ∈ past.filterMap Exchange.reading? ∨ ∃ name cached current, t ∈ current.stamps ∧
      (⟨.store (.fetch name cached), Except.ok (some current)⟩ : Talk) ∈ past := by
  cases may with
  | @register _ _ name request id created started _ _ valid attached =>
    cases payload
    rw [Aggregate.stamps_eq_of_bare attached.bare_eq] at stamp
    have stamp : t = created ∨ t = started := by
      simpa [Aggregate.stamps, Aggregate.registered, Aggregate.make, Audit.created, Ledger.start,
        Record.make] using stamp
    left
    rcases stamp with rfl | rfl <;> simp [Exchange.reading?]
  | @update _ _ name _ current _ modified started _ _ valid next attached =>
    cases payload
    rw [Aggregate.stamps_eq_of_bare attached.bare_eq] at stamp
    obtain ⟨last, -, rfl⟩ := Aggregate.next?_eq_some_iff.1 next
    have stamp : (t = modified ∨ t = started) ∨ t ∈ current.stamps := by
      simp only [Aggregate.stamps, Audit.updated, Record.make, List.map_append, List.map_cons,
        List.map_nil, List.mem_cons, List.mem_append, List.not_mem_nil] at stamp ⊢
      tauto
    rcases stamp with new | old
    · left
      rcases new with rfl | rfl <;> simp [Exchange.reading?]
    · exact .inr ⟨_, _, current, old,
        List.mem_append_left _ (List.mem_append_left _ Registry.fetch_mem_opening)⟩
  | delete valid => cases payload
  | @attach _ _ name current d valid on missing bound =>
    cases payload
    exact .inr ⟨_, _, current, stamp, List.mem_append_left _ Registry.fetch_mem_opening⟩

/-- What a job stores is in order, if it reads the clock in order, and what it reads from the store
is in order and carries no time after those that it reads from the clock afterwards. -/
lemma Job.MayWrite.isInOrder {j : Job} {past : List Talk} {call : StoreCall} {a : Aggregate}
    (may : j.MayWrite past call) (payload : call.payload? = some a)
    (steady : (past.filterMap Exchange.reading?).Pairwise (· ≤ ·))
    (read : ∀ before later name cached current, past = before ++ later →
      (⟨.store (.fetch name cached), Except.ok (some current)⟩ : Talk) ∈ before →
      current.IsInOrder ∧
        ∀ t ∈ current.stamps, ∀ t' ∈ later.filterMap Exchange.reading?, t ≤ t') :
    a.IsInOrder := by
  cases may with
  | @register _ _ _ _ _ created started compiling _ valid attached =>
    cases payload
    refine (Aggregate.isInOrder_registered ?_).of_bare attached.bare_eq
    have both : [created, started].Pairwise (· ≤ ·) := steady.sublist (by
      rw [List.filterMap_append]
      exact List.sublist_append_left _ _)
    exact List.rel_of_pairwise_cons both (List.mem_singleton_self _)
  | @update _ _ _ _ current _ modified started compiling _ valid next attached =>
    cases payload
    have both : [modified, started].Pairwise (· ≤ ·) := steady.sublist (by
      rw [List.filterMap_append]
      exact List.sublist_append_left _ _)
    obtain ⟨inOrder, later⟩ := read _ _ _ _ current (List.append_assoc ..)
      Registry.fetch_mem_opening
    exact (inOrder.next next (fun t carried => later t carried modified (by simp [Exchange.reading?]))
      (List.rel_of_pairwise_cons both (List.mem_singleton_self _))).of_bare attached.bare_eq
  | delete valid => cases payload
  | attach valid on missing bound =>
    cases payload
    exact (read _ _ _ _ _ rfl Registry.fetch_mem_opening).1.of_bare rfl

namespace World

/-- The times that were read from the clock so far, oldest first. -/
def readings {B : Backend} (w : World B) : List Instant :=
  readingsOf w.history

variable {w : World MemoryStore.backend}

/-- All times that are stored were read from the clock. -/
lemma Reaches.stamps_subset (run : start.Reaches w) :
    ∀ a ∈ written w.history, a.stamps ⊆ w.readings := by
  induction run with
  | refl => exact fun _ h => nomatch h
  | @tail w w' run step ih =>
    have grows : w.readings ⊆ w'.readings :=
      ((reaches_of_step step).history_grows.filterMap _).subset
    intro a ha t ht
    rcases (outcome_of_step ((kept run).step step) step).mem_written ha with
      old | ⟨e, call, -, -, payload, may, -⟩
    · exact grows (ih a old ht)
    · refine grows ?_
      rcases may.mem_of_mem_stamps payload ht with told | ⟨name, cached, current, carried, read⟩
      · exact (sublist_readingsOf w.history e.caller).subset told
      · obtain ⟨x, hx, -, talk⟩ := mem_talksOf.1 read
        exact ih current (written_of_read run hx talk) carried

/-- All times that a schema carries were read from the clock before the schema was read from the
store. -/
lemma Reaches.stamps_subset_of_read (run : start.Reaches w) {before later : List Event}
    (split : w.history = before ++ later) {caller : Nat} {name : SchemaName} {cached : Bool}
    {current : Aggregate}
    (read : (⟨.store (.fetch name cached), Except.ok (some current)⟩ : Talk) ∈
      talksOf before caller) : current.stamps ⊆ readingsOf before := by
  obtain ⟨e, he, -, talk⟩ := mem_talksOf.1 read
  obtain ⟨past, rest, rfl⟩ := List.append_of_mem he
  rw [List.append_assoc] at split
  obtain ⟨w₁, w₂, step, rfl⟩ := run.exists_step split
  have stored := step.earlier.written_of_stored (step.stored?_eq talk)
  rw [readingsOf_append]
  exact List.subset_append_of_subset_left _ (step.earlier.stamps_subset current stored)

/-- With a clock that never goes back, all that was ever stored is in order. -/
lemma Reaches.isInOrder (run : start.Reaches w) (steady : w.readings.Pairwise (· ≤ ·)) :
    ∀ a ∈ written w.history, a.IsInOrder := by
  induction run with
  | refl => exact fun _ h => nomatch h
  | @tail w w' run step ih =>
    have steady : w.readings.Pairwise (· ≤ ·) :=
      steady.sublist ((reaches_of_step step).history_grows.filterMap _).sublist
    intro a ha
    rcases (outcome_of_step ((kept run).step step) step).mem_written ha with
      old | ⟨e, call, -, -, payload, may, -⟩
    · exact ih steady a old
    refine may.isInOrder payload (steady.sublist (sublist_readingsOf w.history e.caller))
      fun before later name cached current past read => ?_
    obtain ⟨h₁, h₂, split, rfl, rfl⟩ := exists_split_of_talksOf past
    refine ⟨?_, fun t carried t' told => ?_⟩
    · obtain ⟨x, hx, -, talk⟩ := mem_talksOf.1 read
      exact ih steady current
        (written_of_read run (split ▸ List.mem_append_left _ hx) talk)
    · rw [readings, split, readingsOf_append] at steady
      exact (List.pairwise_append.1 steady).2.2 t (stamps_subset_of_read run split read carried) t'
        ((sublist_readingsOf h₂ e.caller).subset told)

/-- **Provenance is ordered.**  If the clock never goes back, then creation, last change and records
of everything that is stored come in the order of their times, in every run of jobs that share the
store, and whatever ids they draw. -/
theorem provenance_in_order (w : World MemoryStore.backend) (run : start.Reaches w)
    (steady : w.readings.IsChain (· ≤ ·)) (key : String) (a : Aggregate)
    (stored : w.stored? key = some a) : a.IsInOrder :=
  run.isInOrder (List.isChain_iff_pairwise.1 steady) a (run.written_of_stored stored)

end World

namespace Rehearsal

/-- Some minutes after noon. -/
def afternoon (minutes : Nat) : Instant :=
  { noon with minute := minutes % 60, minute_lt := Nat.mod_lt minutes (Nat.succ_pos 59) }

/-- Collaborators that agree to everything, some minutes after noon. -/
def sayAfternoon (minutes : Nat) : (q : Request) → q.Answer
  | .readClock => afternoon minutes
  | q => say q

/-- Two jobs change the schema.  Both have read it when they read the clock in turns, and the first
one is the first to write. -/
def overlapping : List (Move MemoryStore.backend) :=
  .start (job (.update orders change)) :: .start (job (.update orders change)) ::
    [1, 1, 2, 2].map (.answer · say) ++
    [.answer 1 (sayAfternoon 1), .answer 2 (sayAfternoon 2), .answer 1 (sayAfternoon 3),
      .answer 2 (sayAfternoon 4)] ++
    [1, 1, 2, 2].map (.answer · say)

/-- The schema as the first of the two jobs has changed it. -/
def overlapped : Aggregate :=
  { registered with
    audit := registered.audit.updated "bob" (afternoon 1)
    ledger := ⟨registered.ledger.records ++
      [.make orders 7 .avro "second" 2 (afternoon 3)]⟩ }

end Rehearsal

namespace World

open Rehearsal in
/-- Where two jobs stamp their changes in turns, the schema that is stored is in order. -/
theorem provenance_of_overlapped :
    (start.after (registering ++ overlapping)).readings =
      [noon, noon, afternoon 1, afternoon 2, afternoon 3, afternoon 4] ∧
    (start.after (registering ++ overlapping)).stored? orders.fullName = some overlapped ∧
    overlapped.IsInOrder := by
  have readings : (start.after (registering ++ overlapping)).readings =
      [noon, noon, afternoon 1, afternoon 2, afternoon 3, afternoon 4] := rfl
  have steady : (start.after (registering ++ overlapping)).readings.IsChain (· ≤ ·) := by
    rw [readings]
    decide
  exact ⟨readings, rfl,
    provenance_in_order _ (reaches_after start _) steady orders.fullName overlapped rfl⟩

end World

end SchemaLedger
