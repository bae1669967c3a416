import SchemaLedger.Proofs.Concurrency.Chronicle
import SchemaLedger.Proofs.Store.Memory

/-!
Where the schemas come from that jobs store side by side in memory.

* `World.Outcome`: one move on the store in memory.  It brings nothing about, or it completes
  one write of a job that has kept to its part.
* `World.traced_after`: after any moves what is stored is the end of its lineage, a lineage is
  a chain of `Aggregate.Precedes`, and a job has read nothing but members of a lineage
  (`World.Traced`).
-/

namespace SchemaLedger

/-- What is stored after a write is what was written, or was stored before in another place. -/
lemma Tables.Performs.get?_cases {t t' : Tables} {call : StoreCall} {key : String} {a : Aggregate}
    (h : t.Performs call t') (stored : t'.schemas.get? key = some a) :
    (call.payload? = some a ∧ key = call.name.fullName) ∨
      (t.schemas.get? key = some a ∧ key ≠ call.name.fullName) := by
  cases h with
  | register | replace =>
    rw [Dictionary.get?_insert] at stored
    split at stored
    · exact .inl ⟨stored, ‹_›⟩
    · exact .inr ⟨stored, ‹_›⟩
  | remove =>
    rw [Dictionary.get?_erase] at stored
    split at stored
    · cases stored
    · exact .inr ⟨stored, ‹_›⟩

/-- All else stays as it was. -/
lemma Tables.Performs.get?_of_ne {t t' : Tables} {call : StoreCall} {key : String}
    (h : t.Performs call t') (ne : key ≠ call.name.fullName) :
    t'.schemas.get? key = t.schemas.get? key := by
  cases h with
  | register | replace => exact (Dictionary.get?_insert ..).trans (if_neg ne)
  | remove => exact (Dictionary.get?_erase ..).trans (if_neg ne)

/-- What was written is stored. -/
lemma Tables.Performs.get?_payload {t t' : Tables} {call : StoreCall} {a : Aggregate}
    (h : t.Performs call t') (payload : call.payload? = some a) :
    t'.schemas.get? call.name.fullName = some a := by
  cases h <;> cases payload <;> exact (Dictionary.get?_insert ..).trans (if_pos rfl)

/-! ### One move on the store in memory -/

namespace World

/-- The tables of the store. -/
def tables (w : World MemoryStore.backend) : Tables :=
  MemoryStore.tables w.store

/-- The schema that is stored under a key. -/
def stored? (w : World MemoryStore.backend) (key : String) : Option Aggregate :=
  w.tables.schemas.get? key

/-- What one move brings about. -/
inductive Outcome (w w' : World MemoryStore.backend) : Prop
  | silent (history : w'.history = w.history) (tables : w'.tables = w.tables)
  | quiet {e : Event} (history : w'.history = w.history ++ [e]) (tables : w'.tables = w.tables)
    (effect : e.talk.effect? = none)
    (honest : ∀ name cached found, e.talk = ⟨.store (.fetch name cached), Except.ok found⟩ →
      w.stored? name.fullName = found)
  | wrote {e : Event} {call : StoreCall} (history : w'.history = w.history ++ [e])
    (effect : e.talk.effect? = some call) (may : e.job.MayWrite (w.transcript e.caller) call)
    (performs : w.tables.Performs call w'.tables)

/-- A step brings about no more than an outcome, if the jobs have kept to their part. -/
lemma outcome_of_step {w w' : World MemoryStore.backend} (kept : w'.Kept) (step : w.LooseStep w') :
    w.Outcome w' := by
  cases step with
  | idle | started | troubled => exact .silent rfl rfl
  | @answered caller job q next say waiting =>
    cases q with
    | store call =>
      rcases MemoryStore.answer_cases w.store call with ⟨effect, same⟩ | ⟨effect, performs⟩
      · refine .quiet rfl same effect fun name cached found asked => ?_
        injection asked with question answer
        cases question
        have honest := (MemoryStore.answer_fetch w.store name cached).1
        exact Except.ok.inj (honest.symm.trans (eq_of_heq answer))
      · exact .wrote rfl effect (kept.mayWrite _ _ [] call rfl effect) performs
    | _ => exact .quiet rfl rfl rfl fun _ _ _ asked => nomatch asked

/-- What an exchange brings about that was added: nothing or its write, and what it has read was
stored. -/
lemma Outcome.of_concat {w w' : World MemoryStore.backend} {e : Event} (outcome : w.Outcome w')
    (added : w'.history = w.history ++ [e]) :
    (e.talk.effect? = none → w'.tables = w.tables) ∧
    (∀ call, e.talk.effect? = some call →
      e.job.MayWrite (w.transcript e.caller) call ∧ w.tables.Performs call w'.tables) ∧
    ∀ name cached found, e.talk = ⟨.store (.fetch name cached), Except.ok found⟩ →
      w.stored? name.fullName = found := by
  cases outcome with
  | silent history _ => simp [added] at history
  | quiet history tables none honest =>
    obtain ⟨-, same⟩ := List.append_inj' (added.symm.trans history) rfl
    cases same
    refine ⟨fun _ => tables, fun call effect => ?_, honest⟩
    cases none.symm.trans effect
  | wrote history effect may performs =>
    obtain ⟨-, same⟩ := List.append_inj' (added.symm.trans history) rfl
    cases same
    refine ⟨fun none => ?_, fun call effect' => ?_, fun name cached found read => ?_⟩
    · cases none.symm.trans effect
    · cases effect.symm.trans effect'
      exact ⟨may, performs⟩
    · rw [read] at effect
      cases effect

/-- What was written by now was written before, or a job has just written it. -/
lemma Outcome.mem_written {w w' : World MemoryStore.backend} {a : Aggregate}
    (outcome : w.Outcome w') (member : a ∈ written w'.history) :
    a ∈ written w.history ∨ ∃ e call, w'.history = w.history ++ [e] ∧
      e.talk.effect? = some call ∧ call.payload? = some a ∧
      e.job.MayWrite (w.transcript e.caller) call ∧ w.tables.Performs call w'.tables := by
  cases outcome with
  | silent history _ =>
    rw [history] at member
    exact .inl member
  | quiet history _ effect _ =>
    rw [history, written_append_of_none (by simp [Event.written?, effect])] at member
    exact .inl member
  | @wrote e call history effect may performs =>
    rw [history, written_concat, Event.written?, effect, Option.bind_some] at member
    rcases List.mem_append.1 member with old | new
    · exact .inl old
    · exact .inr ⟨e, call, history, effect, Option.mem_toList.1 new, may, performs⟩

/-! ### What is stored is the end of its lineage -/

/-- Where the schemas of a world come from. -/
def Traced (w : World MemoryStore.backend) : Prop :=
  Chronicle (fun a => a.name.fullName) w.stored? w.history

/-- One move keeps the lineages. -/
lemma Traced.step {w w' : World MemoryStore.backend} (h : w.Traced) (kept : w'.Kept)
    (nodup : w'.drawn.Nodup) (outcome : w.Outcome w') : w'.Traced := by
  unfold Traced
  cases outcome with
  | silent history tables =>
    rw [history, ← List.append_nil w.history]
    exact Chronicle.keep h (by simp) (fun key a stored => by rwa [stored?, ← tables]) (by simp)
  | @quiet e history tables effect honest =>
    rw [history]
    refine Chronicle.keep h (by simp [Event.written?, effect])
      (fun key a stored => by rwa [stored?, ← tables]) fun e' he' name cached a read => ?_
    rw [List.mem_singleton.1 he'] at read
    exact Chronicle.written_of_stored h (honest name cached _ read)
  | @wrote e call history effect may performs =>
    rw [history]
    generalize htables : w'.tables = tables at performs
    cases performs with
    | @register name a free unbound =>
      have fresh := kept.registers_once nodup history ⟨name, a, effect, rfl⟩
      obtain ⟨named, contiguous⟩ := may.registers
      have known : a.name.fullName = name.fullName := by
        rw [named]
        rfl
      refine Chronicle.register h effect known (fun k => ?_) fresh contiguous
      rw [stored?, htables, Dictionary.get?_insert, stored?]
    | @replace name a s stored =>
      obtain ⟨continues, contiguous⟩ := Chronicle.precedes_of_mayWrite h stored may
      refine Chronicle.replace h effect stored ?_ continues (fun k => ?_) contiguous
      · rw [continues.name]
      · rw [stored?, htables, Dictionary.get?_insert, stored?]
    | @remove name s stored =>
      refine Chronicle.keep h (by simp [Event.written?, effect, StoreCall.payload?])
        (fun key a stored => ?_) fun e' he' name' cached a read => ?_
      · rw [stored?, htables, Dictionary.get?_erase] at stored
        split at stored
        · cases stored
        · exact stored
      · rw [List.mem_singleton.1 he'] at read
        rw [read] at effect
        cases effect

/-! ### All moves on an empty store -/

/-- The empty store in memory, before any job. -/
def start : World MemoryStore.backend :=
  opened ({} : MemoryStore)

variable {moves : List (Move MemoryStore.backend)}

/-- **What is stored is the end of its lineage**, after any moves. -/
theorem traced_after (moves : List (Move MemoryStore.backend)) : (start.after moves).Traced := by
  refine after_induction (Chronicle.empty fun _ => rfl) (fun moves w' h step => ?_) moves
  · have kept := (kept_after _ moves).step step.loose
    exact h.step kept (nodup_drawn_step (nodup_drawn_after _ moves) step)
      (outcome_of_step kept step.loose)

/-- What is stored was written. -/
lemma written_of_stored {key : String} {b : Aggregate}
    (stored : (start.after moves).stored? key = some b) : b ∈ written (start.after moves).history :=
  (mem_lineage.1 ((traced_after moves).mem_lineage_of_stored stored)).1

/-- What was exchanged stays exchanged. -/
lemma history_subset (moves more : List (Move MemoryStore.backend)) :
    (start.after moves).history ⊆ (start.after (moves ++ more)).history := by
  rw [after_append]
  exact (history_prefix_after _ more).subset

/-- What was written stays written. -/
lemma written_subset (more : List (Move MemoryStore.backend)) :
    written (start.after moves).history ⊆ written (start.after (moves ++ more)).history := by
  rw [after_append]
  exact (List.IsPrefix.filterMap _ (history_prefix_after _ more)).subset

/-- Every move has an outcome. -/
lemma outcome_after (moves : List (Move MemoryStore.backend)) (m : Move MemoryStore.backend) :
    (start.after moves).Outcome (start.after (moves ++ [m])) :=
  outcome_of_step (kept_after _ _) (step_concat _ moves m).loose

/-- The moment of a write: what the job had exchanged, and what it did to the tables. -/
lemma moment_of_write {before later : List Event} {e : Event} {call : StoreCall}
    (split : (start.after moves).history = before ++ e :: later)
    (effect : e.talk.effect? = some call) :
    ∃ earlier m rest, moves = earlier ++ m :: rest ∧ (start.after earlier).history = before ∧
      (start.after (earlier ++ [m])).history = before ++ [e] ∧
      e.job.MayWrite ((start.after earlier).transcript e.caller) call ∧
      (start.after earlier).tables.Performs call (start.after (earlier ++ [m])).tables := by
  obtain ⟨earlier, m, rest, rfl, rfl, after⟩ := exists_moment rfl split
  exact ⟨earlier, m, rest, rfl, rfl, after,
    ((outcome_after earlier m).of_concat after).2.1 call effect⟩

/-- The moment of a read: what is read is stored. -/
lemma moment_of_read {before later : List Event} {e : Event} {name : SchemaName} {cached : Bool}
    {found : Option Aggregate} (split : (start.after moves).history = before ++ e :: later)
    (read : e.talk = ⟨.store (.fetch name cached), Except.ok found⟩) :
    ∃ earlier m rest, moves = earlier ++ m :: rest ∧ (start.after earlier).history = before ∧
      (start.after earlier).stored? name.fullName = found := by
  obtain ⟨earlier, m, rest, rfl, rfl, after⟩ := exists_moment rfl split
  exact ⟨earlier, m, rest, rfl, rfl,
    ((outcome_after earlier m).of_concat after).2.2 name cached found read⟩

end World

/-! ### A rehearsal: a few jobs on one schema, one after the other -/

namespace Rehearsal

/-- The schema of the rehearsal. -/
def orders : SchemaName where
  tenant := "shop"
  subject := "orders"
  schema := "Order"

lemma zero_lt_sixty : 0 < 60 := by decide

lemma zero_lt_second : 0 < 1000000000 ∨ (0 = 59 ∧ 0 < 2000000000) := by decide

def noon : Instant where
  date := ⟨2024, 5, 17, by decide⟩
  hour := 12
  minute := 0
  second := 0
  nano := 0
  minute_lt := zero_lt_sixty
  second_lt := zero_lt_sixty
  nano_lt := zero_lt_second

/-- The artifact that the compiler makes of a version. -/
def artifact (version : Nat) : Artifact where
  recordVersion := version
  coordinate := "orders.jar"
  references := []
  checksum := ⟨""⟩
  compiledAt := noon

/-- Collaborators that agree to everything. -/
def say : (q : Request) → q.Answer
  | .permit _ _ _ => Except.ok ()
  | .store _ => Except.error (.backend "")
  | .drawId => (7 : UInt64)
  | .readClock => noon
  | .judge _ _ _ => Except.ok ()
  | .compile a => Except.ok (artifact a.lastVersion)

/-- Collaborators that draw the next id. -/
def sayNext : (q : Request) → q.Answer
  | .drawId => (8 : UInt64)
  | q => say q

/-- A registry that compiles on request. -/
def registry : Registry where
  settings := { uploadEnabled := true, compileMode := .deferred }
  hasCompiler := true

def registration : Registration where
  owner := "ann"
  idl := "first"

def change : Change where
  owner := "bob"
  idl := "second"

def job (task : Task) : Job where
  registry := registry
  actor := "ann"
  task := task

/-- A job that is answered some times. -/
def alone (caller : Nat) (task : Task) (answers : Nat) : List (Move MemoryStore.backend) :=
  .start (job task) :: List.replicate answers (.answer caller say)

/-- The first job registers the schema. -/
def registering : List (Move MemoryStore.backend) :=
  alone 0 (.register orders registration) 6

/-- The schema after its registration. -/
def registered : Aggregate :=
  .registered orders registration 7 noon noon

/-- The schema after it was changed. -/
def changed : Aggregate :=
  { registered with
    audit := registered.audit.updated "bob" noon
    ledger := ⟨registered.ledger.records ++ [.make orders 7 .avro "second" 2 noon]⟩ }

end Rehearsal

end SchemaLedger
