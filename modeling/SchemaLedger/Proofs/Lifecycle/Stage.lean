import SchemaLedger.Proofs.Dialogue.Questions
import SchemaLedger.Proofs.Store.Shelf
import SchemaLedger.Proofs.Wire

/-!
What a job asks of a tidy shelf is proper.

* `Stage`: a job under way that has the shelf for itself. What it has read is still there, and no
  schema has more versions than there were jobs.
* `Stage.isProper`: whatever the job writes next is sound and has the name it is written under.
* `Stage.call`, `Stage.other`: the next exchange leads to another stage.
-/

namespace SchemaLedger

/-! ### Schemas that can be stored -/

/-- No record of a contiguous ledger has a version beyond the last. -/
lemma Ledger.version_le {l : Ledger} (h : l.isContiguous = true) {r : Record} (hr : r ∈ l.records) :
    r.version ≤ l.lastVersion := by
  obtain ⟨-, numbers⟩ := isContiguous_iff.1 h
  have listed : r.version ∈ List.range' 1 l.records.length := by
    rw [← numbers]
    exact List.mem_map_of_mem hr
  rw [List.mem_range'_1] at listed
  rw [lastVersion]
  omega

/-- A sound schema is not refused when it is read, if its versions are numbers of 64 bits. -/
lemma Aggregate.isReadable {a : Aggregate} (contiguous : a.ledger.isContiguous = true)
    (authentic : a.ledger.isAuthentic = true) (few : a.lastVersion < Word.limit 64)
    (bound : ∀ d ∈ a.artifact, d.recordVersion < Word.limit 64) : a.IsReadable where
  contiguous := contiguous
  authentic := authentic
  counts := Wire.fits_aggregate_iff.2
    ⟨fun _ hr => (Ledger.version_le contiguous hr).trans_lt few, bound⟩

/-! ### A job under way -/

/-- A job has the shelf for itself: up to its write it finds there what it has read. Before this job
there were `n` others, each of which has added one version at most. -/
structure Stage (root : Path) (n : Nat) (s : Shelf) (past : List Talk) : Prop where
  tidy : s.IsTidy root
  reads : IsQuiet past → ∀ c x, (⟨.store c, x⟩ : Talk) ∈ past → x = (s.reply root c).1
  before : IsQuiet past → ∀ r a, s r = some a → a.lastVersion ≤ n
  after : ∀ r a, s r = some a → a.lastVersion ≤ n + 1

namespace Stage

variable {root : Path} {n : Nat} {s : Shelf} {past : List Talk} {j : Job} {c : StoreCall}
  {name : SchemaName} {a : Aggregate}

/-- The stage at which a job starts. -/
lemma start (tidy : s.IsTidy root) (few : ∀ r a, s r = some a → a.lastVersion ≤ n) :
    Stage root n s [] where
  tidy := tidy
  reads _ _ _ hx := nomatch hx
  before _ := few
  after r a bound := (few r a bound).trans (Nat.le_succ n)

/-- What a job has read before its write is on the shelf. -/
lemma find (h : Stage root n s past) (quiet : IsQuiet past) {cached : Bool}
    (read : (⟨.store (.fetch name cached), Except.ok (some a)⟩ : Talk) ∈ past) :
    s.find name = some a :=
  Shelf.find_of_reply (h.reads quiet _ _ read).symm

/-- What is found has no more versions than there were jobs. -/
lemma lastVersion_le (h : Stage root n s past) (quiet : IsQuiet past)
    (found : s.find name = some a) : a.lastVersion ≤ n := by
  obtain ⟨bound, -⟩ := Shelf.find_eq_some_iff.1 found
  exact h.before quiet _ a bound

end Stage

/-! ### What is written -/

/-- What is written is sound, has the name it is written under, and has at most one version more
than there were jobs. -/
def StoreCall.IsFresh (n : Nat) : StoreCall → Prop
  | .register name a => a.IsNamed name ∧ a.IsReadable ∧ a.lastVersion ≤ n + 1
  | .replace name a _ => a.IsNamed name ∧ a.IsReadable ∧ a.lastVersion ≤ n + 1
  | .remove _ _ => True
  | _ => False

lemma StoreCall.IsFresh.isProper {n : Nat} {c : StoreCall} (h : c.IsFresh n) : c.IsProper := by
  cases c with
  | register name a => exact ⟨h.1, h.2.1⟩
  | replace name a expected => exact ⟨h.1, h.2.1⟩
  | remove name expected => trivial
  | fetch name cached => exact h.elim
  | fetchRecord name cached => exact h.elim
  | fetchRecords name cached => exact h.elim

/-- A read writes nothing. -/
lemma StoreCall.isProper_read {c : StoreCall} (h : c.isWrite = false) : c.IsProper := by
  cases c with
  | fetch name cached => trivial
  | fetchRecord name cached => trivial
  | fetchRecords name cached => trivial
  | register name a => cases h
  | replace name a expected => cases h
  | remove name expected => cases h

section Writing

variable {root : Path} {n : Nat} {s : Shelf} {past compiling : List Talk} {j : Job} {r : Registry}
  {c : StoreCall} {name : SchemaName} {a candidate : Aggregate}

/-- A sound schema is written, with an artifact of its latest version or with none. -/
lemma Registry.Attaches.isFresh (attached : r.Attaches candidate compiling a)
    (named : candidate.IsNamed name) (contiguous : candidate.ledger.isContiguous = true)
    (authentic : candidate.ledger.isAuthentic = true) (bare : candidate.artifact = none)
    (few : candidate.lastVersion ≤ n + 1) (small : n + 1 < Word.limit 64) :
    a.IsNamed name ∧ a.IsReadable ∧ a.lastVersion ≤ n + 1 := by
  have short := few.trans_lt small
  cases attached with
  | skipped off =>
    exact ⟨named, Aggregate.isReadable contiguous authentic short (by simp [bare]), few⟩
  | @compiled d on mode bound =>
    refine ⟨⟨named.1, named.2, named.3⟩, Aggregate.isReadable contiguous authentic short ?_, few⟩
    intro d' hd'
    cases hd'
    rw [bound]
    exact short

/-- **What a job writes is sound**, if what it has read can be stored and has the name under which
it was read. -/
lemma Job.MayWrite.isFresh_of_reads (h : j.MayWrite past c)
    (reads : ∀ name cached current,
      (⟨.store (.fetch name cached), Except.ok (some current)⟩ : Talk) ∈ past →
      current.IsNamed name ∧ current.IsStorable root ∧ current.lastVersion ≤ n)
    (small : n + 1 < Word.limit 64) : c.IsFresh n := by
  cases h with
  | @register r actor name request id created started compiling a valid attached =>
    exact attached.isFresh ⟨rfl, rfl, rfl⟩ (Ledger.isContiguous_start ..)
      (Ledger.isAuthentic_start ..) rfl (Nat.le_add_left 1 n) small
  | @update r actor name request current candidate modified started compiling a valid next
      attached =>
    obtain ⟨named, storable, few⟩ := reads name _ current
      (List.mem_append_left _ (List.mem_append_left _ Registry.fetch_mem_opening))
    obtain ⟨last, hlast, rfl⟩ := Aggregate.next?_eq_some_iff.1 next
    have appended : current.ledger.append? name request.idl started = some _ :=
      Ledger.append?_eq_some_iff.2 ⟨last, hlast, rfl⟩
    refine attached.isFresh ⟨named.1, named.2, named.3⟩
      (Ledger.isContiguous_append storable.contiguous appended)
      (Ledger.isAuthentic_append storable.authentic appended) rfl ?_ small
    simpa [Aggregate.lastVersion, Ledger.lastVersion] using few
  | delete valid => trivial
  | @attach r actor name current d valid on missing bound =>
    obtain ⟨named, storable, few⟩ := reads name _ current
      (List.mem_append_left _ Registry.fetch_mem_opening)
    have short : current.lastVersion < Word.limit 64 := (few.trans (Nat.le_succ n)).trans_lt small
    refine ⟨⟨named.1, named.2, named.3⟩, Aggregate.isReadable storable.contiguous storable.authentic
      short ?_, few.trans (Nat.le_succ n)⟩
    intro d' hd'
    cases hd'
    rw [bound]
    exact short

/-- What a job writes that has the shelf for itself is sound. -/
lemma Job.MayWrite.isFresh (h : j.MayWrite past c) (stage : Stage root n s past)
    (small : n + 1 < Word.limit 64) : c.IsFresh n := by
  have reads (name cached current)
      (read : (⟨.store (.fetch name cached), Except.ok (some current)⟩ : Talk) ∈ past) :
      current.IsNamed name ∧ current.IsStorable root ∧ current.lastVersion ≤ n := by
    have found := stage.find h.isQuiet read
    obtain ⟨bound, -⟩ := Shelf.find_eq_some_iff.1 found
    exact ⟨stage.tidy.isNamed found, (stage.tidy _ current bound).1,
      stage.lastVersion_le h.isQuiet found⟩
  exact h.isFresh_of_reads reads small

end Writing

namespace Shelf

variable {root : Path} {n : Nat} {s : Shelf} {c : StoreCall}

/-- A write adds one version at most. -/
lemma lastVersion_reply (fresh : c.IsFresh n)
    (few : ∀ r a, s r = some a → a.lastVersion ≤ n + 1) {r : SubjectRef} {a : Aggregate}
    (bound : (s.reply root c).2 r = some a) : a.lastVersion ≤ n + 1 := by
  have changed {name : SchemaName} {x : Option Aggregate}
      (new : ∀ b, x = some b → b.lastVersion ≤ n + 1)
      (bound : Function.update s name.subjectRef x r = some a) : a.lastVersion ≤ n + 1 := by
    rw [Function.update_apply] at bound
    split at bound
    · exact new a bound
    · exact few r a bound
  cases accepted : s.accept root c with
  | error e =>
    rw [reply_of_refuse accepted] at bound
    exact few r a bound
  | ok u =>
    rw [reply_of_accept accepted] at bound
    cases c with
    | fetch name cached => exact fresh.elim
    | fetchRecord name cached => exact fresh.elim
    | fetchRecords name cached => exact fresh.elim
    | register name b =>
      rw [Shelf.answer] at bound
      split at bound
      · exact changed (fun c hc => by cases hc; exact fresh.2.2) bound
      · exact few r a bound
    | replace name b expected =>
      rw [Shelf.answer] at bound
      split at bound
      · exact changed (fun c hc => by cases hc; exact fresh.2.2) bound
      · exact few r a bound
    | remove name expected =>
      rw [Shelf.answer] at bound
      split at bound
      · exact changed (x := none) (fun c hc => by cases hc) bound
      · exact few r a bound

end Shelf

namespace Stage

variable {root : Path} {n : Nat} {s : Shelf} {past : List Talk} {j : Job} {c : StoreCall}

/-- **Whatever call a job makes next, it is proper.** -/
lemma isProper (h : Stage root n s past) (asks : j.Asks past (.store c))
    (small : n + 1 < Word.limit 64) : c.IsProper := by
  cases writes : c.isWrite with
  | true => exact ((asks.1 c rfl writes).isFresh h small).isProper
  | false => exact c.isProper_read writes

/-- The next call to the store leads to another stage. -/
lemma call (h : Stage root n s past) (asks : j.Asks past (.store c))
    (small : n + 1 < Word.limit 64) :
    Stage root n (s.reply root c).2 (past ++ [⟨.store c, (s.reply root c).1⟩]) where
  tidy := h.tidy.reply (h.isProper asks small)
  reads quiet c' x hx := by
    obtain ⟨quiet, own⟩ := isQuiet_append.1 quiet
    rw [s.reply_read root (own c rfl)]
    rcases List.mem_append.1 hx with old | new
    · exact h.reads quiet c' x old
    · cases List.mem_singleton.1 new
      rfl
  before quiet r a bound := by
    obtain ⟨quiet, own⟩ := isQuiet_append.1 quiet
    rw [s.reply_read root (own c rfl)] at bound
    exact h.before quiet r a bound
  after r a bound := by
    cases writes : c.isWrite with
    | true => exact Shelf.lastVersion_reply ((asks.1 c rfl writes).isFresh h small) h.after bound
    | false =>
      rw [s.reply_read root writes] at bound
      exact h.after r a bound

/-- An exchange with another collaborator leads to another stage. -/
lemma other (h : Stage root n s past) {q : Request} (other : ∀ c, q ≠ .store c) (x : q.Answer) :
    Stage root n s (past ++ [⟨q, x⟩]) where
  tidy := h.tidy
  reads quiet c y hy := by
    rcases List.mem_append.1 hy with old | new
    · exact h.reads (isQuiet_append.1 quiet).1 c y old
    · exact absurd (congrArg Exchange.question (List.mem_singleton.1 new)).symm (other c)
  before quiet := h.before (isQuiet_append.1 quiet).1
  after := h.after

end Stage

end SchemaLedger
