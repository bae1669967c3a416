import SchemaLedger.Proofs.Dialogue.Jobs
import SchemaLedger.Store.Memory

/-!
What the store in memory does.

* `Tables.Performs`: what a write does that succeeds, with one case for each kind of write.
* `Tables.answer_register`, `Tables.answer_replace`, `Tables.answer_remove`: which writes succeed.
* `Tables.answer_cases`, `MemoryStore.answer_cases`: a call leaves the tables as they are, or
  it is a write that succeeds.
* `MemoryStore.answer_register_error`: why a schema is not registered.
-/

namespace SchemaLedger

/-- The entries of a dictionary with unique keys are filtered one by one. -/
lemma Dictionary.get?_filterValues {α : Type} {d : Dictionary α} (unique : d.HasUniqueKeys)
    (keep : α → Bool) (key : String) :
    (d.filterValues keep).get? key = (d.get? key).filter keep := by
  obtain ⟨entries⟩ := d
  unfold HasUniqueKeys keys at unique
  simp only [filterValues, get?] at unique ⊢
  induction entries with
  | nil => rfl
  | cons e entries ih =>
    obtain ⟨k, a⟩ := e
    obtain ⟨new, unique⟩ := List.nodup_cons.1 unique
    by_cases same : key = k
    · subst same
      have absent : (entries.filter fun e => keep e.2).lookup key = none := by
        refine List.lookup_eq_none_iff.2 fun e he => bne_iff_ne.2 ?_
        rintro rfl
        exact new (List.mem_map.2 ⟨e, List.mem_of_mem_filter he, rfl⟩)
      by_cases kept : keep a = true
      · simp [kept, Option.filter]
      · simp [kept, absent, Option.filter]
    · rw [List.lookup_cons, beq_eq_false_iff_ne.2 same]
      by_cases kept : keep a = true
      · simp [kept, List.lookup_cons, beq_eq_false_iff_ne.2 same, ih unique]
      · simp [kept, ih unique]

/-- What is stored under a key is one of the entries. -/
lemma Dictionary.mem_entries_of_get? {α : Type} {d : Dictionary α} {key : String} {a : α}
    (stored : d.get? key = some a) : (key, a) ∈ d.entries := by
  obtain ⟨before, after, entries, -⟩ := List.lookup_eq_some_iff.1 stored
  rw [entries]
  simp

/-- Where no key occurs twice, an entry is what is stored under its key. -/
lemma Dictionary.get?_of_mem_entries {α : Type} {d : Dictionary α} (unique : d.HasUniqueKeys)
    {key : String} {a : α} (listed : (key, a) ∈ d.entries) : d.get? key = some a := by
  obtain ⟨before, after, entries⟩ := List.append_of_mem listed
  rw [HasUniqueKeys, keys, entries, List.map_append, List.nodup_append] at unique
  refine List.lookup_eq_some_iff.2 ⟨before, after, entries, fun e he => ?_⟩
  exact bne_iff_ne.2 fun same => unique.2.2 _ (List.mem_map_of_mem he) _ (by simp) same.symm

/-- A value that passes the test is stored under some key. -/
lemma Dictionary.exists_of_findValue? {α : Type} {d : Dictionary α} (unique : d.HasUniqueKeys)
    {test : α → Bool} {a : α} (found : d.findValue? test = some a) :
    ∃ key, d.get? key = some a ∧ test a = true := by
  obtain ⟨⟨key, b⟩, first, rfl⟩ := Option.map_eq_some_iff.1 found
  exact ⟨key, get?_of_mem_entries unique (List.mem_of_find?_eq_some first),
    (List.find?_eq_some_iff_append.1 first).1⟩

/-- No stored value passes a test that finds none. -/
lemma Dictionary.not_of_findValue?_eq_none {α : Type} {d : Dictionary α} {test : α → Bool}
    (none : d.findValue? test = .none) {key : String} {a : α} (stored : d.get? key = some a) :
    test a = false := by
  have all := List.find?_eq_none.1 (Option.map_eq_none_iff.1 none) _ (mem_entries_of_get? stored)
  simpa using all

/-- A write that succeeds: what it found in the tables, and the tables after it. -/
inductive Tables.Performs (t : Tables) : StoreCall → Tables → Prop
  | register {name : SchemaName} {a : Aggregate} (free : t.schemas.get? name.fullName = none)
    (unbound : t.subjects.get? name.subjectKey = none) :
    Performs t (.register name a)
      { schemas := t.schemas.insert name.fullName a
        subjects := t.subjects.insert name.subjectKey name.fullName }
  | replace {name : SchemaName} {a current : Aggregate}
    (stored : t.schemas.get? name.fullName = some current) :
    Performs t (.replace name a current.revision)
      { t with schemas := t.schemas.insert name.fullName a }
  | remove {name : SchemaName} {current : Aggregate}
    (stored : t.schemas.get? name.fullName = some current) :
    Performs t (.remove name current.revision)
      { schemas := t.schemas.erase name.fullName
        subjects := t.subjects.filterValues fun schema => schema != name.fullName }

/-- A schema is registered where nothing is stored. -/
lemma Tables.Performs.free {t t' : Tables} {name : SchemaName} {a : Aggregate}
    (h : t.Performs (.register name a) t') : t.schemas.get? name.fullName = none := by
  cases h with
  | register free unbound => exact free

/-- A schema is replaced where one with the expected revision is stored. -/
lemma Tables.Performs.replaced {t t' : Tables} {name : SchemaName} {a : Aggregate}
    {expected : Revision} (h : t.Performs (.replace name a expected) t') :
    ∃ s, t.schemas.get? name.fullName = some s ∧ s.revision = expected := by
  cases h with
  | replace stored => exact ⟨_, stored, rfl⟩

/-- A schema is removed where one with the expected revision is stored, and nothing is left in
its place. -/
lemma Tables.Performs.removed {t t' : Tables} {name : SchemaName} {expected : Revision}
    (h : t.Performs (.remove name expected) t') :
    (∃ s, t.schemas.get? name.fullName = some s ∧ s.revision = expected) ∧
      t'.schemas.get? name.fullName = none := by
  cases h with
  | remove stored => exact ⟨⟨_, stored, rfl⟩, by simp [Dictionary.get?_erase]⟩

/-- A write is let through if the expected revision is stored. -/
lemma checkRevision_eq_ok_iff {key : String} {stored : Option Aggregate} {expected : Revision} :
    checkRevision key stored expected = .ok () ↔
      ∃ a, stored = some a ∧ a.revision = expected := by
  cases stored with
  | none => simp [checkRevision]
  | some a =>
    simp only [checkRevision]
    split <;> simp_all

namespace Tables

/-- A schema is stored under a full name and for a subject that are free. -/
lemma answer_register {t : Tables} {name : SchemaName}
    (free : t.schemas.get? name.fullName = none) (unbound : t.subjects.get? name.subjectKey = none)
    (a : Aggregate) :
    t.answer (.register name a) =
      (.ok (), { schemas := t.schemas.insert name.fullName a
                 subjects := t.subjects.insert name.subjectKey name.fullName }) := by
  simp [answer, register, Dictionary.contains, free, unbound]

/-- A schema is not stored for a subject that leads to another. -/
lemma answer_register_of_bound {t : Tables} {name : SchemaName} {full : String}
    (free : t.schemas.get? name.fullName = none)
    (bound : t.subjects.get? name.subjectKey = some full) (a : Aggregate) :
    t.answer (.register name a) = (.error (.subjectBound name.subjectKey full), t) := by
  simp [answer, register, Dictionary.contains, free, bound]

/-- A schema with the expected revision is replaced. -/
lemma answer_replace {t : Tables} {name : SchemaName} {current : Aggregate}
    (stored : t.schemas.get? name.fullName = some current) (a : Aggregate) :
    t.answer (.replace name a current.revision) =
      (.ok (), { t with schemas := t.schemas.insert name.fullName a }) := by
  simp [answer, replace, checkRevision_eq_ok_iff.2 ⟨current, stored, rfl⟩, bind, Except.bind]

/-- A schema with the expected revision is removed. -/
lemma answer_remove {t : Tables} {name : SchemaName} {current : Aggregate}
    (stored : t.schemas.get? name.fullName = some current) :
    t.answer (.remove name current.revision) =
      (.ok (), { schemas := t.schemas.erase name.fullName
                 subjects := t.subjects.filterValues fun schema => schema != name.fullName }) := by
  simp [answer, remove, checkRevision_eq_ok_iff.2 ⟨current, stored, rfl⟩, bind, Except.bind]

/-- A call fails, or reads, and leaves the tables as they are; or it is a write that
succeeds. -/
lemma answer_cases (t : Tables) (c : StoreCall) :
    ((c.isWrite = false ∨ ∃ e, (t.answer c).1 = .error e) ∧ (t.answer c).2 = t) ∨
      (c.isWrite = true ∧ (∃ x, (t.answer c).1 = .ok x) ∧ t.Performs c (t.answer c).2) := by
  cases c with
  | fetch name cached => exact .inl ⟨.inl rfl, rfl⟩
  | fetchRecord name cached => exact .inl ⟨.inl rfl, rfl⟩
  | fetchRecords name cached => exact .inl ⟨.inl rfl, rfl⟩
  | register name a =>
    by_cases taken : t.schemas.contains name.fullName = true
    · exact .inl ⟨.inr ⟨_, by simp [answer, register, taken]; rfl⟩,
        by simp [answer, register, taken]⟩
    · have free : t.schemas.get? name.fullName = none := by
        simpa [Dictionary.contains] using taken
      cases bound : t.subjects.get? name.subjectKey with
      | some schema =>
        rw [answer_register_of_bound free bound]
        exact .inl ⟨.inr ⟨_, rfl⟩, rfl⟩
      | none =>
        rw [answer_register free bound]
        exact .inr ⟨rfl, ⟨(), rfl⟩, .register free bound⟩
  | replace name a expected =>
    cases checked : checkRevision name.fullName (t.schemas.get? name.fullName) expected with
    | error e => exact .inl ⟨.inr ⟨e, by simp [answer, replace, checked, bind, Except.bind]⟩,
        by simp [answer, replace, checked, bind, Except.bind]⟩
    | ok u =>
      obtain ⟨current, stored, rfl⟩ := checkRevision_eq_ok_iff.1 checked
      rw [answer_replace stored]
      exact .inr ⟨rfl, ⟨(), rfl⟩, .replace stored⟩
  | remove name expected =>
    cases checked : checkRevision name.fullName (t.schemas.get? name.fullName) expected with
    | error e => exact .inl ⟨.inr ⟨e, by simp [answer, remove, checked, bind, Except.bind]⟩,
        by simp [answer, remove, checked, bind, Except.bind]⟩
    | ok u =>
      obtain ⟨current, stored, rfl⟩ := checkRevision_eq_ok_iff.1 checked
      rw [answer_remove stored]
      exact .inr ⟨rfl, ⟨(), rfl⟩, .remove stored⟩

end Tables

namespace MemoryStore

/-- A read is answered from the tables. -/
lemma answer_read (s : MemoryStore) {c : StoreCall} (h : c.isWrite = false) :
    (s.answer c).1 = (s.tables.answer c).1 := by
  simp only [answer, h]
  split <;> rfl

/-- A schema is read as it is stored. -/
lemma answer_fetch (s : MemoryStore) (name : SchemaName) (cached : Bool) :
    (s.answer (.fetch name cached)).1 = Except.ok (s.tables.schemas.get? name.fullName) ∧
      (s.answer (.fetch name cached)).2.tables = s.tables := by
  simp only [answer]
  split <;> exact ⟨rfl, rfl⟩

/-- Why a schema is not registered: writes are made to fail, or its full name or its subject is
taken. -/
lemma answer_register_error {s : MemoryStore} {name : SchemaName} {a : Aggregate} {e : StoreError}
    (failed : (s.answer (.register name a)).1 = Except.error e) :
    (∃ message, e = .backend message) ∨
    (e = .alreadyStored name.fullName ∧ s.tables.schemas.get? name.fullName ≠ none) ∨
    ∃ full, e = .subjectBound name.subjectKey full ∧
      s.tables.subjects.get? name.subjectKey = some full := by
  simp only [answer] at failed
  cases broken : s.failing with
  | some message =>
    rw [broken] at failed
    cases failed
    exact .inl ⟨message, rfl⟩
  | none =>
    rw [broken] at failed
    cases stored : s.tables.schemas.get? name.fullName with
    | some current =>
      simp only [Tables.answer, Tables.register, Dictionary.contains, stored] at failed
      cases failed
      exact .inr (.inl ⟨rfl, Option.some_ne_none current⟩)
    | none =>
      cases bound : s.tables.subjects.get? name.subjectKey with
      | some full =>
        simp only [Tables.answer_register_of_bound stored bound] at failed
        cases failed
        exact .inr (.inr ⟨full, rfl, rfl⟩)
      | none =>
        simp only [Tables.answer_register stored bound] at failed
        cases failed

/-- A call brings nothing about and leaves the tables as they are, or it is a write that
succeeds. -/
lemma answer_cases (s : MemoryStore) (c : StoreCall) :
    (Exchange.effect? ⟨.store c, (s.answer c).1⟩ = none ∧ (s.answer c).2.tables = s.tables) ∨
      (Exchange.effect? ⟨.store c, (s.answer c).1⟩ = some c ∧
        s.tables.Performs c (s.answer c).2.tables) := by
  have quiet (t : MemoryStore) (x : c.Answer) (h : c.isWrite = false ∨ ∃ e, x = .error e) :
      Exchange.effect? ⟨.store c, x⟩ = none := by
    rcases h with h | ⟨e, rfl⟩
    · simp [Exchange.effect?, h]
    · simp [Exchange.effect?, Except.isOk, Except.toBool]
  have free : (Exchange.effect? ⟨.store c, (s.tables.answer c).1⟩ = none ∧
      (s.tables.answer c).2 = s.tables) ∨
      (Exchange.effect? ⟨.store c, (s.tables.answer c).1⟩ = some c ∧
        s.tables.Performs c (s.tables.answer c).2) := by
    rcases s.tables.answer_cases c with ⟨h, same⟩ | ⟨writes, ⟨x, hx⟩, performs⟩
    · exact .inl ⟨quiet s _ h, same⟩
    · exact .inr ⟨by simp [Exchange.effect?, writes, hx, Except.isOk, Except.toBool], performs⟩
  simp only [answer]
  split
  · split
    · exact .inl ⟨quiet s _ (.inr ⟨_, rfl⟩), rfl⟩
    · exact free
  · exact free

end MemoryStore

end SchemaLedger
