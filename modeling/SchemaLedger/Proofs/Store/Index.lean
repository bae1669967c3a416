import Mathlib.Data.Set.Function
import SchemaLedger.Proofs.Store.Memory

/-!
The index of subjects in the store in memory.

A call computes the key of a schema and the key of a subject from the name that it is given, each
for itself, and different names can share one of the two.  Nothing is assumed of the calls here:
names and schemas may be any, and failures come and go.

* `Tables.IsPaired`: the full names that subjects lead to are the keys of the schemas, each once.
  Every write keeps this (`Tables.IsPaired.performs`).
* `Tables.IsPaired.free_after_removal`: a removal takes out exactly the subject that led to the
  schema, whichever subject the name of the call has.
* `Tables.Performs.subject_cases`: nothing binds a subject but a registration under it while it is
  free, and nothing unbinds it but a removal of its schema.
* `MemoryStore.index_never_dangles`: the same of every store that any calls lead to.
-/

namespace SchemaLedger

namespace Dictionary

variable {α : Type} {d : Dictionary α} {key : String} {a : α}

/-- The values, in the order of their keys. -/
def values (d : Dictionary α) : List α :=
  d.entries.map Prod.snd

lemma mem_keys_of_get? (stored : d.get? key = some a) : key ∈ d.keys :=
  List.mem_map.2 ⟨_, mem_entries_of_get? stored, rfl⟩

lemma get?_eq_none_iff : d.get? key = none ↔ key ∉ d.keys := by
  rw [get?, List.lookup_eq_none_iff, keys, List.mem_map]
  constructor
  · rintro absent ⟨e, he, rfl⟩
    exact (bne_self_eq_false e.1).symm.trans (absent e he) |> Bool.false_ne_true
  · intro absent e he
    exact bne_iff_ne.2 fun same => absent ⟨e, he, same.symm⟩

lemma exists_of_mem_keys (h : key ∈ d.keys) : ∃ a, d.get? key = some a :=
  Option.ne_none_iff_exists'.1 fun absent => get?_eq_none_iff.1 absent h

lemma keys_erase (d : Dictionary α) (key : String) :
    (d.erase key).keys = d.keys.filter (· != key) := by
  rw [keys, keys, erase, List.filter_map]
  rfl

lemma keys_insert (d : Dictionary α) (key : String) (a : α) :
    (d.insert key a).keys = d.keys.filter (· != key) ++ [key] := by
  rw [← keys_erase]
  simp [keys, insert]

/-- There is nothing to erase under a key that has no value. -/
lemma erase_of_free (free : d.get? key = none) : d.erase key = d := by
  have all : ∀ e ∈ d.entries, (e.1 != key) = true := fun e he =>
    bne_iff_ne.2 fun same => get?_eq_none_iff.1 free (List.mem_map.2 ⟨e, he, same⟩)
  rw [erase, List.filter_eq_self.2 all]

lemma values_insert_of_free (free : d.get? key = none) (a : α) :
    (d.insert key a).values = d.values ++ [a] := by
  simp [values, insert, erase_of_free free]

lemma values_filterValues (d : Dictionary α) (keep : α → Bool) :
    (d.filterValues keep).values = d.values.filter keep := by
  rw [values, values, filterValues, List.filter_map]
  rfl

/-- Where no value occurs twice, two keys with one value are the same. -/
lemma eq_of_get? {k k' : String} (nodup : d.values.Nodup) (left : d.get? k = some a)
    (right : d.get? k' = some a) : k = k' := by
  have same := List.inj_on_of_nodup_map nodup (mem_entries_of_get? left)
    (mem_entries_of_get? right) rfl
  exact congrArg Prod.fst same

end Dictionary

/-! ### Subjects and schemas in pairs -/

/-- The full names that subjects lead to are the keys of the schemas, each once. -/
structure Tables.IsPaired (t : Tables) : Prop where
  schemas : t.schemas.HasUniqueKeys
  subjects : t.subjects.HasUniqueKeys
  paired : t.subjects.values.Perm t.schemas.keys

namespace Tables

variable {t t' : Tables} {call : StoreCall} {key full : String}

/-- Every write keeps the pairs. -/
lemma IsPaired.performs (h : t.IsPaired) (performs : t.Performs call t') : t'.IsPaired := by
  cases performs with
  | @register name a free unbound =>
    refine ⟨h.schemas.insert .., h.subjects.insert .., ?_⟩
    rw [Dictionary.values_insert_of_free unbound, Dictionary.keys_insert, ← Dictionary.keys_erase,
      Dictionary.erase_of_free free]
    exact h.paired.append_right _
  | @replace name a current stored =>
    refine ⟨h.schemas.insert .., h.subjects, h.paired.trans ?_⟩
    -- the key moves to the end, where the new schema stands
    have moved := List.perm_cons_erase (Dictionary.mem_keys_of_get? stored)
    rw [Dictionary.keys_insert, ← List.Nodup.erase_eq_filter h.schemas]
    exact moved.trans (List.perm_append_singleton _ _).symm
  | remove stored =>
    refine ⟨h.schemas.erase _, h.subjects.filter _, ?_⟩
    rw [Dictionary.values_filterValues, Dictionary.keys_erase]
    exact h.paired.filter _

namespace IsPaired

/-- A subject leads to a schema that is stored. -/
lemma mem_schemas (h : t.IsPaired) (bound : t.subjects.get? key = some full) :
    full ∈ t.schemas.keys :=
  h.paired.mem_iff.1 (List.mem_map_of_mem (Dictionary.mem_entries_of_get? bound))

/-- Some subject leads to a schema that is stored. -/
lemma exists_subject (h : t.IsPaired) (stored : full ∈ t.schemas.keys) :
    ∃ key, t.subjects.get? key = some full := by
  obtain ⟨⟨key, _⟩, listed, rfl⟩ := List.mem_map.1 (h.paired.mem_iff.2 stored)
  exact ⟨key, Dictionary.get?_of_mem_entries h.subjects listed⟩

/-- Different subjects lead to different schemas. -/
lemma subject_unique (h : t.IsPaired) {k k' : String} (left : t.subjects.get? k = some full)
    (right : t.subjects.get? k' = some full) : k = k' :=
  Dictionary.eq_of_get? (h.paired.nodup_iff.2 h.schemas) left right

/-- The index is a bijection from the subjects onto the stored schemas. -/
lemma bijOn (h : t.IsPaired) :
    Set.BijOn t.subjects.get? {key | key ∈ t.subjects.keys} (some '' {full | full ∈ t.schemas.keys})
    := by
  refine ⟨?_, ?_, ?_⟩
  · intro key bound
    obtain ⟨full, bound⟩ := Dictionary.exists_of_mem_keys bound
    exact ⟨full, h.mem_schemas bound, bound.symm⟩
  · intro k bound k' _ same
    obtain ⟨full, bound⟩ := Dictionary.exists_of_mem_keys bound
    exact h.subject_unique bound (same.symm.trans bound)
  · rintro _ ⟨full, stored, rfl⟩
    obtain ⟨key, bound⟩ := h.exists_subject stored
    exact ⟨key, Dictionary.mem_keys_of_get? bound, bound⟩

/-- A removal takes out the one subject that led to the schema. -/
lemma free_after_removal {name : SchemaName} {expected : Revision} (h : t.IsPaired)
    (performs : t.Performs (.remove name expected) t') :
    ∃ key, t.subjects.get? key = some name.fullName ∧
      ∀ k, t'.subjects.get? k = if k = key then none else t.subjects.get? k := by
  cases performs with
  | remove stored =>
    obtain ⟨key, bound⟩ := h.exists_subject (Dictionary.mem_keys_of_get? stored)
    refine ⟨key, bound, fun k => ?_⟩
    rw [Dictionary.get?_filterValues h.subjects]
    by_cases same : k = key
    · subst same
      simp [bound, Option.filter]
    · rw [if_neg same]
      cases leads : t.subjects.get? k with
      | none => rfl
      | some full =>
        have other : full ≠ name.fullName := by
          rintro rfl
          exact same (h.subject_unique leads bound)
        simp [Option.filter, other]

end IsPaired

/-- What a write does to a subject: nothing, or it binds the free subject, or it removes the schema
that the subject led to. -/
lemma Performs.subject_cases (performs : t.Performs call t') (unique : t.subjects.HasUniqueKeys)
    (key : String) :
    t'.subjects.get? key = t.subjects.get? key ∨
      (∃ name a, call = .register name a ∧ name.subjectKey = key ∧ t.subjects.get? key = none) ∨
      ∃ name expected, call = .remove name expected ∧
        t.subjects.get? key = some name.fullName := by
  cases performs with
  | @register name a free unbound =>
    by_cases same : key = name.subjectKey
    · exact .inr (.inl ⟨name, a, rfl, same.symm, same ▸ unbound⟩)
    · exact .inl ((Dictionary.get?_insert ..).trans (if_neg same))
  | replace stored => exact .inl rfl
  | @remove name current stored =>
    cases bound : t.subjects.get? key with
    | none => exact .inl (by rw [Dictionary.get?_filterValues unique, bound, Option.filter_none])
    | some full =>
      by_cases same : full = name.fullName
      · exact .inr (.inr ⟨name, _, rfl, same ▸ rfl⟩)
      · refine .inl ?_
        rw [Dictionary.get?_filterValues unique, bound]
        simp [Option.filter, same]

end Tables

/-! ### Runs of the store -/

/-- What can happen to a store: a call, or writes are made to fail, or to fail no longer. -/
inductive MemoryStore.Act where
  | call (c : StoreCall)
  | fail (message : Option String)

namespace MemoryStore

variable {s : MemoryStore} {key full : String}

/-- The store after something has happened to it. -/
def act (s : MemoryStore) : Act → MemoryStore
  | .call c => (s.answer c).2
  | .fail message => { s with failing := message }

/-- The store after all that has happened to it. -/
def afterActs (s : MemoryStore) (acts : List Act) : MemoryStore :=
  acts.foldl act s

lemma isPaired_empty : ({} : MemoryStore).tables.IsPaired :=
  ⟨Dictionary.hasUniqueKeys_empty, Dictionary.hasUniqueKeys_empty, .nil⟩

/-- Whatever happens keeps the pairs. -/
lemma isPaired_act (h : s.tables.IsPaired) (a : Act) : (s.act a).tables.IsPaired := by
  cases a with
  | fail message => exact h
  | call c =>
    rcases s.answer_cases c with ⟨-, same⟩ | ⟨-, performs⟩
    · exact same ▸ h
    · exact h.performs performs

/-- All that happens keeps the pairs. -/
lemma isPaired_afterActs (h : s.tables.IsPaired) (acts : List Act) :
    (s.afterActs acts).tables.IsPaired := by
  induction acts generalizing s with
  | nil => exact h
  | cons a acts ih => exact ih (isPaired_act h a)

/-- A removal that succeeds has found a schema and taken it out. -/
lemma performs_of_removal {name : SchemaName} {expected : Revision}
    (removed : (s.answer (.remove name expected)).1 = Except.ok ()) :
    s.tables.Performs (.remove name expected) (s.answer (.remove name expected)).2.tables := by
  rcases s.answer_cases (.remove name expected) with ⟨silent, -⟩ | ⟨-, performs⟩
  · rw [removed] at silent
    cases silent
  · exact performs

/-- A subject stays bound to its schema, unless a removal of the schema succeeds. -/
lemma subject_cases_act (h : s.tables.IsPaired) (bound : s.tables.subjects.get? key = some full)
    (a : Act) :
    (s.act a).tables.subjects.get? key = some full ∨
      ∃ name expected, a = .call (.remove name expected) ∧ name.fullName = full ∧
        (s.answer (.remove name expected)).1 = Except.ok () := by
  cases a with
  | fail message => exact .inl bound
  | call c =>
    rcases s.answer_cases c with ⟨-, same⟩ | ⟨brings, performs⟩
    · exact .inl ((congrArg (·.subjects.get? key) same).trans bound)
    · rcases performs.subject_cases h.subjects key with
        same | ⟨_, _, rfl, -, unbound⟩ | ⟨name, expected, rfl, bound'⟩
      · exact .inl (same.trans bound)
      · cases unbound.symm.trans bound
      · rcases Exchange.effect?_cases _ (s.answer (.remove name expected)).1 with
          ⟨silent, -⟩ | ⟨-, -, _, removed⟩
        · cases silent.symm.trans brings
        · exact .inr ⟨name, expected, rfl, Option.some.inj (bound'.symm.trans bound), removed⟩

/-- Through all that happens, a subject stays bound to its schema until the schema is removed. -/
lemma subject_cases_afterActs (h : s.tables.IsPaired)
    (bound : s.tables.subjects.get? key = some full) (acts : List Act) :
    (s.afterActs acts).tables.subjects.get? key = some full ∨
      ∃ before name expected later, acts = before ++ .call (.remove name expected) :: later ∧
        name.fullName = full ∧
        ((s.afterActs before).answer (.remove name expected)).1 = Except.ok () := by
  induction acts generalizing s with
  | nil => exact .inl bound
  | cons a acts ih =>
    rcases subject_cases_act h bound a with bound | ⟨name, expected, rfl, same, removed⟩
    · rcases ih (isPaired_act h a) bound with bound | ⟨before, name, expected, later, rfl, rest⟩
      · exact .inl bound
      · exact .inr ⟨a :: before, name, expected, later, rfl, rest⟩
    · exact .inr ⟨[], name, expected, acts, rfl, same, removed⟩

/-- A schema is registered under a free full name if no stored schema has the subject. -/
lemma register_iff (h : s.tables.IsPaired) (working : s.failing = none) {name : SchemaName}
    (free : name.fullName ∉ s.tables.schemas.keys) (a : Aggregate) :
    (s.answer (.register name a)).1 = Except.ok () ↔
      ∀ full ∈ s.tables.schemas.keys, s.tables.subjects.get? name.subjectKey ≠ some full := by
  have answered : (s.answer (.register name a)).1 = (s.tables.answer (.register name a)).1 := by
    simp only [answer, working]
  rw [answered]
  have free := Dictionary.get?_eq_none_iff.2 free
  cases bound : s.tables.subjects.get? name.subjectKey with
  | none =>
    rw [Tables.answer_register free bound]
    exact iff_of_true rfl fun full _ => (Option.some_ne_none full).symm
  | some full =>
    rw [Tables.answer_register_of_bound free bound]
    constructor
    · intro stored
      cases stored
    · intro absent
      exact absurd rfl (absent full (h.mem_schemas bound))

/-- What the index of subjects is good for: subjects and schemas come in pairs, a removal frees
one subject, and a subject is free for another schema when its own is gone. -/
structure IndexHolds (s : MemoryStore) : Prop where
  bijective : Set.BijOn s.tables.subjects.get? {key | key ∈ s.tables.subjects.keys}
    (some '' {full | full ∈ s.tables.schemas.keys})
  one_subject : ∀ full ∈ s.tables.schemas.keys, s.tables.subjects.values.count full = 1
  leads_to_schema : ∀ full ∈ s.tables.subjects.values, full ∈ s.tables.schemas.keys
  frees_one : ∀ name expected, (s.answer (.remove name expected)).1 = Except.ok () →
    ∃ key, s.tables.subjects.get? key = some name.fullName ∧
      ∀ k, (s.answer (.remove name expected)).2.tables.subjects.get? k =
        if k = key then none else s.tables.subjects.get? k
  rebound_iff : ∀ name a, s.failing = none → name.fullName ∉ s.tables.schemas.keys →
    ((s.answer (.register name a)).1 = Except.ok () ↔
      ∀ full ∈ s.tables.schemas.keys, s.tables.subjects.get? name.subjectKey ≠ some full)
  bound_until_removed : ∀ key full, s.tables.subjects.get? key = some full → ∀ more : List Act,
    (s.afterActs more).tables.subjects.get? key = some full ∨
      ∃ before name expected later, more = before ++ .call (.remove name expected) :: later ∧
        name.fullName = full ∧
        ((s.afterActs before).answer (.remove name expected)).1 = Except.ok ()

/-- **The index of subjects never dangles**, whatever calls the store was given, under whatever
names and with whatever schemas, and whenever its writes were made to fail. -/
theorem index_never_dangles (acts : List Act) : (afterActs {} acts).IndexHolds := by
  have paired := isPaired_afterActs isPaired_empty acts
  have nodup := paired.paired.nodup_iff.2 paired.schemas
  constructor
  case bijective => exact paired.bijOn
  case one_subject =>
    intro full stored
    exact List.count_eq_one_of_mem nodup (paired.paired.mem_iff.2 stored)
  case leads_to_schema => exact fun full => paired.paired.mem_iff.1
  case frees_one =>
    intro name expected removed
    exact paired.free_after_removal (performs_of_removal removed)
  case rebound_iff => exact fun name a working free => register_iff paired working free a
  case bound_until_removed => exact fun key full => subject_cases_afterActs paired

end MemoryStore

end SchemaLedger
