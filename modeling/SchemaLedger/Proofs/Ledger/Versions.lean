import SchemaLedger.Proofs.Ledger.Growth

/-!
The two ways to count versions.

A record carries a number and has a place. Revisions and the last version go by the length of the
ledger, a record is looked up by its place, and a new version gets the number behind that of the
last record.

* `Ledger.filter_version_eq`: in a contiguous ledger, the record at a place is the one record with
  that number.
* `Ledger.IsNumbered`, `Ledger.IsExtendedBy`: what this comes to for one ledger, and for a ledger
  and the one with another version.
* `Aggregate.addAll?`: a schema after any number of new versions. One of them keeps places and
  numbers together (`Aggregate.exists_isExtendedBy_next?`), and so do all
  (`Aggregate.exists_addAll?`).
* `Ledger.versions_are_places`: both hold of every contiguous ledger, and a schema that has grown
  from its first version has the versions 1, 2, … up to their number.
-/

namespace SchemaLedger

namespace Ledger

/-! ### One ledger -/

/-- Among records that are numbered from some number on, the one with a given number stands where
one counts up to. -/
lemma filter_numbered {records : List Record} {first : Nat}
    (numbers : records.map (·.version) = List.range' first records.length) (v : Nat) :
    records.filter (fun r => r.version == v) =
      if first ≤ v then (records[v - first]?).toList else [] := by
  induction records generalizing first with
  | nil => simp
  | cons r records ih =>
    rw [List.map_cons, List.length_cons, List.range'_succ, List.cons.injEq] at numbers
    obtain ⟨here, later⟩ := numbers
    have others := ih later
    by_cases same : v = first
    · subst same
      rw [if_neg (by omega)] at others
      simp [here, others]
    · rw [List.filter_cons_of_neg (by simp [here, Ne.symm same]), others]
      by_cases beyond : first ≤ v
      · have next : v - first = (v - (first + 1)) + 1 := by omega
        rw [if_pos (by omega), if_pos beyond, next, List.getElem?_cons_succ]
      · rw [if_neg (by omega), if_neg beyond]

/-- In a contiguous ledger, the record at a place is the one record with that number. -/
lemma filter_version_eq {l : Ledger} (h : l.isContiguous = true) (v : Nat) :
    l.records.filter (fun r => r.version == v) = (l.record? v).toList := by
  rw [filter_numbered (isContiguous_iff.1 h).2 v, record?]
  by_cases none : v = 0
  · rw [if_neg (by omega), if_pos none]
    rfl
  · rw [if_pos (by omega), if_neg none]

/-- Numbers and places of a ledger are the same. -/
structure IsNumbered (l : Ledger) : Prop where
  /-- The last record carries the number of records. -/
  last : ∃ r, l.last? = some r ∧ r.version = l.lastVersion ∧ l.lastVersion = l.records.length
  /-- There is a record at every place up to the last version, and at no other. -/
  found : ∀ v, (∃ r, l.record? v = some r) ↔ 1 ≤ v ∧ v ≤ l.lastVersion
  /-- The record at a place is the only one with that number, and where there is none, no record
  has the number. -/
  only : ∀ v, l.records.filter (fun r => r.version == v) = (l.record? v).toList

lemma isNumbered_of_isContiguous {l : Ledger} (h : l.isContiguous = true) : l.IsNumbered where
  last := by
    have last : l.last? = some _ := List.getLast?_eq_some_getLast (isContiguous_iff.1 h).1
    exact ⟨_, last, version_of_last? h last, rfl⟩
  found v := by
    rw [← not_iff_not, ← record?_eq_none_iff, Option.eq_none_iff_forall_ne_some, not_exists]
  only := filter_version_eq h

/-! ### One more version -/

/-- The second ledger is the first one with one more version of the given text. -/
structure IsExtendedBy (l : Ledger) (idl : String) (l' : Ledger) : Prop where
  contiguous : l'.isContiguous = true
  /-- What was there comes first. -/
  before : l.records <+: l'.records
  longer : l'.lastVersion = l.lastVersion + 1
  /-- The new record has the text, with its fingerprint, and takes id and family from the last
  one. -/
  added : ∃ old new, l.last? = some old ∧ l'.record? (l.lastVersion + 1) = some new ∧
    new.idl = idl ∧ new.isAuthentic = true ∧ new.schemaId = old.schemaId ∧
      new.family = old.family
  /-- Every record stays where it is. -/
  kept : ∀ v ≤ l.lastVersion, l'.record? v = l.record? v
  authentic : l.isAuthentic = true → l'.isAuthentic = true

/-- A contiguous ledger can always have another version. -/
lemma exists_append? {l : Ledger} (h : l.isContiguous = true) (name : SchemaName) (idl : String)
    (now : Instant) : ∃ l', l.append? name idl now = some l' ∧ l.IsExtendedBy idl l' := by
  obtain ⟨old, last, -⟩ := (isNumbered_of_isContiguous h).last
  let new := Record.make name old.schemaId old.family idl (old.version + 1) now
  have appended : l.append? name idl now = some ⟨l.records ++ [new]⟩ :=
    append?_eq_some_iff.2 ⟨old, last, rfl⟩
  have behind : record? ⟨l.records ++ [new]⟩ (l.lastVersion + 1) = some new := by
    simp [record?, lastVersion]
  refine ⟨⟨l.records ++ [new]⟩, appended, ?_⟩
  exact {
    contiguous := isContiguous_append h appended
    before := List.prefix_append _ _
    longer := by simp [lastVersion]
    added := ⟨old, new, last, behind, rfl, Record.isAuthentic_make .., rfl, rfl⟩
    kept := fun v within => by
      have place : v - 1 < l.records.length ∨ v = 0 := by
        have : v ≤ l.records.length := within
        omega
      rcases place with place | rfl
      · rw [record?, record?, List.getElem?_append_left place]
      · rfl
    authentic := fun authentic => isAuthentic_append authentic appended }

end Ledger

/-! ### Any number of versions -/

namespace Aggregate

/-- What a new version of a schema is made of. -/
structure Addition where
  name : SchemaName
  owner : String
  idl : String
  modifiedAt : Instant
  createdAt : Instant

/-- The schema with new versions, one after the other. -/
def addAll? (a : Aggregate) (more : List Addition) : Option Aggregate :=
  more.foldlM (fun a x => a.next? x.name x.owner x.idl x.modifiedAt x.createdAt) a

/-- A schema with a contiguous ledger can always have another version. -/
lemma exists_isExtendedBy_next? {a : Aggregate} (h : a.ledger.isContiguous = true) (x : Addition) :
    ∃ c, a.next? x.name x.owner x.idl x.modifiedAt x.createdAt = some c ∧
      a.ledger.IsExtendedBy x.idl c.ledger := by
  obtain ⟨l, appended, extended⟩ := Ledger.exists_append? h x.name x.idl x.createdAt
  refine ⟨{ a with audit := a.audit.updated x.owner x.modifiedAt, ledger := l, artifact := none },
    ?_, extended⟩
  rw [next?, appended, Option.map_some]

/-- It can have any number of them, and each counts. -/
lemma exists_addAll? {a : Aggregate} (h : a.ledger.isContiguous = true) (more : List Addition) :
    ∃ c, a.addAll? more = some c ∧ c.ledger.isContiguous = true ∧
      c.lastVersion = a.lastVersion + more.length := by
  induction more generalizing a with
  | nil => exact ⟨a, rfl, h, rfl⟩
  | cons x more ih =>
    obtain ⟨b, next, extended⟩ := exists_isExtendedBy_next? h x
    obtain ⟨c, rest, contiguous, count⟩ := ih extended.contiguous
    refine ⟨c, ?_, contiguous, ?_⟩
    · rw [addAll?, List.foldlM_cons, next]
      exact rest
    · have longer : b.lastVersion = a.lastVersion + 1 := extended.longer
      rw [count, longer, List.length_cons]
      omega

end Aggregate

namespace Ledger

/-- **Numbers and places of versions are the same** in every contiguous ledger, and stay so with
each new version. A schema that starts with its first version and gets any number of others has the
versions from 1 up to their number. -/
theorem versions_are_places :
    (∀ l : Ledger, l.isContiguous = true → l.IsNumbered ∧
      ∀ name idl now, ∃ l', l.append? name idl now = some l' ∧ l.IsExtendedBy idl l') ∧
    ∀ name id family idl now (a : Aggregate) (more : List Aggregate.Addition),
      a.ledger = start name id family idl now →
        ∃ c, a.addAll? more = some c ∧
          c.ledger.records.map (·.version) = List.range' 1 (more.length + 1) := by
  refine ⟨fun l h => ⟨isNumbered_of_isContiguous h, exists_append? h⟩,
    fun name id family idl now a more begun => ?_⟩
  have contiguous : a.ledger.isContiguous = true := begun ▸ isContiguous_start ..
  have one : a.lastVersion = 1 := by
    rw [Aggregate.lastVersion, begun]
    rfl
  obtain ⟨c, added, numbered, count⟩ := Aggregate.exists_addAll? contiguous more
  refine ⟨c, added, ?_⟩
  have length : c.ledger.records.length = more.length + 1 := by
    rw [one, Nat.add_comm] at count
    exact count
  rw [(isContiguous_iff.1 numbered).2, length]

end Ledger

end SchemaLedger
