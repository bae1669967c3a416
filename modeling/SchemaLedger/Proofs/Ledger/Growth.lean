import Mathlib.Tactic
import SchemaLedger.Aggregate

/-!
How a schema grows.

* `Ledger.append?_eq_some_iff` and `Aggregate.next?_eq_some_iff`: a new version is one record
  behind the others, and all else but audit and artifact stays as it was.
* `Ledger.isContiguous_append`: a ledger numbered 1, 2, … stays so.
* `Aggregate.bare`: a schema without its artifact, which is what a revision identifies.
-/

namespace SchemaLedger

/-- A new record carries the fingerprint of its text. -/
lemma Record.isAuthentic_make (name : SchemaName) (id : UInt64) (family : Family) (idl : String)
    (version : Nat) (now : Instant) : (make name id family idl version now).isAuthentic = true := by
  simp [isAuthentic, make, Checksum.verifies]

namespace Ledger

/-- One record is added, which takes id and family from the record before. -/
lemma append?_eq_some_iff {l l' : Ledger} {name : SchemaName} {idl : String} {now : Instant} :
    l.append? name idl now = some l' ↔ ∃ r, l.last? = some r ∧
      l' = ⟨l.records ++ [Record.make name r.schemaId r.family idl (r.version + 1) now]⟩ := by
  rw [append?, Option.map_eq_some_iff]
  exact exists_congr fun r => and_congr_right fun _ => eq_comm

/-- A ledger is contiguous if it is not empty and each record carries the number of its
place. -/
lemma isContiguous_iff {l : Ledger} :
    l.isContiguous = true ↔
      l.records ≠ [] ∧ l.records.map (·.version) = List.range' 1 l.records.length := by
  simp [isContiguous]

/-- The last record of a contiguous ledger carries the number of records. -/
lemma version_of_last? {l : Ledger} (h : l.isContiguous = true) {r : Record}
    (hr : l.last? = some r) : r.version = l.lastVersion := by
  obtain ⟨ne, numbers⟩ := isContiguous_iff.1 h
  have hlast : (l.records.map (·.version)).getLast? = some r.version := by
    rw [List.getLast?_map, show l.records.getLast? = some r from hr, Option.map_some]
  have hpos : 0 < l.records.length := List.length_pos_iff.2 ne
  rw [numbers, List.getLast?_range', if_neg (by omega)] at hlast
  have := Option.some.inj hlast
  rw [lastVersion]
  omega

lemma isContiguous_start (name : SchemaName) (id : UInt64) (family : Family) (idl : String)
    (now : Instant) : (start name id family idl now).isContiguous = true := by
  simp [isContiguous, start, Record.make]

lemma isAuthentic_start (name : SchemaName) (id : UInt64) (family : Family) (idl : String)
    (now : Instant) : (start name id family idl now).isAuthentic = true := by
  simp [isAuthentic, start, Record.isAuthentic_make]

/-- A contiguous ledger stays contiguous. -/
lemma isContiguous_append {l l' : Ledger} {name : SchemaName} {idl : String} {now : Instant}
    (h : l.isContiguous = true) (happend : l.append? name idl now = some l') :
    l'.isContiguous = true := by
  obtain ⟨r, hr, rfl⟩ := append?_eq_some_iff.1 happend
  have hversion := version_of_last? h hr
  obtain ⟨-, numbers⟩ := isContiguous_iff.1 h
  refine isContiguous_iff.2 ⟨by simp, ?_⟩
  rw [List.map_append, numbers, List.length_append, List.length_singleton, List.range'_1_concat]
  simp only [List.map_cons, List.map_nil, Record.make]
  rw [hversion, lastVersion, Nat.add_comm]

/-- A new record keeps the fingerprints of a ledger right. -/
lemma isAuthentic_append {l l' : Ledger} {name : SchemaName} {idl : String} {now : Instant}
    (h : l.isAuthentic = true) (happend : l.append? name idl now = some l') :
    l'.isAuthentic = true := by
  obtain ⟨r, -, rfl⟩ := append?_eq_some_iff.1 happend
  rw [isAuthentic, List.all_append, Bool.and_eq_true]
  exact ⟨h, by simp [Record.isAuthentic_make]⟩

/-- The record at a version of a contiguous ledger carries that version. -/
lemma version_of_record? {l : Ledger} (h : l.isContiguous = true) {v : Nat} {r : Record}
    (hr : l.record? v = some r) : r.version = v := by
  obtain ⟨-, numbers⟩ := isContiguous_iff.1 h
  rw [record?] at hr
  split at hr
  · cases hr
  · have here : (l.records.map (·.version))[v - 1]? = some r.version := by
      rw [List.getElem?_map, hr, Option.map_some]
    rw [numbers, List.getElem?_range'] at here
    · have := Option.some.inj here
      omega
    · exact (List.getElem?_eq_some_iff.1 hr).1

/-- The record at a version is one of the ledger. -/
lemma mem_of_record? {l : Ledger} {v : Nat} {r : Record} (hr : l.record? v = some r) :
    r ∈ l.records := by
  rw [record?] at hr
  split at hr
  · cases hr
  · exact List.mem_of_getElem? hr

/-- There is a record at every version up to the last one, and at no other. -/
lemma record?_eq_none_iff {l : Ledger} {v : Nat} :
    l.record? v = none ↔ ¬(1 ≤ v ∧ v ≤ l.lastVersion) := by
  rw [record?, lastVersion]
  split
  · simp [‹v = 0›]
  · rw [List.getElem?_eq_none_iff]
    omega

/-- A record stays where it is when more records come. -/
lemma record?_of_prefix {l l' : Ledger} (h : l.records <+: l'.records) {v : Nat} {r : Record}
    (hr : l.record? v = some r) : l'.record? v = some r := by
  rw [record?] at hr ⊢
  split at hr
  · cases hr
  · rename_i pos
    rw [if_neg pos]
    obtain ⟨more, more_eq⟩ := h
    rw [← more_eq, List.getElem?_append_left (List.getElem?_eq_some_iff.1 hr).1, hr]

end Ledger

namespace Aggregate

/-- A new version is one record behind the others; name, metadata and labels stay, and the
artifact of the version before is dropped. -/
lemma next?_eq_some_iff {a c : Aggregate} {name : SchemaName} {owner idl : String}
    {modified started : Instant} :
    a.next? name owner idl modified started = some c ↔ ∃ r, a.ledger.last? = some r ∧
      c = { a with
        audit := a.audit.updated owner modified
        ledger := ⟨a.ledger.records ++
          [Record.make name r.schemaId r.family idl (r.version + 1) started]⟩
        artifact := none } := by
  simp only [next?, Option.map_eq_some_iff, Ledger.append?_eq_some_iff]
  constructor
  · rintro ⟨l, ⟨r, hr, rfl⟩, rfl⟩
    exact ⟨r, hr, rfl⟩
  · rintro ⟨r, hr, rfl⟩
    exact ⟨_, ⟨r, hr, rfl⟩, rfl⟩

/-- The schema without its artifact. -/
def bare (a : Aggregate) : Aggregate :=
  { a with artifact := none }

@[simp] lemma bare_bare (a : Aggregate) : a.bare.bare = a.bare := rfl

@[simp] lemma bare_withArtifact (a : Aggregate) (d : Artifact) :
    (a.withArtifact d).bare = a.bare := rfl

/-- What two schemas have in common that differ in the artifact at most. -/
lemma bare_eq_bare_iff {a b : Aggregate} :
    a.bare = b.bare ↔ a.name = b.name ∧ a.audit = b.audit ∧ a.info = b.info ∧
      a.ledger = b.ledger ∧ a.storage = b.storage ∧ a.extras = b.extras := by
  simp [bare]

lemma name_eq_of_bare {a b : Aggregate} (h : a.bare = b.bare) : a.name = b.name :=
  (bare_eq_bare_iff.1 h).1

lemma info_eq_of_bare {a b : Aggregate} (h : a.bare = b.bare) : a.info = b.info :=
  (bare_eq_bare_iff.1 h).2.2.1

lemma ledger_eq_of_bare {a b : Aggregate} (h : a.bare = b.bare) : a.ledger = b.ledger :=
  (bare_eq_bare_iff.1 h).2.2.2.1

end Aggregate

end SchemaLedger
