import SchemaLedger.Proofs.Json.RoundTrip
import SchemaLedger.Wire

/-!
The stored form of a schema loses nothing.

* `Wire.isClear_aggregate`: the description of a stored schema is clear, one lemma for each
  description in it.
* `Wire.fits_aggregate_iff`: which schemas can be stored.
* `Wire.read_pretty_aggregate`: a schema is read back from its text.
-/

namespace SchemaLedger.Wire

open Json

lemma isClear_subjectRef : subjectRef.IsClear := by
  simp [subjectRef, text]

lemma isClear_schemaName : schemaName.IsClear := by
  simp [schemaName, text, word]

lemma isClear_audit : audit.IsClear := by
  simp [audit, text]

lemma isClear_info : info.IsClear := by
  simp [info, text, word, family, policy]

lemma isClear_record : record.IsClear := by
  simp [record, text, word, count, family, checksum, isClear_subjectRef]

lemma isClear_ledger : ledger.IsClear := by
  simp [ledger, isClear_record]

lemma isClear_artifact : artifact.IsClear := by
  simp [artifact, text, count, checksum]

/-- The description of a stored schema is clear. -/
theorem isClear_aggregate : aggregate.IsClear := by
  have present : artifact.mayBeNull = false := rfl
  simp [aggregate, isClear_schemaName, isClear_audit, isClear_info, isClear_ledger,
    isClear_artifact, present]

/-- A schema can be stored if its counts are numbers of 64 bits. -/
lemma fits_aggregate_iff {a : Aggregate} :
    aggregate.Fits a ↔ (∀ r ∈ a.ledger.records, r.version < Word.limit 64) ∧
      ∀ d ∈ a.artifact, d.recordVersion < Word.limit 64 := by
  have words (n : UInt64) : n.toNat < 18446744073709551616 := n.toNat_lt
  simp [aggregate, schemaName, audit, info, ledger, record, artifact, subjectRef, text, word,
    count, family, policy, checksum, words]

/-- **A schema is read back from its text**, if its counts are numbers of 64 bits. -/
theorem read_pretty_aggregate {a : Aggregate} (fits : aggregate.Fits a) :
    aggregate.read (aggregate.pretty a) = .ok a :=
  Codec.read_pretty isClear_aggregate fits

end SchemaLedger.Wire
