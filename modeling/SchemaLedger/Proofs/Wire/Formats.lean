import SchemaLedger.Proofs.Json.Fitting
import SchemaLedger.Proofs.Wire
import SchemaLedger.Settings.Basic

/-!
All that is stored, sent or configured as JSON.

* `Format`: the records that stand alone in a text, each with its description.
* `Format.InRange`: the counts of a value are numbers of 64 bits; nothing else limits a value.
* `Format.isClear`, `Format.isExact`: no description loses anything, on the way out or in.
* `Format.written_is_read`: every value in range is read back from either layout, and what is
  written of a value that was read is a normal form.
-/

namespace SchemaLedger.Wire

open Json

/-- The records that stand alone in a text. -/
inductive Format where
  | schemaName
  | subjectRef
  | info
  | record
  | ledger
  | aggregate
  | audit
  | artifact
  | revision
  | registration
  | change
  | registered
  | changed
  | schemaView
  | recordView
  | registrySettings
  | settings
  deriving DecidableEq, Repr

namespace Format

/-- The values of a format. -/
abbrev Value : Format → Type
  | schemaName => SchemaName
  | subjectRef => SubjectRef
  | info => Meta
  | record => Record
  | ledger => Ledger
  | aggregate => Aggregate
  | audit => Audit
  | artifact => Artifact
  | revision => Revision
  | registration => Registration
  | change => Change
  | registered => Receipt
  | changed => Receipt
  | schemaView => SchemaView
  | recordView => RecordView
  | registrySettings => RegistrySettings
  | settings => Settings

/-- The description of a format. -/
def codec : (f : Format) → Codec f.Value
  | schemaName => Wire.schemaName
  | subjectRef => Wire.subjectRef
  | info => Wire.info
  | record => Wire.record
  | ledger => Wire.ledger
  | aggregate => Wire.aggregate
  | audit => Wire.audit
  | artifact => Wire.artifact
  | revision => Wire.revision
  | registration => Wire.registration
  | change => Wire.change
  | registered => Wire.registered
  | changed => Wire.changed
  | schemaView => Wire.schemaView
  | recordView => Wire.recordView
  | registrySettings => Wire.registrySettings
  | settings => Wire.settings

/-- A count is a number of 64 bits. -/
abbrev IsWord (n : Nat) : Prop := n < Word.limit 64

/-- All counts in a value are numbers of 64 bits. -/
def InRange : (f : Format) → f.Value → Prop
  | record, r => IsWord r.version
  | ledger, l => ∀ r ∈ l.records, IsWord r.version
  | aggregate, a =>
    (∀ r ∈ a.ledger.records, IsWord r.version) ∧ ∀ d ∈ a.artifact, IsWord d.recordVersion
  | artifact, d => IsWord d.recordVersion
  | revision, r => IsWord r.version
  | registered, r => IsWord r.version
  | changed, r => IsWord r.version
  | schemaView, v =>
    (∀ r ∈ v.records, IsWord r.version) ∧ IsWord v.lastVersion ∧
      ∀ d ∈ v.artifact, IsWord d.recordVersion
  | recordView, r => IsWord r.version
  | _, _ => True

end Format

lemma isClear_recordView : recordView.IsClear := by
  simp [recordView, text, word, count, family, isClear_subjectRef]

lemma isClear_schemaView : schemaView.IsClear := by
  have present : Wire.artifact.mayBeNull = false := rfl
  simp [schemaView, count, isClear_schemaName, isClear_audit, isClear_info, isClear_artifact,
    isClear_recordView, present]

lemma isClear_registrySettings : registrySettings.IsClear := by
  simp [registrySettings, compileMode, shortWord]

lemma isClear_settings : settings.IsClear := by
  simp [settings, storageSettings, loggingSettings, text, isClear_registrySettings]

theorem Format.isClear (f : Format) : f.codec.IsClear := by
  cases f with
  | schemaName => exact isClear_schemaName
  | subjectRef => exact isClear_subjectRef
  | info => exact isClear_info
  | record => exact isClear_record
  | ledger => exact isClear_ledger
  | aggregate => exact isClear_aggregate
  | audit => exact isClear_audit
  | artifact => exact isClear_artifact
  | schemaView => exact isClear_schemaView
  | recordView => exact isClear_recordView
  | registrySettings => exact isClear_registrySettings
  | settings => exact isClear_settings
  | revision => simp [codec, Wire.revision, word, count]
  | registration =>
    simp [codec, Wire.registration, text, family, policy]
  | change => simp [codec, Wire.change, text]
  | registered =>
    simp [codec, Wire.registered, receipt, word, count]
  | changed =>
    simp [codec, Wire.changed, receipt, word, count]

/-! ### Nothing is lost on the way in -/

lemma fits_word (n : UInt64) : word.Fits n :=
  n.toNat_lt

lemma fits_shortWord (n : UInt16) : shortWord.Fits n :=
  n.toNat_lt

lemma fits_count {n : Nat} : count.Fits n ↔ Format.IsWord n :=
  Iff.rfl

lemma isExact_word : word.IsExact :=
  fun _ small => UInt64.toNat_ofNat_of_lt' small

lemma isExact_shortWord : shortWord.IsExact :=
  fun _ small => UInt16.toNat_ofNat_of_lt' small

lemma isExact_count : count.IsExact :=
  fun _ _ => rfl

lemma isExact_text : text.IsExact :=
  trivial

lemma isExact_family : family.IsExact :=
  trivial

lemma isExact_policy : policy.IsExact :=
  trivial

lemma isExact_compileMode : compileMode.IsExact :=
  trivial

lemma isExact_checksum : checksum.IsExact :=
  ⟨isExact_text, fun _ => rfl⟩

lemma isExact_subjectRef : subjectRef.IsExact :=
  ⟨.required isExact_text <| .required isExact_text trivial, fun _ => rfl⟩

lemma isExact_schemaName : schemaName.IsExact :=
  ⟨.required isExact_text <| .required isExact_text <| .required isExact_text <|
    .omitted isExact_word Codec.fits_none trivial, fun _ => rfl⟩

lemma isExact_audit : audit.IsExact :=
  ⟨.required isExact_text <| .omitted isExact_text Codec.fits_none <| .required trivial <|
    .required isExact_text <| .required trivial trivial, fun _ => rfl⟩

lemma isExact_info : info.IsExact :=
  ⟨.required isExact_text <| .required isExact_text <| .required isExact_text <|
    .required isExact_family <| .required isExact_policy <| .required isExact_word trivial,
    fun _ => rfl⟩

lemma isExact_record : record.IsExact :=
  ⟨.required isExact_text <| .required isExact_word <| .required isExact_family <|
    .required isExact_text <| .required isExact_count <| .required isExact_subjectRef <|
    .required isExact_checksum <| .required trivial trivial, fun _ => rfl⟩

lemma isExact_ledger : ledger.IsExact :=
  ⟨.required isExact_record trivial, fun _ => rfl⟩

lemma isExact_artifact : artifact.IsExact :=
  ⟨.required isExact_count <| .required isExact_text <| .defaulted isExact_text Codec.fits_nil <|
    .required isExact_checksum <| .required trivial trivial, fun _ => rfl⟩

lemma isExact_aggregate : aggregate.IsExact :=
  ⟨.required isExact_schemaName <| .required isExact_audit <| .required isExact_info <|
    .required isExact_ledger <| .omitted isExact_artifact Codec.fits_none <|
    .omitted trivial trivial <| .omitted trivial trivial trivial, fun _ => rfl⟩

lemma isExact_revision : revision.IsExact :=
  ⟨.required isExact_word <| .required isExact_count trivial, fun _ => rfl⟩

lemma isExact_registration : registration.IsExact :=
  ⟨.required isExact_text <| .defaulted isExact_text Codec.fits_none <|
    .defaulted isExact_policy trivial <| .defaulted isExact_family trivial <|
    .required isExact_text trivial, fun _ => rfl⟩

lemma isExact_change : change.IsExact :=
  ⟨.required isExact_text <| .required isExact_text trivial, fun _ => rfl⟩

lemma isExact_receipt (title : String) : (receipt title).IsExact :=
  ⟨.required isExact_word <| .required isExact_count trivial, fun _ => rfl⟩

lemma isExact_recordView : recordView.IsExact :=
  ⟨.required isExact_text <| .required isExact_word <| .required isExact_family <|
    .required isExact_count <| .required isExact_text <| .required isExact_subjectRef <|
    .required isExact_text trivial, fun _ => rfl⟩

lemma isExact_schemaView : schemaView.IsExact :=
  ⟨.required isExact_schemaName <| .required isExact_audit <| .required isExact_info <|
    .required isExact_recordView <| .required isExact_count <|
    .omitted isExact_artifact Codec.fits_none trivial, fun _ => rfl⟩

lemma isExact_registrySettings : registrySettings.IsExact :=
  ⟨.defaulted trivial trivial <| .defaulted trivial trivial <|
    .defaulted isExact_compileMode trivial <|
    .defaulted isExact_shortWord (fits_shortWord 0) trivial, fun _ => rfl⟩

lemma isExact_storageSettings : storageSettings.IsExact :=
  ⟨.defaulted trivial trivial trivial, fun _ => rfl⟩

lemma isExact_loggingSettings : loggingSettings.IsExact :=
  ⟨.defaulted isExact_text trivial trivial, fun _ => rfl⟩

lemma isExact_settings : settings.IsExact :=
  ⟨.defaulted isExact_registrySettings ⟨trivial, trivial, trivial, fits_shortWord 0, trivial⟩ <|
    .defaulted isExact_storageSettings ⟨trivial, trivial⟩ <|
    .defaulted isExact_loggingSettings ⟨trivial, trivial⟩ trivial, fun _ => rfl⟩

theorem Format.isExact (f : Format) : f.codec.IsExact := by
  cases f with
  | schemaName => exact isExact_schemaName
  | subjectRef => exact isExact_subjectRef
  | info => exact isExact_info
  | record => exact isExact_record
  | ledger => exact isExact_ledger
  | aggregate => exact isExact_aggregate
  | audit => exact isExact_audit
  | artifact => exact isExact_artifact
  | revision => exact isExact_revision
  | registration => exact isExact_registration
  | change => exact isExact_change
  | registered => exact isExact_receipt _
  | changed => exact isExact_receipt _
  | schemaView => exact isExact_schemaView
  | recordView => exact isExact_recordView
  | registrySettings => exact isExact_registrySettings
  | settings => exact isExact_settings

/-- A value fits if its counts are numbers of 64 bits. -/
theorem Format.fits_iff (f : Format) (a : f.Value) : f.codec.Fits a ↔ f.InRange a := by
  have plain (s : String) : text.Fits s := trivial
  cases f <;>
    simp only [codec, InRange, Wire.schemaName, Wire.subjectRef, Wire.info, Wire.record,
      Wire.ledger, Wire.aggregate, Wire.audit, Wire.artifact, Wire.revision, Wire.registration,
      Wire.change, Wire.registered, Wire.changed, receipt, Wire.schemaView, Wire.recordView,
      Wire.registrySettings, Wire.settings, storageSettings, loggingSettings, family, policy,
      compileMode, checksum, Codec.Fits, Fields.Fits, fits_word, fits_shortWord, fits_count, plain,
      implies_true, true_and, and_true]

/-! ### Written and read -/

/-- **What is written is read back**, from either layout and for every value in range; and what
is written of a value that was read, from whatever text, is a normal form. -/
theorem Format.written_is_read (f : Format) :
    (∀ a, f.InRange a →
      f.codec.read (f.codec.compact a) = .ok a ∧ f.codec.read (f.codec.pretty a) = .ok a) ∧
    ∀ text a, f.codec.read text = .ok a →
      f.InRange a ∧
      (f.codec.read (f.codec.compact a) = .ok a ∧
        (f.codec.read (f.codec.compact a)).map f.codec.compact = .ok (f.codec.compact a)) ∧
      f.codec.read (f.codec.pretty a) = .ok a ∧
        (f.codec.read (f.codec.pretty a)).map f.codec.pretty = .ok (f.codec.pretty a) := by
  have back (a : f.Value) (h : f.InRange a) :
      f.codec.read (f.codec.compact a) = .ok a ∧ f.codec.read (f.codec.pretty a) = .ok a :=
    have fits := (f.fits_iff a).2 h
    ⟨Codec.read_compact f.isClear fits, Codec.read_pretty f.isClear fits⟩
  refine ⟨back, fun text a read => ?_⟩
  have range : f.InRange a := (f.fits_iff a).1 (Codec.fits_of_read f.isExact read)
  obtain ⟨compact, pretty⟩ := back a range
  refine ⟨range, ⟨compact, ?_⟩, pretty, ?_⟩
  · rw [compact]
    rfl
  · rw [pretty]
    rfl

namespace Format

/-- A leap second at the end of the last year that has one, a nanosecond before the next. -/
def lastLeap : Instant where
  date := ⟨262142, 12, 31, by decide⟩
  hour := 23
  minute := 59
  second := 59
  nano := 1999999999

/-- A moment of the first year. -/
def early : Instant where
  date := ⟨-262143, 1, 1, by decide⟩
  hour := 1
  minute := 2
  second := 3
  nano := 4

/-- A stored schema with all that is rare: quotes, control characters and others outside the
first plane in its texts, counts as large as they can be, and moments of the first and last year. -/
def remarkable : Aggregate where
  name := ⟨"\x00\"\\", "\u2028", "😀", none⟩
  audit := ⟨"ann", some "", early, "bob\n", lastLeap⟩
  info := ⟨"\x00\"\\", "😀", "ann", .protobuf, .fullTransitive, 18446744073709551615⟩
  ledger := ⟨[⟨"", 18446744073709551615, .text, "\x7f", 18446744073709551615, [], ⟨""⟩, lastLeap⟩]⟩
  artifact := some ⟨0, "null", ["null", ""], ⟨"x"⟩, early⟩
  storage := Labels.ofList [("b", ""), ("a", "1")]

/-- A schema with all that is rare is read back from either layout, and so is what is read from
the shortest form of a revision, white space and all. -/
theorem remarkable_is_read :
    InRange .aggregate remarkable ∧
    aggregate.codec.read (aggregate.codec.compact remarkable) = .ok remarkable ∧
    aggregate.codec.read (aggregate.codec.pretty remarkable) = .ok remarkable ∧
    revision.codec.read " [7,\n0]" = .ok ⟨7, 0⟩ ∧
    (revision.codec.read (revision.codec.compact ⟨7, 0⟩)).map revision.codec.compact =
      .ok (revision.codec.compact ⟨7, 0⟩) := by
  have range : InRange .aggregate remarkable := by
    simp [InRange, remarkable]
  have read : revision.codec.read " [7,\n0]" = .ok ⟨7, 0⟩ := by rfl
  obtain ⟨compact, pretty⟩ := (written_is_read .aggregate).1 remarkable range
  obtain ⟨-, ⟨-, normal⟩, -⟩ := (written_is_read .revision).2 _ _ read
  exact ⟨range, compact, pretty, read, normal⟩

end Format

end SchemaLedger.Wire
