import SchemaLedger.Proofs.Lifecycle.Minutes
import SchemaLedger.Proofs.Lifecycle.Restart

/-!
The registry as one map from full names.

* `Entry`, `Catalogue`: what is live under each full name. There is no second map for the subjects,
  no numbering and no revision.
* `Catalogue.Settles`: what a task comes to, read off the catalogue, with one case for each task.
* `Tables.Holds`: the tables of a store in memory hold a catalogue. A write that succeeds changes
  both alike (`Tables.Holds.register`, `replace` and `remove`), and both know the same subjects
  (`Tables.Holds.bound?`).
* `Staff.ensures_program`: one job does as the catalogue says, by cases on its task.
* `Staff.minutes_accounted`: so do any jobs that are served one at a time, by induction on the jobs.
-/

namespace SchemaLedger

/-- What is live under a full name. -/
structure Entry where
  /-- The name under which it was registered. -/
  name : SchemaName
  audit : Audit
  /-- Id, owner, family and policy. -/
  info : Meta
  /-- The texts, oldest first, each with the name under which it came. -/
  texts : List (SchemaName × String)
  deriving DecidableEq, Repr

namespace Entry

/-- What a registration makes live. -/
def opened (name : SchemaName) (request : Registration) (id : UInt64) (now : Instant) : Entry where
  name := name.unversioned
  audit := .created request.owner request.description now
  info :=
    { tenant := name.tenant, schemaName := name.schema, owner := request.owner,
      family := request.family, policy := request.policy, uniqueId := id }
  texts := [(name, request.idl)]

/-- The entry with one more text. -/
def next (e : Entry) (name : SchemaName) (request : Change) (now : Instant) : Entry :=
  { e with
    audit := e.audit.updated request.owner now
    texts := e.texts ++ [(name, request.idl)] }

/-- The version that stands at a place, counted from 0. -/
def record (e : Entry) (place : Nat) (text : SchemaName × String) : RecordView where
  schema := text.1.recordName
  schemaId := e.info.uniqueId
  family := e.info.family
  version := place + 1
  idl := text.2
  subjects := [text.1.subjectRef]
  checksum := (Checksum.ofText text.2).text

/-- All versions, oldest first. -/
def records (e : Entry) : List RecordView :=
  e.texts.mapIdx e.record

/-- The entry as it is shown. -/
def view (e : Entry) : SchemaView where
  name := e.name
  audit := e.audit
  info := e.info
  records := e.records
  lastVersion := e.texts.length

/-- The record with the given version, or the latest. -/
def selected? (e : Entry) : Option UInt64 → Option RecordView
  | some v => e.records.find? fun r => r.version == v.toNat
  | none => e.records.getLast?

end Entry

/-- The entries by full name. -/
abbrev Catalogue := Dictionary Entry

namespace Catalogue

/-- The live entry that was registered for a subject. -/
def bound? (c : Catalogue) (subjectKey : String) : Option Entry :=
  c.findValue? fun e => e.name.subjectKey == subjectKey

/-- What a task comes to, and the catalogue after it. The talks are those that the job had with its
collaborators: they tell which id was drawn, what time it was, and what the gate said when it was
shown the entry and the entry with one more text. -/
def Settles (c : Catalogue) (talks : List Talk) :
    (task : Task) → Except Failure task.Result → Catalogue → Prop
  | .register name request, result, c' =>
    match c.get? name.fullName, c.bound? name.subjectKey with
    | some _, _ => result = .error (.alreadyExists name.fullName) ∧ c' = c
    | none, some _ => result = .error (.alreadyExists name.subjectKey) ∧ c' = c
    | none, none =>
      ∃ id now, (⟨.drawId, id⟩ : Talk) ∈ talks ∧ (⟨.readClock, now⟩ : Talk) ∈ talks ∧
        result = .ok (Receipt.mk id 1) ∧
        c' = c.insert name.fullName (.opened name request id now)
  | .update name request, result, c' =>
    match c.get? name.fullName with
    | none => result = .error (.notFound name.fullName) ∧ c' = c
    | some e =>
      ∃ now current candidate verdict, (⟨.readClock, now⟩ : Talk) ∈ talks ∧
        current.view = e.view ∧ candidate.view = (e.next name request now).view ∧
        (⟨.judge candidate current e.info.policy, verdict⟩ : Talk) ∈ talks ∧
        match (show Except Violation Unit from verdict) with
        | .error violation => result = .error (.incompatible violation) ∧ c' = c
        | .ok () =>
          result = .ok (Receipt.mk e.info.uniqueId (e.texts.length + 1)) ∧
            c' = c.insert name.fullName (e.next name request now)
  | .delete name, result, c' =>
    match c.get? name.fullName with
    | none => result = .error (.notFound name.fullName) ∧ c' = c
    | some e =>
      result = .ok e.view ∧ c' = c.erase name.fullName ∧ c'.bound? e.name.subjectKey = none
  | .get name, result, c' =>
    match c.get? name.fullName with
    | none => result = .error (.notFound name.fullName) ∧ c' = c
    | some e => result = .ok e.view ∧ c' = c
  | .getBySubject name, result, c' =>
    match (c.bound? name.subjectKey).bind (·.selected? name.version) with
    | none => result = .error (.notFound (name.subjectKey ++ name.versionSuffix)) ∧ c' = c
    | some record => result = .ok record ∧ c' = c
  | .listBySubject name, result, c' =>
    match c.bound? name.subjectKey with
    | none => result = .error (.notFound (name.subjectKey ++ name.versionSuffix)) ∧ c' = c
    | some e => result = .ok e.records ∧ c' = c
  | .compileArtifact _, result, c' => result = .error .uploadUnavailable ∧ c' = c

/-- A name with a blank part is refused; otherwise the task is settled. -/
def Answers (c : Catalogue) (talks : List Talk) (task : Task) (result : Except Failure task.Result)
    (c' : Catalogue) : Prop :=
  match task.name.check task.parts with
  | .error e => result = .error e ∧ c' = c
  | .ok () => c.Settles talks task result c'

/-- The minutes are what the catalogue says of one job after the other. -/
def Accounts : Catalogue → List Minutes → Prop
  | _, [] => True
  | c, m :: rest => ∃ c', c.Answers m.talks m.job.task m.result c' ∧ Accounts c' rest

end Catalogue

/-! ### Entries and what is stored for them -/

namespace Entry

variable {e : Entry} {a : Aggregate} {name : SchemaName} {request : Change} {now : Instant}

/-- A new text makes a new record behind the others. -/
lemma records_next (e : Entry) (name : SchemaName) (request : Change) (now : Instant) :
    (e.next name request now).records =
      e.records ++ [e.record e.texts.length (name, request.idl)] :=
  List.mapIdx_concat

/-- The record with a version stands at the place before. -/
lemma find?_version (e : Entry) (v : Nat) :
    (e.records.find? fun r => r.version == v) = if v = 0 then none else e.records[v - 1]? := by
  have version {i : Nat} (hi : i < e.records.length) : e.records[i].version = i + 1 := by
    simp [records, record]
  split
  · rename_i zero
    refine List.find?_eq_none.2 fun r hr => ?_
    obtain ⟨i, hi, rfl⟩ := List.getElem_of_mem hr
    simp [version hi, zero]
  · rename_i pos
    by_cases here : v - 1 < e.records.length
    · rw [List.getElem?_eq_getElem here]
      refine List.find?_eq_some_iff_getElem.2 ⟨?_, v - 1, here, rfl, fun j before => ?_⟩
      · simp [version here]
        omega
      · simp [version (before.trans here)]
        omega
    · rw [List.getElem?_eq_none (by omega)]
      refine List.find?_eq_none.2 fun r hr => ?_
      obtain ⟨i, hi, rfl⟩ := List.getElem_of_mem hr
      simp [version hi]
      omega

end Entry

namespace Aggregate

variable {e : Entry} {a : Aggregate} {name : SchemaName}

/-- What the views of a schema and of an entry have in common. -/
lemma view_eq_iff :
    a.view = e.view ↔ a.name = e.name ∧ a.audit = e.audit ∧ a.info = e.info ∧
      a.ledger.records.map Record.view = e.records ∧ a.lastVersion = e.texts.length ∧
      a.currentArtifact = none := by
  simp [view, Entry.view]

/-- What is registered is shown as what it makes live. -/
lemma view_registered (name : SchemaName) (request : Registration) (id : UInt64)
    (created started : Instant) :
    (registered name request id created started).view =
      (Entry.opened name request id created).view :=
  rfl

/-- A schema that is shown as an entry has a next version, and it is shown as the entry with one
more text. -/
lemma exists_next? (shown : a.view = e.view) (texts : e.texts ≠ []) (name : SchemaName)
    (request : Change) (modified started : Instant) :
    ∃ candidate, a.next? name request.owner request.idl modified started = some candidate ∧
      candidate.view = (e.next name request modified).view := by
  obtain ⟨named, audit, info, records, versions, -⟩ := view_eq_iff.1 shown
  -- the last record carries id, family and number of the entry
  obtain ⟨front, last, split⟩ := (List.eq_nil_or_concat e.texts).resolve_left texts
  rw [List.concat_eq_append] at split
  have listed : e.records = front.mapIdx e.record ++ [e.record front.length last] := by
    rw [Entry.records, split, List.mapIdx_concat]
  have final : a.ledger.last?.map Record.view = some (e.record front.length last) := by
    rw [Ledger.last?, ← List.getLast?_map, records, listed, List.getLast?_concat]
  obtain ⟨r, latest, same⟩ := Option.map_eq_some_iff.1 final
  have id : r.schemaId = e.info.uniqueId := congrArg RecordView.schemaId same
  have family : r.family = e.info.family := congrArg RecordView.family same
  have number : r.version = e.texts.length := by
    rw [split, List.length_append, List.length_singleton]
    exact congrArg RecordView.version same
  refine ⟨_, next?_eq_some_iff.2 ⟨r, latest, rfl⟩, view_eq_iff.2 ⟨named, ?_, info, ?_, ?_, rfl⟩⟩
  · rw [audit]
    rfl
  · rw [Entry.records_next, ← records, List.map_append, id, family, number]
    rfl
  · have grown : (e.next name request modified).texts.length = e.texts.length + 1 := by
      simp [Entry.next]
    rw [grown, ← versions]
    simp [lastVersion, Ledger.lastVersion]

/-- An entry with a text is shown by a schema with a record. -/
lemma records_ne_nil (shown : a.view = e.view) (texts : e.texts ≠ []) : a.ledger.records ≠ [] := by
  obtain ⟨-, -, -, -, versions, -⟩ := view_eq_iff.1 shown
  intro empty
  rw [lastVersion, Ledger.lastVersion, empty, List.length_nil, eq_comm] at versions
  exact texts (List.length_eq_zero_iff.1 versions)

/-- A read by subject selects the record that the entry tells. -/
lemma selectRecord_view (shown : a.view = e.view) (texts : e.texts ≠ []) (name : SchemaName) :
    ∃ record, selectRecord a name = .ok record ∧
      record.map Record.view = e.selected? name.version := by
  obtain ⟨-, -, -, records, -, -⟩ := view_eq_iff.1 shown
  unfold selectRecord Entry.selected?
  cases name.version with
  | some v =>
    refine ⟨_, rfl, ?_⟩
    dsimp only
    rw [Entry.find?_version, ← records, Ledger.record?]
    split
    · rfl
    · rw [List.getElem?_map]
  | none =>
    refine ⟨a.ledger.last?, ?_, ?_⟩
    · rw [Ledger.last?, List.getLast?_eq_some_getLast (records_ne_nil shown texts)]
    · rw [Ledger.last?, ← List.getLast?_map, records]

end Aggregate

/-! ### Tables that hold a catalogue -/

/-- The tables hold the catalogue: what is stored under a full name is shown as the entry, and a
subject leads to the full name whose entry was registered for it. -/
structure Tables.Holds (t : Tables) (c : Catalogue) : Prop where
  shown : ∀ full, (t.schemas.get? full).map Aggregate.view = (c.get? full).map Entry.view
  leads : ∀ key full, t.subjects.get? key = some full ↔
    ∃ e, c.get? full = some e ∧ e.name.subjectKey = key
  texts : ∀ full e, c.get? full = some e → e.texts ≠ []
  unique : t.subjects.HasUniqueKeys
  entries : c.HasUniqueKeys

namespace Tables.Holds

variable {t : Tables} {c : Catalogue} {full key : String} {name : SchemaName} {a : Aggregate}
  {e e' : Entry}

lemma empty : Tables.Holds {} .empty where
  shown _ := rfl
  leads _ _ := ⟨fun h => (nomatch h), fun ⟨_, h, _⟩ => nomatch h⟩
  texts _ _ h := nomatch h
  unique := Dictionary.hasUniqueKeys_empty
  entries := Dictionary.hasUniqueKeys_empty

/-- Nothing is stored where nothing is live. -/
lemma get?_eq_none_iff (h : t.Holds c) : t.schemas.get? full = none ↔ c.get? full = none := by
  rw [← Option.map_eq_none_iff, h.shown, Option.map_eq_none_iff]

/-- What is stored is shown as a live entry. -/
lemma exists_entry (h : t.Holds c) (stored : t.schemas.get? full = some a) :
    ∃ e, c.get? full = some e ∧ a.view = e.view := by
  have shown := h.shown full
  rw [stored, Option.map_some, eq_comm] at shown
  obtain ⟨e, live, same⟩ := Option.map_eq_some_iff.1 shown
  exact ⟨e, live, same.symm⟩

/-- What is live is stored. -/
lemma exists_stored (h : t.Holds c) (live : c.get? full = some e) :
    ∃ a, t.schemas.get? full = some a ∧ a.view = e.view := by
  have shown := h.shown full
  rw [live, Option.map_some] at shown
  exact Option.map_eq_some_iff.1 shown

/-- A subject leads nowhere if no entry was registered for it. -/
lemma subjects_eq_none_iff (h : t.Holds c) : t.subjects.get? key = none ↔ c.bound? key = none := by
  constructor
  · intro free
    rw [Option.eq_none_iff_forall_ne_some]
    intro e bound
    obtain ⟨full, live, same⟩ := Dictionary.exists_of_findValue? h.entries bound
    have leads := (h.leads key full).2 ⟨e, live, by simpa using same⟩
    rw [free] at leads
    cases leads
  · intro free
    rw [Option.eq_none_iff_forall_ne_some]
    intro full leads
    obtain ⟨e, live, same⟩ := (h.leads key full).1 leads
    have other := Dictionary.not_of_findValue?_eq_none free live
    simp [same] at other

/-- A subject leads to the schema that is shown as the entry registered for it. -/
lemma exists_bound (h : t.Holds c) (bound : c.bound? key = some e) :
    ∃ a, t.bound? key = some a ∧ a.view = e.view ∧ e.texts ≠ [] := by
  obtain ⟨full, live, same⟩ := Dictionary.exists_of_findValue? h.entries bound
  have leads := (h.leads key full).2 ⟨e, live, by simpa using same⟩
  obtain ⟨a, stored, shown⟩ := h.exists_stored live
  exact ⟨a, by rw [Tables.bound?, leads, Option.bind_some, stored], shown, h.texts full e live⟩

/-- A subject for which no entry was registered leads to no schema. -/
lemma bound?_eq_none (h : t.Holds c) (free : c.bound? key = none) : t.bound? key = none := by
  rw [Tables.bound?, h.subjects_eq_none_iff.2 free, Option.bind_none]

/-- A read by subject finds the record that the entry tells. -/
lemma answer_fetchRecord (h : t.Holds c) (name : SchemaName) (cached : Bool) :
    ∃ found, t.answer (.fetchRecord name cached) = (.ok found, t) ∧
      found.map Record.view = (c.bound? name.subjectKey).bind (·.selected? name.version) := by
  rw [Tables.answer]
  cases bound : c.bound? name.subjectKey with
  | none =>
    rw [h.bound?_eq_none bound]
    exact ⟨none, rfl, rfl⟩
  | some e =>
    obtain ⟨a, leads, shown, texts⟩ := h.exists_bound bound
    obtain ⟨found, selected, same⟩ := Aggregate.selectRecord_view shown texts name
    rw [leads]
    exact ⟨found, Prod.ext selected rfl, same⟩

/-- A read of a whole subject finds the records of the entry. -/
lemma answer_fetchRecords (h : t.Holds c) (name : SchemaName) (cached : Bool) :
    ∃ found, t.answer (.fetchRecords name cached) = (.ok found, t) ∧
      found.map (·.map Record.view) = (c.bound? name.subjectKey).map Entry.records ∧
      found ≠ some [] := by
  rw [Tables.answer]
  cases bound : c.bound? name.subjectKey with
  | none =>
    rw [h.bound?_eq_none bound]
    exact ⟨none, rfl, rfl, (Option.some_ne_none _).symm⟩
  | some e =>
    obtain ⟨a, leads, shown, texts⟩ := h.exists_bound bound
    rw [leads]
    obtain ⟨-, -, -, records, -, -⟩ := Aggregate.view_eq_iff.1 shown
    exact ⟨_, rfl, congrArg some records, fun empty =>
      Aggregate.records_ne_nil shown texts (Option.some.inj empty)⟩

/-- An entry that replaces or joins the others. -/
lemma map_get?_insert (h : t.Holds c) (shown : a.view = e.view) (full key : String) :
    ((t.schemas.insert full a).get? key).map Aggregate.view =
      ((c.insert full e).get? key).map Entry.view := by
  rw [Dictionary.get?_insert, Dictionary.get?_insert]
  split
  · rw [Option.map_some, shown, Option.map_some]
  · exact h.shown key

/-- A registration adds an entry under a full name and for a subject that are free. -/
lemma register (h : t.Holds c) (free : c.get? name.fullName = none)
    (unbound : c.bound? name.subjectKey = none) (shown : a.view = e.view)
    (own : e.name.subjectKey = name.subjectKey) (texts : e.texts ≠ []) :
    Tables.Holds { schemas := t.schemas.insert name.fullName a
                   subjects := t.subjects.insert name.subjectKey name.fullName }
      (c.insert name.fullName e) where
  shown := h.map_get?_insert shown name.fullName
  leads key full := by
    have other : t.subjects.get? key = some full → key ≠ name.subjectKey := by
      rintro leads rfl
      rw [h.subjects_eq_none_iff.2 unbound] at leads
      cases leads
    rw [Dictionary.get?_insert, Dictionary.get?_insert]
    by_cases same : full = name.fullName
    · subst same
      rw [if_pos rfl]
      constructor
      · intro leads
        split at leads
        · rename_i same
          exact ⟨e, rfl, by rw [own, same]⟩
        · obtain ⟨e', live, -⟩ := (h.leads key _).1 leads
          rw [free] at live
          cases live
      · rintro ⟨e', live, same⟩
        cases live
        rw [if_pos (by rw [← same, own])]
    · rw [if_neg same, ← h.leads]
      constructor
      · intro leads
        split at leads
        · cases leads
          exact absurd rfl same
        · exact leads
      · intro leads
        rw [if_neg (other leads), leads]
  texts full e' live := by
    rw [Dictionary.get?_insert] at live
    split at live
    · cases live
      exact texts
    · exact h.texts full e' live
  unique := h.unique.insert ..
  entries := h.entries.insert ..

/-- An update puts another entry, registered under the same name, in the place of one. -/
lemma replace (h : t.Holds c) (live : c.get? full = some e) (shown : a.view = e'.view)
    (named : e'.name = e.name) (texts : e'.texts ≠ []) :
    Tables.Holds { t with schemas := t.schemas.insert full a } (c.insert full e') where
  shown := h.map_get?_insert shown full
  leads key other := by
    rw [h.leads, Dictionary.get?_insert]
    split
    · rename_i same
      subst same
      simp [live, named]
    · rfl
  texts other e'' live' := by
    rw [Dictionary.get?_insert] at live'
    split at live'
    · cases live'
      exact texts
    · exact h.texts other e'' live'
  unique := h.unique
  entries := h.entries.insert ..

/-- A removal takes an entry out, and its subject with it. -/
lemma remove (h : t.Holds c) :
    Tables.Holds { schemas := t.schemas.erase full
                   subjects := t.subjects.filterValues fun schema => schema != full }
      (c.erase full) where
  shown key := by
    rw [Dictionary.get?_erase, Dictionary.get?_erase]
    split
    · rfl
    · exact h.shown key
  leads key other := by
    rw [Dictionary.get?_filterValues h.unique, Option.filter_eq_some_iff, h.leads,
      Dictionary.get?_erase, bne_iff_ne]
    split
    · rename_i same
      simp [same]
    · rename_i same
      simp [same]
  texts other e live := by
    rw [Dictionary.get?_erase] at live
    split at live
    · cases live
    · exact h.texts other e live
  unique := h.unique.filter _
  entries := h.entries.erase full

/-- The subject of an entry is free once the entry is taken out. -/
lemma bound?_erase (h : t.Holds c) (live : c.get? full = some e) :
    Catalogue.bound? (c.erase full) e.name.subjectKey = none := by
  have leads := (h.leads _ full).2 ⟨e, live, rfl⟩
  have removed : Tables.Holds _ (c.erase full) := h.remove
  refine removed.subjects_eq_none_iff.1 ?_
  rw [Dictionary.get?_filterValues h.unique, leads]
  simp [Option.filter]

end Tables.Holds

/-! ### One job -/

/-- A task has been settled, and the store holds the catalogue after it. -/
def Catalogue.Leaves {staff : Staff} (c : Catalogue) (task : Task)
    (result : Except Failure task.Result) (talks : List Talk) (y : MemoryStore × staff.State) :
    Prop :=
  ∃ c' tables, c.Settles talks task result c' ∧ y.1.Works tables ∧ tables.Holds c'

namespace Staff

open Operating

variable {staff : Staff} {s : MemoryStore} {t : staff.State} {tables : Tables} {c : Catalogue}
  {r : Registry} {actor : String} {name : SchemaName}

section

variable (permissive : staff.IsPermissive) (works : s.Works tables) (holds : tables.Holds c)
include permissive works holds

lemma ensures_register (valid : name.check SchemaName.schemaParts = .ok ())
    (off : r.settings.uploadEnabled = false) (request : Registration) :
    staff.Ensures (c.Leaves (.register name request)) (r.register actor name request) []
      (s, t) := by
  refine ensures_enter_bind permissive valid fun past t => ?_
  refine ensures_consult_bind works rfl (fun s found works same => ?_) fun _ _ _ h => nomatch h
  obtain rfl : tables.schemas.get? name.fullName = found := Except.ok.inj same
  cases stored : tables.schemas.get? name.fullName with
  | some a =>
    obtain ⟨e, live, -⟩ := holds.exists_entry stored
    refine ensures_throw ⟨c, tables, ?_, works, holds⟩
    simp [Catalogue.Settles, live]
  | none =>
    have free := holds.get?_eq_none_iff.1 stored
    refine ensures_ask_staff_bind (by simp) fun id t => ?_
    refine ensures_ask_staff_bind (by simp) fun created t => ?_
    refine ensures_ask_staff_bind (by simp) fun started t => ?_
    refine ensures_attach_bind off ?_
    cases bound : c.bound? name.subjectKey with
    | some e =>
      obtain ⟨full, leads⟩ := Option.ne_none_iff_exists'.1 fun free =>
        Option.ne_none_iff_exists'.2 ⟨e, bound⟩ (holds.subjects_eq_none_iff.1 free)
      refine ensures_consult_bind works (Tables.answer_register_of_bound stored leads _)
        (fun _ _ _ h => nomatch h) fun s e works same => ?_
      cases same
      refine ⟨c, tables, ?_, works, holds⟩
      simp [Catalogue.Settles, free, bound, Failure.ofStore]
    | none =>
      have unbound := holds.subjects_eq_none_iff.2 bound
      refine ensures_consult_bind works (Tables.answer_register stored unbound _)
        (fun s _ works _ => ?_) fun _ _ _ h => nomatch h
      refine ensures_pure ⟨_, _, ?_, works,
        holds.register free bound (Aggregate.view_registered name request id created started) rfl
          (List.cons_ne_nil _ _)⟩
      simp only [Catalogue.Settles, free, bound]
      exact ⟨id, created, by simp, by simp, rfl, rfl⟩

lemma ensures_update (valid : name.check SchemaName.schemaParts = .ok ())
    (off : r.settings.uploadEnabled = false) (request : Change) :
    staff.Ensures (c.Leaves (.update name request)) (r.update actor name request) [] (s, t) := by
  refine ensures_enter_bind permissive valid fun past t => ?_
  refine ensures_load_bind works (fun s current talk works stored => ?_)
    fun s talk works stored => ?_
  · obtain ⟨e, live, shown⟩ := holds.exists_entry stored
    obtain ⟨-, -, info, -, -, -⟩ := Aggregate.view_eq_iff.1 shown
    refine ensures_ask_staff_bind (by simp) fun modified t => ?_
    refine ensures_ask_staff_bind (by simp) fun started t => ?_
    obtain ⟨candidate, next, shown'⟩ := Aggregate.exists_next? shown (holds.texts _ e live) name
      request modified started
    obtain ⟨-, -, info', -, versions, -⟩ := Aggregate.view_eq_iff.1 shown'
    -- there is a candidate, and it is judged under the policy of the entry
    rw [next, info]
    refine ensures_lift_bind (fun _ same => ?_) fun _ h => nomatch h
    cases same
    refine ensures_ask_staff_bind (by simp) fun verdict t => ?_
    refine ensures_lift_bind (fun _ accepted => ?_) fun violation rejected => ?_
    · refine ensures_attach_bind off ?_
      refine ensures_consult_bind works (Tables.answer_replace stored candidate)
        (fun s _ works _ => ?_) fun _ _ _ h => nomatch h
      refine ensures_pure ⟨_, _, ?_, works, holds.replace live shown' rfl (by simp [Entry.next])⟩
      simp only [Catalogue.Settles, live]
      refine ⟨modified, current, candidate, verdict, by simp, shown, shown', by simp, ?_⟩
      rw [accepted, info', versions]
      exact ⟨by simp [Entry.next], rfl⟩
    · refine ⟨c, tables, ?_, works, holds⟩
      simp only [Catalogue.Settles, live]
      refine ⟨modified, current, candidate, verdict, by simp, shown, shown', by simp, ?_⟩
      rw [rejected]
      exact ⟨rfl, trivial⟩
  · refine ⟨c, tables, ?_, works, holds⟩
    simp [Catalogue.Settles, holds.get?_eq_none_iff.1 stored]

lemma ensures_delete (valid : name.check SchemaName.schemaParts = .ok ()) :
    staff.Ensures (c.Leaves (.delete name)) (r.delete actor name) [] (s, t) := by
  refine ensures_enter_bind permissive valid fun past t => ?_
  refine ensures_load_bind works (fun s current talk works stored => ?_)
    fun s talk works stored => ?_
  · obtain ⟨e, live, shown⟩ := holds.exists_entry stored
    refine ensures_consult_bind works (Tables.answer_remove stored) (fun s _ works _ => ?_)
      fun _ _ _ h => nomatch h
    refine ensures_pure ⟨_, _, ?_, works, holds.remove⟩
    simp only [Catalogue.Settles, live]
    exact ⟨by rw [shown], trivial, holds.bound?_erase live⟩
  · refine ⟨c, tables, ?_, works, holds⟩
    simp [Catalogue.Settles, holds.get?_eq_none_iff.1 stored]

lemma ensures_get (valid : name.check SchemaName.schemaParts = .ok ()) :
    staff.Ensures (c.Leaves (.get name)) (r.get actor name) [] (s, t) := by
  refine ensures_enter_bind permissive valid fun past t => ?_
  refine ensures_load_bind works (fun s current talk works stored => ?_)
    fun s talk works stored => ?_
  · obtain ⟨e, live, shown⟩ := holds.exists_entry stored
    refine ensures_pure ⟨c, tables, ?_, works, holds⟩
    simp [Catalogue.Settles, live, shown]
  · refine ⟨c, tables, ?_, works, holds⟩
    simp [Catalogue.Settles, holds.get?_eq_none_iff.1 stored]

lemma ensures_getBySubject (valid : name.check SchemaName.subjectParts = .ok ()) :
    staff.Ensures (c.Leaves (.getBySubject name)) (r.getBySubject actor name) [] (s, t) := by
  refine ensures_enter_bind permissive valid fun past t => ?_
  obtain ⟨found, answered, same⟩ := holds.answer_fetchRecord name r.settings.cacheEnabled
  refine ensures_consult_bind works answered (fun s _ works here => ?_) fun _ _ _ h => nomatch h
  cases here
  cases found with
  | none =>
    refine ensures_throw ⟨c, tables, ?_, works, holds⟩
    simp [Catalogue.Settles, ← same, Registry.subjectNotFound]
  | some record =>
    refine ensures_pure ⟨c, tables, ?_, works, holds⟩
    simp [Catalogue.Settles, ← same]

lemma ensures_listBySubject (valid : name.check SchemaName.subjectParts = .ok ()) :
    staff.Ensures (c.Leaves (.listBySubject name)) (r.listBySubject actor name) [] (s, t) := by
  refine ensures_enter_bind permissive valid fun past t => ?_
  obtain ⟨found, answered, same, filled⟩ := holds.answer_fetchRecords name r.settings.cacheEnabled
  refine ensures_consult_bind works answered (fun s _ works here => ?_) fun _ _ _ h => nomatch h
  cases here
  match found with
  | none =>
    refine ensures_throw ⟨c, tables, ?_, works, holds⟩
    simp [Catalogue.Settles, Option.map_eq_none_iff.1 same.symm, Registry.subjectNotFound]
  | some [] => exact absurd rfl filled
  | some (record :: records) =>
    obtain ⟨e, bound, all⟩ := Option.map_eq_some_iff.1 same.symm
    refine ensures_pure ⟨c, tables, ?_, works, holds⟩
    simp [Catalogue.Settles, bound, all]

lemma ensures_compileArtifact (valid : name.check SchemaName.schemaParts = .ok ())
    (off : r.settings.uploadEnabled = false) :
    staff.Ensures (c.Leaves (.compileArtifact name)) (r.compileArtifact actor name) [] (s, t) := by
  refine ensures_enter_bind permissive valid fun past t => ?_
  rw [off]
  exact ensures_throw ⟨c, tables, ⟨rfl, rfl⟩, works, holds⟩

end

/-- A name that lacks a part which the task needs is refused at once. -/
lemma ensures_of_refused {j : Job} {e : Failure}
    (refused : j.task.name.check j.task.parts = .error e)
    {post : Except Failure j.task.Result → List Talk → MemoryStore × staff.State → Prop}
    {past : List Talk} {y : MemoryStore × staff.State} (h : post (.error e) past y) :
    staff.Ensures post j.program past y := by
  obtain ⟨r, actor, task⟩ := j
  cases task
  all_goals
    refine ensures_lift_bind (fun _ valid => ?_) fun e' refused' => ?_
    · cases refused.symm.trans valid
    · cases refused.symm.trans refused'
      exact h

/-- **A job does as the catalogue says**, and the store holds the catalogue after it. -/
theorem ensures_program {j : Job} (permissive : staff.IsPermissive) (works : s.Works tables)
    (holds : tables.Holds c) (off : j.registry.settings.uploadEnabled = false) :
    staff.Ensures
      (fun result talks y => ∃ c' tables, c.Answers talks j.task result c' ∧ y.1.Works tables ∧
        tables.Holds c') j.program [] (s, t) := by
  unfold Catalogue.Answers
  cases valid : j.task.name.check j.task.parts with
  | error e => exact ensures_of_refused valid ⟨c, tables, ⟨rfl, rfl⟩, works, holds⟩
  | ok u =>
    obtain ⟨r, actor, task⟩ := j
    cases task with
    | register name request => exact ensures_register permissive works holds valid off request
    | update name request => exact ensures_update permissive works holds valid off request
    | delete name => exact ensures_delete permissive works holds valid
    | get name => exact ensures_get permissive works holds valid
    | getBySubject name => exact ensures_getBySubject permissive works holds valid
    | listBySubject name => exact ensures_listBySubject permissive works holds valid
    | compileArtifact name => exact ensures_compileArtifact permissive works holds valid off

/-! ### Jobs one after the other -/

/-- The minutes are those of a catalogue that the store holds at the start. -/
lemma accounts_minutes (permissive : staff.IsPermissive) {jobs : List Job}
    (off : ∀ j ∈ jobs, j.registry.settings.uploadEnabled = false) (works : s.Works tables)
    (holds : tables.Holds c) : c.Accounts (staff.minutes jobs (s, t)) := by
  induction jobs generalizing s t tables c with
  | nil => trivial
  | cons j jobs ih =>
    have first : j.registry.settings.uploadEnabled = false := off j (List.mem_cons_self ..)
    obtain ⟨c', tables', answers, works', holds'⟩ :=
      ensures_program (t := t) permissive works holds first
    exact ⟨c', answers, ih (fun j hj => off j (List.mem_cons_of_mem _ hj)) works' holds'⟩

/-- **The registry is a map from full names.** Jobs are served one at a time by an empty store in
memory; everything is permitted and nothing is uploaded, and the ids, the times and the verdicts of
the gate are arbitrary. Then each job answers what the catalogue says, where the catalogue starts
empty and each job finds it as the jobs before have left it. -/
theorem minutes_accounted (staff : Staff) (permissive : staff.IsPermissive) (jobs : List Job)
    (off : ∀ j ∈ jobs, j.registry.settings.uploadEnabled = false) (t : staff.State) :
    Catalogue.Accounts .empty (staff.minutes jobs ({}, t)) :=
  accounts_minutes permissive off ⟨rfl, rfl⟩ .empty

end Staff

namespace Rehearsal

/-- A schema comes, grows and goes, and another one takes its subject. -/
def errands : List Job :=
  [.register orders registration, .register { orders with schema := "Invoice" } registration,
    .update orders change, .getBySubject { orders with version := some 1 }, .delete orders,
    .register { orders with schema := "Invoice" } registration, .get orders,
    .listBySubject orders].map fun task => ⟨{}, "ann", task⟩

end Rehearsal

/-- The errands of the rehearsal do as the catalogue says. -/
theorem Staff.minutes_of_errands :
    Rehearsal.staff.IsPermissive ∧
      (∀ j ∈ Rehearsal.errands, j.registry.settings.uploadEnabled = false) ∧
      Catalogue.Accounts .empty (Rehearsal.staff.minutes Rehearsal.errands ({}, (1 : UInt64))) :=
  ⟨fun _ _ _ _ => rfl, by decide,
    Staff.minutes_accounted Rehearsal.staff (fun _ _ _ _ => rfl) Rehearsal.errands (by decide)
      (1 : UInt64)⟩

end SchemaLedger
