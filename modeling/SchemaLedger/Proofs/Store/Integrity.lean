import SchemaLedger.Proofs.Files.Running
import SchemaLedger.Proofs.Ledger.Integrity
import SchemaLedger.Proofs.Store.Sound

/-!
A store on files that anyone may change.

* `FileServer`: whoever answers the calls to a file system. Nothing is known of its answers, so that
  files may change and calls may fail at any time.
* `FileStore.IsIntact`: the cache of a store holds intact ledgers only.
* `FileStore.isIntact_openFolder`, `FileStore.isIntact_answer`: a store that is opened is intact, and
  it stays so; it answers from intact ledgers, and writes none but intact ones.

Nothing gets from the files into the cache or to a caller but through `FileStore.decode`, which is
the only place where a ledger is tested.
-/

namespace SchemaLedger

/-- Whoever answers the calls to a file system: the states, and the answers. -/
structure FileServer where
  State : Type
  answer : State → (c : FileCall) → c.Answer × State

/-- A disk that answers for itself. -/
def Disk.server : FileServer where
  State := Disk
  answer := Disk.answer

namespace FileServer

variable {α : Type} {files : FileServer}

/-- What a program comes to; and what was asked and answered by then. -/
def serve (files : FileServer) : Program FileSystem α → List (Exchange FileSystem) → files.State →
    α × List (Exchange FileSystem) × files.State
  | .done a, past, t => (a, past, t)
  | .ask q next, past, t =>
    files.serve (next (files.answer t q).1) (past ++ [⟨q, (files.answer t q).1⟩])
      (files.answer t q).2

/-- A program that obeys a rule whatever it is answered obeys it on every server. -/
lemma serve_of_obeys {mayAsk : List (Exchange FileSystem) → FileCall → Prop}
    {mayEnd : List (Exchange FileSystem) → α → Prop} {p : Program FileSystem α}
    {past : List (Exchange FileSystem)} (h : p.Obeys mayAsk mayEnd past) (t : files.State) :
    mayEnd (files.serve p past t).2.1 (files.serve p past t).1 ∧
      ∀ x ∈ (files.serve p past t).2.1, x ∈ past ∨ ∃ before, mayAsk before x.question := by
  induction p generalizing past t with
  | done a => exact ⟨h, fun x hx => .inl hx⟩
  | ask q next ih =>
    obtain ⟨ends, asked⟩ := ih _ (h.2 _) (files.answer t q).2
    refine ⟨ends, fun x hx => ?_⟩
    rcases asked x hx with old | new
    · rcases List.mem_append.1 old with old | last
      · exact .inl old
      · rw [List.mem_singleton.1 last]
        exact .inr ⟨past, h.1⟩
    · exact .inr new

/-- A disk serves a program as it runs it. -/
lemma serve_disk (p : Program FileSystem α) (past : List (Exchange FileSystem)) (d : Disk) :
    (Disk.server.serve p past d).1 = (Disk.run p d).1 ∧
      (Disk.server.serve p past d).2.2 = (Disk.run p d).2 := by
  induction p generalizing past d with
  | done a => exact ⟨rfl, rfl⟩
  | ask q next ih => exact ih _ _ _

end FileServer

/-- A file that is to be written holds the text of an intact ledger. -/
def FileCall.IsIntact : FileCall → Prop
  | .write _ content =>
    ∃ a : Aggregate, a.ledger.IsIntact ∧ content = (Wire.aggregate.pretty a).toUTF8
  | _ => True

/-! ### Rules for programs -/

namespace Filing

variable {α β : Type}

/-- Whatever a program is answered, it writes intact ledgers only. -/
def WritesIntact (p : Filing α) : Prop :=
  ∀ past, p.run.Obeys (fun _ (q : FileCall) => q.IsIntact) (fun _ _ => True) past

lemma writesIntact_pure (a : α) : WritesIntact (pure a) :=
  fun _ => trivial

lemma writesIntact_throw (fault : FileFault) : WritesIntact (throw fault : Filing α) :=
  fun _ => trivial

lemma WritesIntact.bind {p : Filing α} {f : α → Filing β} (first : WritesIntact p)
    (second : ∀ a, WritesIntact (f a)) : WritesIntact (p >>= f) := by
  intro past
  refine (Program.obeys_bind _ _ _).2 (Program.Obeys.mono (fun past r _ => ?_) (first past))
  cases r with
  | ok a => exact second a past
  | error fault => trivial

/-- One call whose faults are the program's. -/
lemma writesIntact_query {q : FileCall} (asked : q.IsIntact) {f : q.Answer → Except FileFault α} :
    WritesIntact (ExceptT.mk ((Program.query (I := FileSystem) q).bind fun r => .done (f r))) :=
  fun _ => ⟨asked, fun _ => trivial⟩

lemma writesIntact_isFolder (path : Path) : WritesIntact (isFolder path) :=
  fun _ => ⟨trivial, fun _ => trivial⟩

/-- The call that makes one folder. -/
lemma writesIntact_tryFolder (path : Path) : WritesIntact
    (ExceptT.lift (Program.query (I := FileSystem) (.makeFolder path)) :
      Filing (Except FileFault Unit)) :=
  fun _ => ⟨trivial, fun _ => trivial⟩

/-- A fault is forgiven if there is a folder. -/
lemma writesIntact_forgive (path : Path) (fault : FileFault) :
    WritesIntact (do unless ← isFolder path do throw fault) := by
  refine (writesIntact_isFolder path).bind fun there => ?_
  cases there with
  | true => exact writesIntact_pure ()
  | false => exact writesIntact_throw fault

lemma writesIntact_makeFolder (path : Path) : WritesIntact (makeFolder path) := by
  refine (writesIntact_tryFolder path).bind fun r => ?_
  cases r with
  | ok u => exact writesIntact_pure ()
  | error fault => exact writesIntact_forgive path fault

lemma writesIntact_makeFolders (path : Path) : WritesIntact (makeFolders path) := by
  rw [makeFolders]
  generalize path.reverse = steps
  induction steps with
  | nil => exact writesIntact_pure ()
  | cons step up ih =>
    refine (writesIntact_tryFolder _).bind fun r => ?_
    cases r with
    | ok u => exact writesIntact_pure ()
    | error fault =>
      cases fault with
      | notFound => exact ih.bind fun _ => writesIntact_makeFolder _
      | permissionDenied | alreadyExists | notADirectory | isADirectory | directoryNotEmpty
      | invalidName | invalidData | other => exact writesIntact_forgive _ _

lemma writesIntact_readText (path : Path) : WritesIntact (readText path) := by
  have bytes : WritesIntact (read path) := fun _ => ⟨trivial, fun _ => trivial⟩
  refine bytes.bind fun content => ?_
  split
  · exact writesIntact_pure _
  · exact writesIntact_throw _

end Filing

namespace Storing

variable {α β : Type} {good : α → Prop} {good' : β → Prop}

/-- Whatever a program is answered, it writes intact ledgers only, its result is a good one, and it
misses no last record. -/
def Yields (good : α → Prop) (p : Storing α) : Prop :=
  ∀ past, p.run.Obeys (fun _ (q : FileCall) => q.IsIntact)
    (fun _ r => (∀ a, r = .ok a → good a) ∧ r ≠ .error .emptyLedger) past

lemma yields_pure {a : α} (h : good a) : Yields good (pure a) :=
  fun _ => ⟨fun _ same => by cases same; exact h, fun same => nomatch same⟩

lemma yields_throw {e : StoreError} (other : e ≠ .emptyLedger) : Yields good (throw e) :=
  fun _ => ⟨fun _ same => (nomatch same), fun same => other (Except.error.inj same)⟩

lemma Yields.bind {p : Storing α} {f : α → Storing β} (first : Yields good p)
    (second : ∀ a, good a → Yields good' (f a)) : Yields good' (p >>= f) := by
  intro past
  refine (Program.obeys_bind _ _ _).2 (Program.Obeys.mono (fun past r h => ?_) (first past))
  cases r with
  | ok a => exact second a (h.1 a rfl) past
  | error e => exact ⟨fun _ same => (nomatch same), fun same => h.2 (by cases same; rfl)⟩

/-- A fault of the file system is no missing record. -/
lemma yields_file {p : Filing α} (h : p.WritesIntact) : Yields (fun _ => True) (file p) := by
  intro past
  refine (Program.obeys_bind _ _ _).2 (Program.Obeys.mono (fun past r _ => ?_) (h past))
  cases r with
  | ok a => exact ⟨fun _ _ => trivial, fun same => nomatch same⟩
  | error fault => exact ⟨fun _ _ => trivial, fun same => nomatch same⟩

lemma yields_known {r : Except StoreError α} (ok : ∀ a, r = .ok a → good a)
    (error : r ≠ .error .emptyLedger) : Yields good (known r) :=
  fun _ => ⟨ok, error⟩

/-- One call that is no write. -/
lemma yields_query {q : FileCall} (asked : q.IsIntact) {f : q.Answer → Except FileFault α} :
    Yields (fun _ => True)
      (file (ExceptT.mk ((Program.query (I := FileSystem) q).bind fun r => .done (f r)))) :=
  yields_file (Filing.writesIntact_query asked)

end Storing

/-! ### Programs of the store -/

namespace FileStore

open Storing

variable {α β : Type} {good : α → Prop} {path : Path} {name : SchemaName} {a : Aggregate}
  {s : FileStore}

/-- **What is read is intact**: a ledger that is not is refused. -/
lemma isIntact_of_decode {text : String} (h : decode text = .ok a) : a.ledger.IsIntact := by
  rw [decode] at h
  cases read : (Wire.aggregate.read text).mapError StoreError.json with
  | error e =>
    rw [read] at h
    cases h
  | ok b =>
    rw [read] at h
    dsimp only [bind, Except.bind] at h
    split at h
    · cases h
    · split at h
      · cases h
      · rename_i contiguous authentic
        cases h
        exact Ledger.isIntact_iff.2 ⟨by simpa using contiguous, by simpa using authentic⟩

/-- No text is refused for want of a record. -/
lemma decode_ne_emptyLedger (text : String) : decode text ≠ .error .emptyLedger := by
  intro h
  rw [decode] at h
  cases read : (Wire.aggregate.read text) with
  | error e =>
    rw [read] at h
    cases h
  | ok b =>
    rw [read] at h
    dsimp only [bind, Except.bind, Except.mapError] at h
    split at h
    · cases h
    · split at h <;> cases h

/-- A path is refused, but not for want of a record. -/
lemma schemaPath_ne_emptyLedger (root : Path) (name : SchemaName) :
    schemaPath root name ≠ .error .emptyLedger ∧ subjectPath root name ≠ .error .emptyLedger := by
  constructor
  · rcases name.schemaPath_cases root with ⟨-, -, path⟩ | ⟨part, refused⟩
    · simp [path]
    · simp [refused]
  · rcases name.subjectPath_cases root with ⟨-, path⟩ | ⟨part, refused⟩
    · simp [path]
    · simp [refused]

lemma yields_schemaPath (root : Path) (name : SchemaName) :
    Yields (fun _ => True) (known (schemaPath root name)) :=
  yields_known (fun _ _ => trivial) (schemaPath_ne_emptyLedger root name).1

lemma yields_subjectPath (root : Path) (name : SchemaName) :
    Yields (fun _ => True) (known (subjectPath root name)) :=
  yields_known (fun _ _ => trivial) (schemaPath_ne_emptyLedger root name).2

lemma yields_load (path : Path) : Yields (fun a => a.ledger.IsIntact) (load path) :=
  (yields_file (Filing.writesIntact_readText path)).bind fun text _ =>
    yields_known (fun _ decoded => isIntact_of_decode decoded) (decode_ne_emptyLedger text)

/-- The file of a name holds an intact ledger. -/
lemma yields_readFile (s : FileStore) (name : SchemaName) :
    Yields (fun found => ∀ a, found = some a → a.ledger.IsIntact) (s.readFile name) := by
  refine (yields_schemaPath s.root name).bind fun path _ => ?_
  refine (yields_query (q := .isPresent path) trivial).bind fun there _ => ?_
  cases there with
  | true =>
    refine (yields_load path).bind fun a intact => yields_pure fun b same => ?_
    cases same
    exact intact
  | false => exact yields_pure fun b same => nomatch same

/-- Whatever is gathered is good. -/
lemma yields_gather {f : α → Storing (List β)} {good : β → Prop}
    (each : ∀ a, Yields (fun bs => ∀ b ∈ bs, good b) (f a)) (items : List α) :
    Yields (fun bs => ∀ b ∈ bs, good b) (gather f items) := by
  induction items with
  | nil => exact yields_pure fun b hb => nomatch hb
  | cons a items ih =>
    refine (each a).bind fun bs first => ih.bind fun bs' rest => yields_pure ?_
    exact List.forall_mem_append.2 ⟨first, rest⟩

lemma yields_listed (path : Path) : Yields (fun _ => True) (listed path) := by
  intro past
  refine (Program.obeys_bind _ _ _).2 ⟨trivial, fun r => ?_⟩
  cases r with
  | ok entries => exact ⟨fun _ _ => trivial, fun same => nomatch same⟩
  | error fault => exact ⟨fun _ _ => trivial, fun same => nomatch same⟩

/-- Everything that is loaded is intact. -/
lemma yields_loadAll (path : Path) :
    Yields (fun as => ∀ a ∈ as, a.ledger.IsIntact) (loadAll path) := by
  refine (yields_listed path).bind fun tenants _ => yields_gather (fun tenant => ?_) _
  refine (yields_listed _).bind fun subjects _ => yields_gather (fun subject => ?_) _
  refine (yields_listed _).bind fun entries _ => yields_gather (fun file => ?_) _
  refine (yields_load _).bind fun a intact => yields_pure ?_
  simpa using intact

/-! ### Intact stores -/

/-- The cache holds intact ledgers only. -/
def IsIntact (s : FileStore) : Prop :=
  ∀ e ∈ s.cache.entries, e.2.ledger.IsIntact

lemma IsIntact.remember (h : s.IsIntact) (intact : a.ledger.IsIntact) : (s.remember a).IsIntact := by
  intro e he
  rcases List.mem_append.1 he with old | new
  · exact h e (List.mem_of_mem_filter old)
  · rw [List.mem_singleton.1 new]
    exact intact

/-- **A store that is opened is intact**, whatever is found in its folder. -/
lemma isIntact_openFolder (root : Path) : Yields IsIntact (openFolder root) := by
  refine (yields_file (Filing.writesIntact_makeFolders _)).bind fun _ _ => ?_
  refine (yields_loadAll _).bind fun as intact => yields_pure ?_
  induction as using List.reverseRecOn with
  | nil => exact fun e he => nomatch he
  | append_singleton as a ih =>
    rw [List.foldl_concat]
    exact IsIntact.remember (s := { root := root, cache := _ })
      (ih fun b hb => intact b (List.mem_append_left _ hb)) (intact a (by simp))

/-- A schema in the cache is intact. -/
lemma IsIntact.get? (h : s.IsIntact) {key : String} (found : s.cache.get? key = some a) :
    a.ledger.IsIntact := by
  obtain ⟨before, after, entries, -⟩ := List.lookup_eq_some_iff.1 found
  exact h (key, a) (by rw [entries]; simp)

lemma yields_list (folder : Path) : Yields (fun _ => True) (file (Filing.list folder)) :=
  yields_file fun _ => ⟨trivial, fun _ => trivial⟩

lemma yields_firstFile (folder : Path) (skip : Option String) :
    Yields (fun _ => True) (firstFile folder skip) := by
  refine (yields_query (q := .isFolder folder) trivial).bind fun there _ => ?_
  cases there with
  | true => exact (yields_list folder).bind fun _ _ => yields_pure trivial
  | false => exact yields_pure trivial

/-- The schema that is bound to a subject is intact. -/
lemma yields_bound (h : s.IsIntact) (name : SchemaName) (cached : Bool) :
    Yields (fun found => ∀ a, found = some a → a.ledger.IsIntact) (s.bound name cached) := by
  cases cached with
  | true =>
    refine yields_pure fun a found => ?_
    obtain ⟨e, he, rfl⟩ := Option.map_eq_some_iff.1 found
    exact h e (List.mem_of_find?_eq_some he)
  | false =>
    refine (yields_subjectPath s.root name).bind fun folder _ => ?_
    refine (yields_firstFile folder none).bind fun file _ => ?_
    cases file with
    | some file =>
      refine (yields_load _).bind fun a intact => yields_pure fun b same => ?_
      cases same
      exact intact
    | none => exact yields_pure fun b same => nomatch same

/-- A record that is selected belongs to an intact ledger, which has a last one. -/
lemma yields_selectRecord (intact : a.ledger.IsIntact) (name : SchemaName) :
    Yields (fun found => ∀ r, found = some r → ∃ l : Ledger, l.IsIntact ∧ r ∈ l.records)
      (known (selectRecord a name)) := by
  obtain ⟨last, there⟩ := intact.exists_last
  have found : ∃ found, selectRecord a name = .ok found ∧ ∀ r, found = some r → r ∈ a.ledger.records := by
    rw [selectRecord]
    cases name.version with
    | some v => exact ⟨_, rfl, fun r here => Ledger.mem_of_record? here⟩
    | none =>
      rw [there]
      exact ⟨_, rfl, fun r here => by cases here; exact List.mem_of_getLast? there⟩
  obtain ⟨found, selected, member⟩ := found
  rw [selected]
  exact yields_known (fun x same r here => by cases same; exact ⟨a.ledger, intact, member r here⟩)
    fun same => nomatch same

/-! ### Calls -/

/-- An intact ledger is written. -/
lemma yields_writeFile (intact : a.ledger.IsIntact) (path : Path) :
    Yields (fun _ => True) (writeFile path a) := by
  refine (yields_file (Filing.writesIntact_makeFolders _)).bind fun _ _ => ?_
  refine (yields_file (p := Filing.writeText _ _) ?_).bind fun _ _ => ?_
  · exact fun _ => ⟨⟨a, intact, rfl⟩, fun _ => trivial⟩
  · exact yields_file fun _ => ⟨trivial, fun _ => trivial⟩

lemma yields_fetch (h : s.IsIntact) (name : SchemaName) (cached : Bool) :
    Yields (fun x => (∀ a, x.1 = some a → a.ledger.IsIntact) ∧ x.2.IsIntact)
      (s.fetch name cached) := by
  cases cached with
  | true => exact yields_pure ⟨fun a found => h.get? found, h⟩
  | false =>
    refine (yields_readFile s name).bind fun found intact => ?_
    cases found with
    | some a => exact yields_pure ⟨intact, h.remember (intact a rfl)⟩
    | none => exact yields_pure ⟨intact, h⟩

lemma yields_register (h : s.IsIntact) (intact : a.ledger.IsIntact) (name : SchemaName) :
    Yields IsIntact (s.register name a) := by
  refine (yields_schemaPath s.root name).bind fun path _ => ?_
  refine (yields_query (q := .isPresent path) trivial).bind fun there _ => ?_
  cases there with
  | true =>
    have never : Yields (fun _ : Unit => False) (throw (.alreadyStored name.fullName)) :=
      yields_throw (by simp)
    exact never.bind fun _ nothing => nothing.elim
  | false =>
    refine (yields_subjectPath s.root name).bind fun folder _ => ?_
    refine (yields_firstFile folder _).bind fun file _ => ?_
    cases file with
    | some file => exact yields_throw (by simp)
    | none => exact (yields_writeFile intact path).bind fun _ _ => yields_pure (h.remember intact)

/-- A write fails if what it finds has another revision. -/
lemma yields_checkRevision (key : String) (found : Option Aggregate) (expected : Revision) :
    Yields (fun _ => True) (known (checkRevision key found expected)) := by
  refine yields_known (fun _ _ => trivial) ?_
  cases found with
  | none => simp [checkRevision]
  | some b =>
    rw [checkRevision]
    split <;> simp

lemma yields_replace (h : s.IsIntact) (intact : a.ledger.IsIntact) (name : SchemaName)
    (expected : Revision) : Yields IsIntact (s.replace name a expected) := by
  refine (yields_readFile s name).bind fun found _ => ?_
  refine (yields_checkRevision _ found expected).bind fun _ _ => ?_
  refine (yields_schemaPath s.root name).bind fun path _ => ?_
  exact (yields_writeFile intact path).bind fun _ _ => yields_pure (h.remember intact)

lemma yields_remove (h : s.IsIntact) (name : SchemaName) (expected : Revision) :
    Yields IsIntact (s.remove name expected) := by
  have forgotten : IsIntact { s with cache := s.cache.erase name.fullName } :=
    fun e he => h e (List.mem_of_mem_filter he)
  have removed (p : Filing Unit) (hp : p.WritesIntact) : Yields (fun _ => True) (file p) :=
    yields_file hp
  refine (yields_readFile s name).bind fun found _ => ?_
  refine (yields_checkRevision _ found expected).bind fun _ _ => ?_
  refine (yields_schemaPath s.root name).bind fun path _ => ?_
  refine (removed (Filing.removeFile path) fun _ => ⟨trivial, fun _ => trivial⟩).bind fun _ _ => ?_
  refine (yields_subjectPath s.root name).bind fun folder _ => ?_
  refine (yields_list folder).bind fun entries _ => ?_
  split
  · exact (removed (Filing.removeFolder folder) fun _ => ⟨trivial, fun _ => trivial⟩).bind
      fun _ _ => yields_pure forgotten
  · exact yields_pure forgotten

/-- What a call comes to, if the store is kept when it fails. -/
lemma obeys_keep {p : Storing (α × FileStore)} (good : α × FileStore → Prop)
    {mayEnd : Except StoreError α × FileStore → Prop} (h : Yields good p)
    (ok : ∀ x, good x → mayEnd (.ok x.1, x.2)) (error : ∀ e, e ≠ .emptyLedger → mayEnd (.error e, s))
    (past : List (Exchange FileSystem)) :
    (s.keep p).Obeys (fun _ (q : FileCall) => q.IsIntact) (fun _ x => mayEnd x) past := by
  refine (Program.obeys_bind _ _ _).2 (Program.Obeys.mono (fun past r hr => ?_) (h past))
  cases r with
  | ok x => exact ok x (hr.1 x rfl)
  | error e => exact error e fun same => hr.2 (congrArg Except.error same)

/-- **An intact store stays intact**: it answers from intact ledgers, and writes none but intact ones,
whatever the file system answers. -/
lemma isIntact_answer (h : s.IsIntact) {c : StoreCall} (intact : c.IsIntact)
    (past : List (Exchange FileSystem)) :
    (s.answer c).Obeys (fun _ (q : FileCall) => q.IsIntact)
      (fun _ x => c.IsIntactAnswer x.1 ∧ x.2.IsIntact) past := by
  have failed (e : StoreError) (other : e ≠ .emptyLedger) :
      c.IsIntactAnswer (.error e) ∧ s.IsIntact :=
    ⟨StoreCall.isIntactAnswer_error.2 other, h⟩
  cases c with
  | fetch name cached =>
    exact obeys_keep _ (yields_fetch h name cached) (fun x hx => hx) failed past
  | fetchRecord name cached =>
    refine obeys_keep (fun x =>
      (∀ r, x.1 = some r → ∃ l : Ledger, l.IsIntact ∧ r ∈ l.records) ∧ x.2.IsIntact)
      ((yields_bound h name cached).bind fun found intact => ?_) (fun x hx => hx) failed past
    cases found with
    | some a =>
      exact (yields_selectRecord (intact a rfl) name).bind fun r selected => yields_pure ⟨selected, h⟩
    | none => exact yields_pure ⟨fun r same => (nomatch same), h⟩
  | fetchRecords name cached =>
    refine obeys_keep (fun x =>
      (∀ rs, x.1 = some rs → ∃ l : Ledger, l.IsIntact ∧ rs = l.records) ∧ x.2.IsIntact)
      ((yields_bound h name cached).bind fun found intact => yields_pure ⟨fun rs same => ?_, h⟩)
      (fun x hx => hx) failed past
    obtain ⟨a, rfl, rfl⟩ := Option.map_eq_some_iff.1 same
    exact ⟨a.ledger, intact a rfl, rfl⟩
  | register name a =>
    exact obeys_keep (fun x => x.2.IsIntact)
      ((yields_register h intact name).bind fun s' hs' => yields_pure hs')
      (fun x hx => ⟨trivial, hx⟩) failed past
  | replace name a expected =>
    exact obeys_keep (fun x => x.2.IsIntact)
      ((yields_replace h intact name expected).bind fun s' hs' => yields_pure hs')
      (fun x hx => ⟨trivial, hx⟩) failed past
  | remove name expected =>
    exact obeys_keep (fun x => x.2.IsIntact)
      ((yields_remove h name expected).bind fun s' hs' => yields_pure hs')
      (fun x hx => ⟨trivial, hx⟩) failed past

end FileStore

end SchemaLedger
