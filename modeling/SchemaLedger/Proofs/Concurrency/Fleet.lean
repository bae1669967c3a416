import SchemaLedger.Proofs.Concurrency.Contributions
import SchemaLedger.Proofs.Lifecycle.Stage
import SchemaLedger.Proofs.Store.Agreement
import SchemaLedger.Proofs.Store.Stale

/-!
Jobs that run side by side on several stores in one folder.

* `Fleet`: stores that were opened in one folder.  Each has a cache of its own, and sees nothing of
  what the others do but the files.  Calls are answered one after the other, each by the store whose
  turn it is.
* `Fleet.Shares`: the files stand for a shelf, and the caches hold what is known, however old.
* `World.Steady`: what is on the shelf is the end of its lineage, and all that is in a cache is a
  member of a lineage.  A move keeps this up (`World.Steady.step`).
* `World.history_kept_after`: no history is lost, in whatever order the questions of the jobs are
  answered and whichever store answers them (`World.HistoryKept`).
* `Rehearsal.updated_crossing`: an update that starts from a cache that is out of date, and is
  answered with its receipt.

A job can start from a schema that has been replaced or removed by another store.  Its write is
compared with the file, and not with the cache: if it succeeds, then what the job has read is the
schema in the file but for the artifact (`Chronicle.precedes_of_mayWrite`).
-/

namespace SchemaLedger

open FileStore

/-- Stores that were opened in one folder. -/
structure Fleet where
  root : Path
  disk : Disk
  stores : Nat → FileStore
  /-- The store that answers the next call. -/
  turn : Nat

namespace Fleet

/-- The answer of the store whose turn it is, and the stores after it. -/
def answer (F : Fleet) (c : StoreCall) : c.Answer × Fleet :=
  let ((x, f), d) := Disk.run ((F.stores F.turn).answer c) F.disk
  (x, { F with disk := d, stores := Function.update F.stores F.turn f })

/-- What the store does whose turn it is. -/
lemma answer_eq {F : Fleet} {c : StoreCall} {x : c.Answer} {f : FileStore} {d : Disk}
    (answered : Disk.run ((F.stores F.turn).answer c) F.disk = ((x, f), d)) :
    F.answer c = (x, { F with disk := d, stores := Function.update F.stores F.turn f }) := by
  rw [answer, answered]

/-- A read that is served from the cache. -/
lemma answer_cached (F : Fleet) (name : SchemaName) :
    F.answer (.fetch name true) = (.ok ((F.stores F.turn).cache.get? name.fullName), F) := by
  have same : Function.update F.stores F.turn (F.stores F.turn) = F.stores :=
    Function.update_eq_self ..
  rw [answer_eq rfl]
  exact congrArg (fun stores => (_, { F with stores := stores })) same

/-- A store is closed, and opened again with what is in the folder now. -/
def reopen (F : Fleet) (i : Nat) : Fleet :=
  match Disk.run (openFolder F.root).run F.disk with
  | (.ok f, d) => { F with disk := d, stores := Function.update F.stores i f }
  | (.error _, d) => { F with disk := d }

/-- What may happen to the stores besides calls. -/
inductive Trouble where
  | turn (i : Nat)
  | reopen (i : Nat)

/-- The stores behind the calls of jobs. -/
def backend : Backend where
  State := Fleet
  answer := answer
  Trouble := Trouble
  trouble F
    | .turn i => { F with turn := i }
    | .reopen i => F.reopen i

/-- Stores that were opened in an empty folder. -/
def start (site : Site) : Fleet where
  root := site.root
  disk := (Disk.run (openFolder site.root).run site.disk).2
  stores := fun _ =>
    (Disk.run (openFolder site.root).run site.disk).1.toOption.getD { root := site.root }
  turn := 0

/-- The schema in the file of a name, or why it is refused. -/
def held (F : Fleet) (name : SchemaName) : Except StoreError (Option Aggregate) :=
  (Disk.run (readFile { root := F.root } name).run F.disk).1

/-! ### Caches that are out of date -/

/-- The files stand for a shelf, and the caches hold nothing but known schemas. -/
structure Shares (site : Site) (s : Shelf) (known : Aggregate → Prop) (F : Fleet) : Prop where
  root : F.root = site.root
  keeps : site.Keeps s F.disk
  tidy : s.IsTidy site.root
  recalls : ∀ i, (F.stores i).Recalls site.root known

namespace Shares

variable {site : Site} {s : Shelf} {known known' : Aggregate → Prop} {F : Fleet} {c : StoreCall}
  {name : SchemaName} {a : Aggregate}

/-- A store is replaced by one that holds nothing but known schemas. -/
lemma replace (h : Shares site s known F) {s' : Shelf} {f : FileStore} {d : Disk} (i : Nat)
    (keeps : site.Keeps s' d) (tidy : s'.IsTidy site.root) (still : ∀ a, known a → known' a)
    (recalls : f.Recalls site.root known') :
    Shares site s' known' { F with disk := d, stores := Function.update F.stores i f } where
  root := h.root
  keeps := keeps
  tidy := tidy
  recalls j := by
    dsimp only
    rw [Function.update_apply]
    split
    · exact recalls
    · exact (h.recalls j).mono still

lemma mono (h : Shares site s known F) (still : ∀ a, known a → known' a) :
    Shares site s known' F :=
  ⟨h.root, h.keeps, h.tidy, fun i => (h.recalls i).mono still⟩

/-- Stores in an empty folder. -/
lemma start (site : Site) : Shares site Shelf.empty known (start site) := by
  obtain ⟨f, d, opened, represents⟩ := represents_open site
  rw [Fleet.start, opened]
  exact ⟨rfl, represents.disk, Shelf.isTidy_empty, fun _ =>
    represents.recalls.mono fun _ bound => nomatch bound⟩

/-- **Whichever store answers, the files change as the shelf does**, and the answer is that of the
shelf, unless it comes from a cache. -/
lemma answer (h : Shares site s known F) (proper : c.IsProper) :
    Shares site (s.reply site.root c).2
        (fun a => known a ∨ (s.reply site.root c).2 a.name.subjectRef = some a) (F.answer c).2 ∧
      (c.isCached = false → (F.answer c).1 = (s.reply site.root c).1) := by
  obtain ⟨x, f, d, answered, keeps, recalls, honest⟩ :=
    (h.recalls F.turn).answer h.keeps h.tidy proper
  rw [answer_eq answered]
  exact ⟨h.replace F.turn keeps (h.tidy.reply proper) (fun _ => .inl) recalls, honest⟩

/-- The shelf is changed by writes that succeed, and by nothing else. -/
lemma reply_eq_self (h : Shares site s known F) (proper : c.IsProper)
    (idle : c.isWrite = false ∨ ∃ e, (F.answer c).1 = .error e) :
    (s.reply site.root c).2 = s := by
  obtain ⟨-, honest⟩ := h.answer proper
  cases writes : c.isWrite with
  | false => exact s.reply_read site.root writes
  | true =>
    obtain ⟨e, failed⟩ := idle.resolve_left (by simp [writes])
    exact Shelf.reply_error ((honest (StoreCall.isCached_write writes)).symm.trans failed)

/-- A store that is opened again holds what is on the shelf. -/
lemma reopen (h : Shares site s known F) (i : Nat) :
    Shares site s (fun a => known a ∨ s a.name.subjectRef = some a) (F.reopen i) := by
  obtain ⟨f, opened, represents⟩ := FileStore.reopen h.keeps h.tidy
  have found : Disk.run (openFolder F.root).run F.disk = (.ok f, F.disk) := by
    rw [h.root]
    exact opened
  rw [Fleet.reopen, found]
  exact h.replace i h.keeps h.tidy (fun _ knows => .inl knows)
    (represents.recalls.mono fun _ bound => .inr bound)

/-- What is read is known or is on the shelf, and it has the name under which it is looked for. -/
lemma fetched (h : Shares site s known F) (storable : ∀ a, known a → a.IsStorable site.root)
    {cached : Bool} (read : (F.answer (.fetch name cached)).1 = .ok (some a)) :
    (known a ∨ s a.name.subjectRef = some a) ∧ a.IsNamed name :=
  (h.recalls F.turn).fetched h.keeps h.tidy storable read

/-- The file of a name holds the schema on the shelf. -/
lemma held (h : Shares site s known F) (name : SchemaName) :
    F.held name = (schemaPath site.root name).map fun _ => s.find name := by
  obtain ⟨f, -, represents⟩ := FileStore.reopen h.keeps h.tidy
  have same : readFile { root := F.root } name = f.readFile name :=
    readFile_congr (h.root.trans represents.root.symm) name
  rw [Fleet.held, same, represents.runs_readFile h.tidy name]

lemma held_eq_some_iff (h : Shares site s known F) :
    F.held name = .ok (some a) ↔ s.find name = some a := by
  rw [h.held]
  constructor
  · intro held
    cases path : schemaPath site.root name with
    | ok path =>
      rw [path] at held
      exact Except.ok.inj held
    | error e =>
      rw [path] at held
      cases held
  · intro found
    have hn := (h.tidy.hasFile found).1
    rw [hn.isPlain.schemaPath hn.schema, found]
    rfl

/-- The folder of a subject holds one schema file at most. -/
lemma eq_of_mem_schemaFiles (h : Shares site s known F) {folder : Path}
    {entries : List (String × EntryKind)} (path : subjectPath F.root name = .ok folder)
    (listed : F.disk.list folder = .ok entries) {x y : String} (hx : x ∈ schemaFiles entries)
    (hy : y ∈ schemaFiles entries) : x = y := by
  rw [h.root] at path
  rcases name.subjectPath_cases site.root with ⟨plain, own⟩ | ⟨e, refused⟩
  · cases path.symm.trans own
    rcases h.keeps.subject_cases name with absent | subject
    · obtain ⟨fault, missing⟩ := h.keeps.find_absent plain absent
      rw [Disk.find_of_list listed] at missing
      cases missing
    · obtain ⟨-, hn, -⟩ := h.keeps.subject name .folder subject.subject
      have there := Disk.list_folder (subject.follow_folder hn) subject.subject
      cases listed.symm.trans there
      have hx := (mem_schemaFiles_iff h.keeps h.tidy.isNeat x).1 hx
      exact Option.some.inj (hx.symm.trans ((mem_schemaFiles_iff h.keeps h.tidy.isNeat y).1 hy))
  · rw [refused] at path
    cases path

end Shares

end Fleet

/-! ### Where the schemas in the caches come from -/

/-- What is on a shelf, and what jobs have read, was written by jobs. -/
structure Recorded (site : Site) (s : Shelf) (history : List Event) : Prop where
  chronicle : Chronicle (fun a => a.name.subjectRef) s history
  storable : ∀ a ∈ written history, a.IsStorable site.root ∧ a.lastVersion ≤ history.length
  named : ∀ e ∈ history, ∀ name cached a,
    e.talk = ⟨.store (.fetch name cached), Except.ok (some a)⟩ → a.IsNamed name

namespace Recorded

variable {site : Site} {s s' : Shelf} {history : List Event} {e : Event} {j : Job} {c : StoreCall}
  {caller : Nat}

lemma empty (site : Site) : Recorded site Shelf.empty [] where
  chronicle := .empty fun _ => rfl
  storable _ ha := nomatch ha
  named _ he := nomatch he

/-- What a job writes is sound. -/
lemma isFresh (h : Recorded site s history) (may : j.MayWrite (talksOf history caller) c)
    (small : history.length + 1 < Word.limit 64) : c.IsFresh history.length := by
  have reads (name cached current)
      (read : (⟨.store (.fetch name cached), Except.ok (some current)⟩ : Talk) ∈
        talksOf history caller) :
      current.IsNamed name ∧ current.IsStorable site.root ∧
        current.lastVersion ≤ history.length := by
    obtain ⟨e, he, -, talk⟩ := World.mem_talksOf.1 read
    obtain ⟨storable, few⟩ := h.storable current (h.chronicle.fetched e he name cached current talk)
    exact ⟨h.named e he name cached current talk, storable, few⟩
  exact may.isFresh_of_reads reads small

/-- An exchange that brings nothing about. -/
lemma quiet (h : Recorded site s history) (effect : e.talk.effect? = none)
    (read : ∀ name cached a, e.talk = ⟨.store (.fetch name cached), Except.ok (some a)⟩ →
      a ∈ written history ∧ a.IsNamed name) : Recorded site s (history ++ [e]) := by
  have silent : ∀ e' ∈ [e], e'.written? = none := by simp [Event.written?, effect]
  refine ⟨h.chronicle.keep silent (fun _ _ here => here) fun e' he' name cached a asked => ?_,
    fun a ha => ?_, fun e' he' name cached a asked => ?_⟩
  · rw [List.mem_singleton.1 he'] at asked
    exact (read name cached a asked).1
  · rw [written_append_of_none silent] at ha
    obtain ⟨storable, few⟩ := h.storable a ha
    exact ⟨storable, few.trans (by simp)⟩
  · rcases List.mem_append.1 he' with old | new
    · exact h.named e' old name cached a asked
    · rw [List.mem_singleton.1 new] at asked
      exact (read name cached a asked).2

/-- What is on the shelf after a write is the end of its lineage. -/
lemma chronicle_of_performs (h : Recorded site s history) (effect : e.talk.effect? = some c)
    (may : j.MayWrite (talksOf history caller) c) (performs : s.Performs c s')
    (once : ∀ id, e.Registers id → ∀ e' ∈ history, ¬e'.Registers id) :
    Chronicle (fun a => a.name.subjectRef) s' (history ++ [e]) := by
  cases performs with
  | @register name a free =>
    obtain ⟨named, contiguous⟩ := may.registers
    have known : a.name.subjectRef = name.subjectRef := by
      rw [named]
      rfl
    exact h.chronicle.register effect known (Function.update_apply s _ _)
      (once _ ⟨name, a, effect, rfl⟩) contiguous
  | @replace name a b found =>
    obtain ⟨bound, -⟩ := Shelf.find_eq_some_iff.1 found
    obtain ⟨continues, contiguous⟩ := h.chronicle.precedes_of_mayWrite bound may
    exact h.chronicle.replace effect bound (by rw [continues.name]) continues
      (Function.update_apply s _ _) contiguous
  | @remove name b found =>
    refine h.chronicle.keep (by simp [Event.written?, effect, StoreCall.payload?])
      (fun r a here => ?_) fun e' he' name cached a asked => ?_
    · rw [Function.update_apply] at here
      split at here
      · cases here
      · exact here
    · rw [List.mem_singleton.1 he'] at asked
      rw [asked] at effect
      cases effect

/-- A write of a job. -/
lemma wrote (h : Recorded site s history) (effect : e.talk.effect? = some c)
    (may : j.MayWrite (talksOf history caller) c) (performs : s.Performs c s')
    (once : ∀ id, e.Registers id → ∀ e' ∈ history, ¬e'.Registers id)
    (tidy : s'.IsTidy site.root) (small : history.length + 1 < Word.limit 64) :
    Recorded site s' (history ++ [e]) := by
  refine ⟨h.chronicle_of_performs effect may performs once, fun a ha => ?_,
    fun e' he' name cached a asked => ?_⟩
  · rw [written_concat] at ha
    rw [List.length_append, List.length_singleton]
    rcases List.mem_append.1 ha with old | new
    · obtain ⟨storable, few⟩ := h.storable a old
      exact ⟨storable, few.trans (Nat.le_succ _)⟩
    · rw [Option.mem_toList, Event.written?, effect, Option.bind_some] at new
      have fresh := h.isFresh may small
      cases performs with
      | @register name b free =>
        cases new
        exact ⟨(tidy name.subjectRef a (Function.update_self ..)).1, fresh.2.2⟩
      | @replace name b current found =>
        cases new
        exact ⟨(tidy name.subjectRef a (Function.update_self ..)).1, fresh.2.2⟩
      | remove found => cases new
  · rcases List.mem_append.1 he' with old | new
    · exact h.named e' old name cached a asked
    · rw [List.mem_singleton.1 new] at asked
      rw [asked] at effect
      cases effect

end Recorded

namespace World

variable {site : Site} {s : Shelf} {w w' : World Fleet.backend}

/-- The stores of the jobs. -/
def fleet (w : World Fleet.backend) : Fleet :=
  w.store

/-- The files stand for a shelf, and all that is on the shelf or in a cache was written by jobs. -/
structure Steady (site : Site) (s : Shelf) (w : World Fleet.backend) : Prop where
  shares : Fleet.Shares site s (fun a => a ∈ written w.history) w.fleet
  recorded : Recorded site s w.history

/-- What one move brings about on the shelf for which the files stand. -/
inductive Upshot (w w' : World Fleet.backend) (s s' : Shelf) : Prop
  | quiet (effect : ∀ e, w'.history = w.history ++ [e] → e.talk.effect? = none)
  | wrote {e : Event} {call : StoreCall} (history : w'.history = w.history ++ [e])
    (effect : e.talk.effect? = some call) (may : e.job.MayWrite (w.transcript e.caller) call)
    (performs : s.Performs call s')

/-- What is on the shelf was written. -/
lemma Steady.written_of_bound (h : w.Steady site s) {r : SubjectRef} {a : Aggregate}
    (bound : s r = some a) : a ∈ written w.history :=
  h.recorded.chronicle.written_of_stored bound

/-- Whatever a job calls next is proper. -/
lemma Steady.isProper (h : w.Steady site s) (kept : w.Kept)
    (small : w.history.length + 1 < Word.limit 64) {caller : Nat} {job : Job} {call : StoreCall}
    {next : call.Answer → Program Collaborators (Except Failure job.task.Result)}
    (waiting : w.threads[caller]? = some ⟨job, .ask (.store call) next⟩) : call.IsProper := by
  cases writes : call.isWrite with
  | false => exact call.isProper_read writes
  | true =>
    have may := (kept.obeys caller _ waiting).1 call rfl writes
    exact (h.recorded.isFresh may small).isProper

/-- An exchange that brings nothing about. -/
lemma Steady.concat_of_none (h : w.Steady site s) {e : Event} {threads : List Thread} {F : Fleet}
    (effect : e.talk.effect? = none)
    (shares : Fleet.Shares site s (fun a => a ∈ written w.history) F)
    (read : ∀ name cached a, e.talk = ⟨.store (.fetch name cached), Except.ok (some a)⟩ →
      a ∈ written w.history ∧ a.IsNamed name) :
    Steady site s { store := F, threads := threads, history := w.history ++ [e] } where
  shares := by
    rw [written_append_of_none (by simp [Event.written?, effect])]
    exact shares
  recorded := h.recorded.quiet effect read

/-- **One move keeps this up**, whichever store is called. -/
theorem Steady.step (h : w.Steady site s) (kept : w.Kept) (kept' : w'.Kept)
    (nodup : w'.drawn.Nodup) (small : w.history.length + 1 < Word.limit 64) (step : w.Step w') :
    ∃ s', w'.Steady site s' ∧ w.Upshot w' s s' := by
  cases step with
  | idle => exact ⟨s, h, .quiet fun e more => by simp at more⟩
  | started job => exact ⟨s, ⟨h.shares, h.recorded⟩, .quiet fun e more => by simp at more⟩
  | troubled t =>
    refine ⟨s, ⟨?_, h.recorded⟩, .quiet fun e more => by simp at more⟩
    cases t with
    | turn i => exact ⟨h.shares.root, h.shares.keeps, h.shares.tidy, h.shares.recalls⟩
    | reopen i =>
      exact (h.shares.reopen i).mono fun a knows => knows.elim id fun bound =>
        h.written_of_bound bound
  | @answered caller job q next say waiting fresh =>
    cases q with
    | store call =>
      have proper := h.isProper kept small waiting
      obtain ⟨shares, honest⟩ := h.shares.answer proper
      rcases Exchange.effect?_cases call (w.fleet.answer call).1 with
        ⟨effect, idle⟩ | ⟨effect, writes, y, done⟩
      · refine ⟨s, h.concat_of_none effect ?_ fun name cached a asked => ?_, .quiet fun e more => ?_⟩
        · rw [h.shares.reply_eq_self proper idle] at shares
          exact shares.mono fun a knows => knows.elim id fun bound => h.written_of_bound bound
        · injection asked with question answer
          cases question
          obtain ⟨knows, named⟩ := h.shares.fetched
            (fun a ha => (h.recorded.storable a ha).1) (eq_of_heq answer)
          exact ⟨knows.elim id fun bound => h.written_of_bound bound, named⟩
        · cases List.append_cancel_left more
          exact effect
      · have direct := StoreCall.isCached_write writes
        have performs := Shelf.performs_of_reply writes ((honest direct).symm.trans done)
        have may := kept'.mayWrite _ _ [] call rfl effect
        have recorded := h.recorded.wrote effect may performs
          (fun id registers => kept'.registers_once nodup rfl registers) shares.tidy small
        refine ⟨_, ⟨shares.mono fun a knows => ?_, recorded⟩, .wrote rfl effect may performs⟩
        rcases knows with old | bound
        · rw [written_concat]
          exact List.mem_append_left _ old
        · exact recorded.chronicle.written_of_stored bound
    | permit | drawId | readClock | judge | compile =>
      refine ⟨s, h.concat_of_none rfl h.shares fun name cached a asked => (nomatch asked),
        .quiet fun e more => ?_⟩
      cases List.append_cancel_left more
      rfl

/-! ### All moves on stores in an empty folder -/

/-- Stores in an empty folder that no job has used yet. -/
def shared (site : Site) : World Fleet.backend :=
  opened (Fleet.start site)

/-- There are no more exchanges than moves. -/
lemma length_history_le {B : Backend} (store : B.State) (moves : List (Move B)) :
    ((opened store).after moves).history.length ≤ moves.length := by
  induction moves using List.reverseRecOn with
  | nil => exact Nat.le_refl 0
  | append_singleton moves m ih =>
    rw [after_append, List.length_append, List.length_singleton]
    rcases (step_perform ((opened store).after moves) m).loose.history with same | ⟨e, more⟩
    · exact (congrArg List.length same).le.trans (ih.trans (Nat.le_succ _))
    · refine (congrArg List.length more).le.trans ?_
      rw [List.length_append, List.length_singleton]
      exact Nat.succ_le_succ ih

section

variable {moves : List (Move Fleet.backend)}

/-- What one more move brings about. -/
lemma Steady.move (h : ((shared site).after moves).Steady site s) (m : Move Fleet.backend)
    (small : moves.length + 1 < Word.limit 64) :
    ∃ s', ((shared site).after (moves ++ [m])).Steady site s' ∧
      ((shared site).after moves).Upshot ((shared site).after (moves ++ [m])) s s' := by
  have few : ((shared site).after moves).history.length ≤ moves.length := length_history_le _ moves
  exact h.step (kept_after _ _) (kept_after _ _) (nodup_drawn_after _ _) (by omega)
    (step_concat _ moves m)

/-- **The caches hold nothing but what jobs have written**, after any moves. -/
theorem steady_after (site : Site) (moves : List (Move Fleet.backend))
    (small : moves.length < Word.limit 64) :
    ∃ s, ((shared site).after moves).Steady site s := by
  induction moves using List.reverseRecOn with
  | nil => exact ⟨Shelf.empty, .start site, .empty site⟩
  | append_singleton moves m ih =>
    rw [List.length_append, List.length_singleton] at small
    obtain ⟨s, h⟩ := ih (by omega)
    obtain ⟨s', after, -⟩ := h.move m small
    exact ⟨s', after⟩

/-- The moment of an update: the job has added its record to the schema in the file, however old
what it has read. -/
lemma moment_of_shared_update (small : moves.length < Word.limit 64) {before later : List Event}
    {e : Event} {r : Registry} {actor : String} {name : SchemaName} {request : Change}
    {a : Aggregate} {expected : Revision}
    (split : ((shared site).after moves).history = before ++ e :: later)
    (effect : e.talk.effect? = some (.replace name a expected))
    (update : e.job = ⟨r, actor, .update name request⟩) :
    ∃ earlier say rest s s' b record, moves = earlier ++ .answer e.caller say :: rest ∧
      ((shared site).after earlier).history = before ∧
      ((shared site).after earlier).Steady site s ∧ s.find name = some b ∧
      ((shared site).after (earlier ++ [.answer e.caller say])).Steady site s' ∧
      s'.find name = some a ∧ b.Precedes a ∧
      a.ledger.records = b.ledger.records ++ [record] ∧ record.idl = request.idl := by
  obtain ⟨earlier, m, rest, rfl, rfl, more⟩ := exists_moment rfl split
  have short : earlier.length + 1 < Word.limit 64 := by
    rw [List.length_append, List.length_cons] at small
    omega
  obtain ⟨say, rfl⟩ : ∃ say, m = .answer e.caller say := by
    rw [after_append] at more
    exact exists_say more
  obtain ⟨s, h⟩ := steady_after site earlier (by omega)
  obtain ⟨s', h', upshot⟩ := h.move (.answer e.caller say) short
  cases upshot with
  | quiet none =>
    rw [none e more] at effect
    cases effect
  | wrote history effect' may performs =>
    cases List.append_cancel_left (more.symm.trans history)
    cases effect.symm.trans effect'
    cases performs with
    | @replace _ _ b found =>
      obtain ⟨bound, schema⟩ := Shelf.find_eq_some_iff.1 found
      obtain ⟨continues, -⟩ := h.recorded.chronicle.precedes_of_mayWrite bound may
      obtain ⟨current, cached, read, same, grown⟩ := may.replace_cases
      -- what the job has read is what is in the file, but for the artifact
      have ledger := Aggregate.ledger_eq_of_bare (h.recorded.chronicle.bare_eq_of_revision bound
        (h.recorded.chronicle.written_of_transcript read) same)
      rw [update] at grown
      rcases grown with ⟨_, _, _, _, record, job, -, -, records, text⟩ | ⟨_, _, job, -⟩
      · cases job
        refine ⟨earlier, say, rest, s, _, b, record, rfl, rfl, h, found, h', ?_, continues,
          by rw [records, ledger], text⟩
        rw [Shelf.find_update, if_pos rfl, Option.filter_some, if_pos]
        rw [beq_iff_eq, ← continues.name, schema]
      · cases job

/-- What was there when a job wrote has been written before, and has fewer versions. -/
lemma lastVersion_lt_of_update (small : moves.length < Word.limit 64) {before later : List Event}
    {e : Event} {r : Registry} {actor : String} {name : SchemaName} {request : Change}
    {a : Aggregate} {expected : Revision}
    (split : ((shared site).after moves).history = before ++ e :: later)
    (effect : e.talk.effect? = some (.replace name a expected))
    (update : e.job = ⟨r, actor, .update name request⟩) {c : Aggregate} (hc : c ∈ written before)
    (same : c.info.uniqueId = a.info.uniqueId) : c.lastVersion < a.lastVersion := by
  obtain ⟨earlier, say, rest, s, s', b, record, -, rfl, h, found, -, -, continues, records, -⟩ :=
    moment_of_shared_update small split effect update
  obtain ⟨bound, -⟩ := Shelf.find_eq_some_iff.1 found
  have older := h.recorded.chronicle.precedes_stored bound hc (same.trans (by rw [continues.info]))
  have grown := congrArg List.length records
  rw [List.length_append, List.length_singleton] at grown
  exact Nat.lt_of_le_of_lt older.records.length_le (Nat.lt_of_lt_of_eq (Nat.lt_succ_self _) grown.symm)

/-- Two updates that were answered with one receipt are one. -/
lemma eq_of_shared_receipt (small : moves.length < Word.limit 64) {caller caller' : Nat}
    {name name' : SchemaName} {request request' : Change} {receipt : Receipt}
    (ended : ((shared site).after moves).Updated caller name request receipt)
    (ended' : ((shared site).after moves).Updated caller' name' request' receipt) :
    caller = caller' := by
  have kept : ((shared site).after moves).Kept := kept_after _ moves
  obtain ⟨before, e, later, a, _, split, effect, rfl, ⟨_, _, job⟩, rfl⟩ :=
    kept.exists_write_of_updated ended
  obtain ⟨before', e', later', a', _, split', effect', rfl, ⟨_, _, job'⟩, same⟩ :=
    kept.exists_write_of_updated ended'
  obtain ⟨id, version⟩ : a.info.uniqueId = a'.info.uniqueId ∧ a.lastVersion = a'.lastVersion := by
    rw [Receipt.mk.injEq] at same
    exact same
  have puts : e.written? = some a := by simp [Event.written?, effect, StoreCall.payload?]
  have puts' : e'.written? = some a' := by simp [Event.written?, effect', StoreCall.payload?]
  -- of two writes one comes first, and the other then has more versions
  have he' : e' ∈ before ++ e :: later := by
    rw [← split, split']
    simp
  rcases List.mem_append.1 he' with first | rest
  · have fewer := lastVersion_lt_of_update small split effect job
      (List.mem_filterMap.2 ⟨e', first, puts'⟩) id.symm
    omega
  · rcases List.mem_cons.1 rest with same | last
    · rw [same]
    · obtain ⟨between, after, rfl⟩ := List.append_of_mem last
      have further : ((shared site).after moves).history =
          (before ++ e :: between) ++ e' :: after := by
        rw [split]
        simp
      have fewer := lastVersion_lt_of_update small further effect' job'
        (List.mem_filterMap.2 ⟨e, by simp, puts⟩) id
      omega

/-! ### No history is lost -/

/-- What jobs have made of the schemas in a folder, at whichever stores they were served. -/
structure HistoryKept (site : Site) (moves : List (Move Fleet.backend)) : Prop where
  /-- An update that was answered with a receipt has added one record to the ledger that was in the
  file of its name, at the moment of its write, and has left all else of the schema's history and
  identity as it was. -/
  appended : ∀ caller name request receipt,
    ((shared site).after moves).Updated caller name request receipt →
    ∃ earlier say later b a record, moves = earlier ++ .answer caller say :: later ∧
      ((shared site).after earlier).fleet.held name = .ok (some b) ∧
      ((shared site).after (earlier ++ [.answer caller say])).fleet.held name = .ok (some a) ∧
      b.Precedes a ∧ a.ledger.records = b.ledger.records ++ [record] ∧
      record.idl = request.idl ∧ receipt = ⟨b.info.uniqueId, b.lastVersion + 1⟩
  /-- Whatever was in a file at some moment, name, metadata, creation and records are the same in
  all that is in a file under the same id later. -/
  kept : ∀ earlier later name name' b a, moves = earlier ++ later →
    ((shared site).after earlier).fleet.held name = .ok (some b) →
    ((shared site).after moves).fleet.held name' = .ok (some a) →
    b.info.uniqueId = a.info.uniqueId → b.Precedes a
  /-- No two updates are answered with one receipt. -/
  distinct : ∀ caller caller' name name' request request' receipt,
    ((shared site).after moves).Updated caller name request receipt →
    ((shared site).after moves).Updated caller' name' request' receipt → caller = caller'
  /-- There is one schema file at most in the folder of a subject. -/
  single : ∀ name folder entries,
    subjectPath ((shared site).after moves).fleet.root name = .ok folder →
    ((shared site).after moves).fleet.disk.list folder = .ok entries →
    ∀ x ∈ schemaFiles entries, ∀ y ∈ schemaFiles entries, x = y

/-- **No history is lost**, in whatever order the questions of the jobs are answered, whichever
store answers them, and however old its cache is. (There are fewer moves than 64 bits can count, so
that every version is a number that a file can hold.) -/
theorem history_kept_after (site : Site) (small : moves.length < Word.limit 64) :
    HistoryKept site moves where
  appended := by
    intro caller name request receipt ended
    have kept : ((shared site).after moves).Kept := kept_after _ moves
    obtain ⟨before, e, later, a, expected, split, effect, rfl, ⟨r, actor, job⟩, rfl⟩ :=
      kept.exists_write_of_updated ended
    obtain ⟨earlier, say, rest, s, s', b, record, all, -, h, found, h', found', continues, records,
      text⟩ := moment_of_shared_update small split effect job
    refine ⟨earlier, say, rest, b, a, record, all, h.shares.held_eq_some_iff.2 found,
      h'.shares.held_eq_some_iff.2 found', continues, records, text, ?_⟩
    have grown := congrArg List.length records
    rw [List.length_append, List.length_singleton] at grown
    rw [continues.info, Aggregate.lastVersion, Ledger.lastVersion, grown]
    rfl
  kept := by
    intro earlier later name name' b a all heldB heldA same
    subst all
    obtain ⟨s, h⟩ := steady_after site earlier (by
      rw [List.length_append] at small
      omega)
    obtain ⟨s', h'⟩ := steady_after site _ small
    obtain ⟨boundB, -⟩ := Shelf.find_eq_some_iff.1 (h.shares.held_eq_some_iff.1 heldB)
    obtain ⟨boundA, -⟩ := Shelf.find_eq_some_iff.1 (h'.shares.held_eq_some_iff.1 heldA)
    have older : written ((shared site).after earlier).history ⊆
        written ((shared site).after (earlier ++ later)).history := by
      rw [after_append]
      exact (List.IsPrefix.filterMap _ (history_prefix_after _ later)).subset
    exact h'.recorded.chronicle.precedes_stored boundA (older (h.written_of_bound boundB)) same
  distinct := fun _ _ _ _ _ _ _ ended ended' => eq_of_shared_receipt small ended ended'
  single := by
    intro name folder entries path listed x hx y hy
    obtain ⟨s, h⟩ := steady_after site _ small
    exact h.shares.eq_of_mem_schemaFiles path listed hx hy

end

end World

namespace Rehearsal

open World

/-- A job that is answered some times, and whose calls one store answers. -/
def servedBy (store caller : Nat) (task : Task) (answers : Nat) : List (Move Fleet.backend) :=
  .trouble (.turn store) :: .start (job task) :: List.replicate answers (.answer caller say)

/-- One store attaches an artifact to the schema that another one has registered.  This one then
updates the schema, which has no artifact in its cache. -/
def crossing : List (Move Fleet.backend) :=
  servedBy 0 0 (.register orders registration) 6 ++
    .trouble (.reopen 1) :: servedBy 1 1 (.compileArtifact orders) 4 ++
      servedBy 0 2 (.update orders change) 6

/-- The schema with the artifact of its first version. -/
def compiled : Aggregate :=
  registered.withArtifact (artifact 1)

section

variable {F G : Fleet} {w : World Fleet.backend} {others : List Thread} {ids : List UInt64}

/-- A store that has no schema in its cache serves the registration. -/
lemma attends_register
    (h : w.Attends F others ids (job (.register orders registration))
      (job (.register orders registration)).program.run)
    (absent : (F.stores F.turn).cache.get? orders.fullName = none) (fresh : 7 ∉ ids)
    (put : F.answer (.register orders registered) = (.ok (), G)) :
    (w.after (List.replicate 6 (.answer others.length say))).Attends G others (ids ++ [7])
      (job (.register orders registration)) (.done (.ok ⟨7, 1⟩)) := by
  have read := F.answer_cached orders
  rw [absent] at read
  have asked := ((h.ask say (by simp) rfl).call say read).draw say rfl fresh
  exact ((asked.ask say (by simp) rfl).ask say (by simp) rfl).call say put

/-- A store that has the schema in its cache compiles it. -/
lemma attends_compile
    (h : w.Attends F others ids (job (.compileArtifact orders))
      (job (.compileArtifact orders)).program.run)
    (held : (F.stores F.turn).cache.get? orders.fullName = some registered)
    (put : F.answer (.replace orders compiled registered.revision) = (.ok (), G)) :
    (w.after (List.replicate 4 (.answer others.length say))).Attends G others ids
      (job (.compileArtifact orders)) (.done (.ok (artifact 1))) := by
  have read := F.answer_cached orders
  rw [held] at read
  have asked := (h.ask say (by simp) rfl).call say read
  exact (asked.ask say (by simp) rfl).call say put

/-- A store that has the schema in its cache updates it. -/
lemma attends_update
    (h : w.Attends F others ids (job (.update orders change))
      (job (.update orders change)).program.run)
    (held : (F.stores F.turn).cache.get? orders.fullName = some registered)
    (put : F.answer (.replace orders changed registered.revision) = (.ok (), G)) :
    (w.after (List.replicate 6 (.answer others.length say))).Attends G others ids
      (job (.update orders change)) (.done (.ok ⟨7, 2⟩)) := by
  have read := F.answer_cached orders
  rw [held] at read
  have asked := (h.ask say (by simp) rfl).call say read
  exact (((asked.ask say (by simp) rfl).ask say (by simp) rfl).ask say (by simp) rfl).call say put

end

lemma isStorable_compiled : compiled.IsStorable site.root where
  name := hasFile_orders
  temporary := isStorable_registered.temporary
  contiguous := isStorable_registered.contiguous
  authentic := isStorable_registered.authentic
  counts := by
    rw [Wire.fits_aggregate_iff]
    decide

/-- What the two stores do: the second one has attached the artifact when the first one, which has
the schema in its cache as it was registered, changes it. -/
lemma exists_stores : ∃ f f₁ f₂ g g₁ d d₁ d₂ d₃,
    Fleet.start site = ⟨site.root, d, fun _ => f, 0⟩ ∧
    f.cache.get? orders.fullName = none ∧
    Disk.run (f.answer (.register orders registered)) d = ((.ok (), f₁), d₁) ∧
    Disk.run (openFolder site.root).run d₁ = (.ok g, d₁) ∧
    g.cache.get? orders.fullName = some registered ∧
    Disk.run (g.answer (.replace orders compiled registered.revision)) d₁ = ((.ok (), g₁), d₂) ∧
    f₁.cache.get? orders.fullName = some registered ∧
    Disk.run (f₁.answer (.replace orders changed registered.revision)) d₂ = ((.ok (), f₂), d₃) := by
  have registering : (StoreCall.register orders registered).IsSound site.root :=
    ⟨⟨rfl, rfl, rfl⟩, isStorable_registered⟩
  have attaching : (StoreCall.replace orders compiled registered.revision).IsSound site.root :=
    ⟨⟨rfl, rfl, rfl⟩, isStorable_compiled⟩
  have changing : (StoreCall.replace orders changed registered.revision).IsSound site.root :=
    ⟨⟨rfl, rfl, rfl⟩, isStorable_changed⟩
  obtain ⟨f, d, opened, represents⟩ := represents_open site
  have start : Fleet.start site = ⟨site.root, d, fun _ => f, 0⟩ := by
    rw [Fleet.start, opened]
    rfl
  obtain ⟨f₁, d₁, registers, represents₁⟩ := represents.answer Shelf.isTidy_empty registering
  have tidy₁ := Shelf.isTidy_empty.answer registering
  obtain ⟨g, opened₁, represents₂⟩ := reopen represents₁.disk tidy₁
  obtain ⟨g₁, d₂, attaches, represents₃⟩ := represents₂.answer tidy₁ attaching
  obtain ⟨x, f₂, d₃, changes, -, -, honest⟩ :=
    represents₁.recalls.answer represents₃.disk (tidy₁.answer attaching) changing.isProper
  rw [Shelf.reply_of_isSound changing] at honest
  obtain rfl : x = .ok () := honest rfl
  exact ⟨f, f₁, f₂, g, g₁, d, d₁, d₂, d₃, start,
    represents.get? Shelf.isTidy_empty.isNeat orders, registers, opened₁,
    represents₂.get? tidy₁.isNeat orders, attaches, represents₁.get? tidy₁.isNeat orders, changes⟩

/-- The update is answered with its receipt, although its store has no artifact in its cache. -/
lemma updated_crossing : ((shared site).after crossing).Updated 2 orders change ⟨7, 2⟩ := by
  obtain ⟨f, f₁, f₂, g, g₁, d, d₁, d₂, d₃, start, absent, registers, opened, held', attaches, held,
    changes⟩ := exists_stores
  have still (s : Nat → FileStore) : Fleet.reopen ⟨site.root, d₁, s, 0⟩ 1 =
      ⟨site.root, d₁, Function.update s 1 g, 0⟩ := by
    rw [Fleet.reopen, opened]
  rw [shared, start]
  let F : Fleet := ⟨site.root, d, fun _ => f, 0⟩
  let w : World Fleet.backend := World.perform (World.opened F) (.trouble (.turn 0))
  have one := attends_register (F := F) (w := w.perform (.start _)) (.first rfl rfl _) absent
    (by simp) (Fleet.answer_eq registers)
  have reopened := one.trouble (.reopen 1)
  rw [show Fleet.backend.trouble _ (.reopen 1) = _ from still _] at reopened
  have two := attends_compile ((reopened.trouble (.turn 1)).start _) held'
    (Fleet.answer_eq attaches)
  have three := attends_update ((two.trouble (.turn 0)).start _) held (Fleet.answer_eq changes)
  refine ⟨registry, "ann", ?_⟩
  simp only [crossing, servedBy, after_append, List.cons_append, after_cons]
  exact congrArg (·[2]?) three.threads

end Rehearsal

/-- No history is lost when two stores cross, and the update of the store whose cache is out of
date is answered with the second version. -/
theorem World.history_of_crossing :
    Rehearsal.crossing.length < Word.limit 64 ∧
      ((shared Rehearsal.site).after Rehearsal.crossing).Updated 2 Rehearsal.orders
        Rehearsal.change ⟨7, 2⟩ ∧
      HistoryKept Rehearsal.site Rehearsal.crossing :=
  ⟨by decide, Rehearsal.updated_crossing, history_kept_after Rehearsal.site (by decide)⟩

end SchemaLedger
