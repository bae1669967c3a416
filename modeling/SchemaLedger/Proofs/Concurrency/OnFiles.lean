import SchemaLedger.Proofs.Concurrency.Runs
import SchemaLedger.Proofs.Lifecycle.Serving
import SchemaLedger.Proofs.Name

/-!
Jobs that run side by side on one store on files.

* `FileStore.backend`: the store with its disk.  Nothing happens to the files but what the store
  does to them.
* `World.Sheltered`: the store stands for a shelf, and the shelf holds what jobs may write.  Then the
  files show what is on the shelf (`World.Sheltered.shown_eq`).
* `World.FileOutcome`: what one step brings about on the shelf.  `World.Sheltered.step` says that no
  step brings about more.
* `World.Reaches.sheltered`: so it is in every run, as long as 64 bits can count the exchanges.
-/

namespace SchemaLedger

open FileStore

/-- The answer of a store to a call, and the store and its disk after it. -/
def FileStore.serve (x : FileStore × Disk) (c : StoreCall) : c.Answer × (FileStore × Disk) :=
  let ((answer, f), d) := Disk.run (x.1.answer c) x.2
  (answer, (f, d))

lemma FileStore.serve_eq {f f' : FileStore} {d d' : Disk} {c : StoreCall} {x : c.Answer}
    (answered : Disk.run (f.answer c) d = ((x, f'), d')) : serve (f, d) c = (x, (f', d')) := by
  rw [serve, answered]

/-- The store on files, with the disk that its files are on. -/
def FileStore.backend : Backend where
  State := FileStore × Disk
  answer := serve
  Trouble := Empty
  trouble x _ := x

/-- The store that is opened in an empty folder. -/
def FileStore.settled (site : Site) : FileStore × Disk :=
  ((Disk.run (openFolder site.root).run site.disk).1.toOption.getD { root := site.root },
    (Disk.run (openFolder site.root).run site.disk).2)

/-- The schema in the file of a name. -/
def FileStore.shown (x : FileStore × Disk) (name : SchemaName) : Option Aggregate :=
  (Disk.run (readFile x.1 name).run x.2).1.toOption.join

lemma FileStore.shown_eq {f : FileStore} {d d' : Disk} {name : SchemaName}
    {r : Except StoreError (Option Aggregate)} (read : d.Runs (f.readFile name) r d') :
    shown (f, d) name = r.toOption.join := by
  rw [shown, read]

namespace World

variable {site : Site} {s s' : Shelf} {w w' : World FileStore.backend}

/-- The store of the jobs. -/
def fileStore (w : World FileStore.backend) : FileStore :=
  Prod.fst w.store

/-- The disk with the files of the store. -/
def disk (w : World FileStore.backend) : Disk :=
  Prod.snd w.store

/-- The store in an empty folder, before any job. -/
def lodged (site : Site) : World FileStore.backend :=
  opened (FileStore.settled site)

/-- The store stands for a shelf, which holds nothing but what jobs may write, and jobs have read
nothing else. -/
structure Sheltered (site : Site) (s : Shelf) (w : World FileStore.backend) : Prop where
  represents : Represents site w.fileStore w.disk s
  tidy : s.IsTidy site.root
  few : s.HasFew w.history.length
  valid : ∀ r a, s r = some a → a.name.check SchemaName.schemaParts = .ok ()
  read : ∀ e ∈ w.history, ∀ name cached a,
    e.talk = ⟨.store (.fetch name cached), Except.ok (some a)⟩ →
      a.IsNamed name ∧ a.IsStorable site.root ∧ a.lastVersion ≤ w.history.length

/-- What one step brings about on the shelf for which the store stands. -/
inductive FileOutcome (s s' : Shelf) (w w' : World FileStore.backend) : Prop
  | silent (history : w'.history = w.history) (same : s' = s)
  | quiet {e : Event} (history : w'.history = w.history ++ [e]) (same : s' = s)
    (effect : e.talk.effect? = none)
    (honest : ∀ name cached found, e.talk = ⟨.store (.fetch name cached), Except.ok found⟩ →
      s.find name = found)
    (late : ∀ c key expected found,
      e.talk = ⟨.store c, Except.error (.conflict key expected found)⟩ → s.IsAheadOf c)
  | wrote {e : Event} {call : StoreCall} (history : w'.history = w.history ++ [e])
    (effect : e.talk.effect? = some call) (may : e.job.MayWrite (w.transcript e.caller) call)
    (performs : s.Performs call s')

namespace Sheltered

/-- What a job writes is sound. -/
lemma isFresh (h : w.Sheltered site s) {j : Job} {caller : Nat} {c : StoreCall}
    (may : j.MayWrite (w.transcript caller) c) (small : w.history.length + 1 < Word.limit 64) :
    c.IsFresh w.history.length := by
  have known (name : SchemaName) (cached : Bool) (current : Aggregate)
      (asked : (⟨.store (.fetch name cached), Except.ok (some current)⟩ : Talk) ∈
        w.transcript caller) :
      current.IsNamed name ∧ current.IsStorable site.root ∧
        current.lastVersion ≤ w.history.length := by
    obtain ⟨e, he, -, talk⟩ := mem_talksOf.1 asked
    exact h.read e he name cached current talk
  exact may.isFresh_of_reads known small

/-- Whatever a job calls next is proper. -/
lemma isProper (h : w.Sheltered site s) (kept : w.Kept)
    (small : w.history.length + 1 < Word.limit 64) {caller : Nat} {job : Job} {call : StoreCall}
    {next : call.Answer → Program Collaborators (Except Failure job.task.Result)}
    (waiting : w.threads[caller]? = some ⟨job, .ask (.store call) next⟩) : call.IsProper := by
  cases writes : call.isWrite with
  | false => exact call.isProper_read writes
  | true => exact (h.isFresh ((kept.obeys caller _ waiting).1 call rfl writes) small).isProper

/-- A job has read what is on the shelf, if it has read anything. -/
lemma read_concat (h : w.Sheltered site s) {e : Event}
    (honest : ∀ name cached a, e.talk = ⟨.store (.fetch name cached), Except.ok (some a)⟩ →
      s.find name = some a) :
    ∀ e' ∈ w.history ++ [e], ∀ name cached a,
      e'.talk = ⟨.store (.fetch name cached), Except.ok (some a)⟩ →
        a.IsNamed name ∧ a.IsStorable site.root ∧
          a.lastVersion ≤ (w.history ++ [e]).length := by
  intro e' he' name cached a asked
  rw [List.length_append, List.length_singleton]
  rcases List.mem_append.1 he' with old | new
  · obtain ⟨named, storable, few⟩ := h.read e' old name cached a asked
    exact ⟨named, storable, few.trans (Nat.le_succ _)⟩
  · rw [List.mem_singleton.1 new] at asked
    have found := honest name cached a asked
    obtain ⟨bound, -⟩ := Shelf.find_eq_some_iff.1 found
    exact ⟨h.tidy.isNamed found, (h.tidy _ a bound).1, (h.few _ a bound).trans (Nat.le_succ _)⟩

/-- The file of a name holds the schema on the shelf. -/
lemma shown_eq (h : w.Sheltered site s) (name : SchemaName) :
    FileStore.shown w.store name = s.find name := by
  refine (FileStore.shown_eq (h.represents.runs_readFile h.tidy name)).trans ?_
  cases path : schemaPath site.root name with
  | ok path => rfl
  | error e =>
    symm
    refine Option.eq_none_iff_forall_ne_some.2 fun a found => ?_
    have hn := (h.tidy.hasFile found).1
    cases path.symm.trans (hn.isPlain.schemaPath hn.schema site.root)

/-- An exchange that brings nothing about. -/
lemma concat (h : w.Sheltered site s) {e : Event} {threads : List Thread} {f : FileStore} {d : Disk}
    (represents : Represents site f d s)
    (honest : ∀ name cached a, e.talk = ⟨.store (.fetch name cached), Except.ok (some a)⟩ →
      s.find name = some a) :
    Sheltered site s { store := (f, d), threads := threads, history := w.history ++ [e] } where
  represents := represents
  tidy := h.tidy
  few := h.few.mono (by simp)
  valid := h.valid
  read := h.read_concat honest

/-- What was written has a valid name. -/
lemma valid_of_performs (h : w.Sheltered site s) {c : StoreCall} (fresh : c.IsFresh w.history.length)
    (valid : c.name.check SchemaName.schemaParts = .ok ()) (performs : s.Performs c s')
    {r : SubjectRef} {a : Aggregate} (bound : s' r = some a) :
    a.name.check SchemaName.schemaParts = .ok () := by
  have changed {name : SchemaName} {x : Option Aggregate}
      (new : ∀ b, x = some b → b.name.check SchemaName.schemaParts = .ok ())
      (bound : Function.update s name.subjectRef x r = some a) :
      a.name.check SchemaName.schemaParts = .ok () := by
    rw [Function.update_apply] at bound
    split at bound
    · exact new a bound
    · exact h.valid r a bound
  cases performs with
  | @register name b free =>
    obtain ⟨named, -, -⟩ := fresh
    refine changed (fun c hc => ?_) bound
    cases hc
    exact SchemaName.check_congr named.tenant named.subject named.schema valid
  | @replace name b current found =>
    obtain ⟨named, -, -⟩ := fresh
    refine changed (fun c hc => ?_) bound
    cases hc
    exact SchemaName.check_congr named.tenant named.subject named.schema valid
  | remove found => exact changed (x := none) (fun c hc => nomatch hc) bound

/-- **One step keeps this up.** -/
theorem step (h : w.Sheltered site s) (kept : w.Kept)
    (small : w'.history.length < Word.limit 64) (step : w.LooseStep w') :
    ∃ s', w'.Sheltered site s' ∧ FileOutcome s s' w w' := by
  have kept' := kept.step step
  cases step with
  | idle => exact ⟨s, h, .silent rfl rfl⟩
  | started job => exact ⟨s, ⟨h.represents, h.tidy, h.few, h.valid, h.read⟩, .silent rfl rfl⟩
  | troubled t => exact t.elim
  | @answered caller job q next say waiting =>
    have short : w.history.length + 1 < Word.limit 64 := by simpa using small
    cases q with
    | store call =>
      have proper := h.isProper kept short waiting
      obtain ⟨f, d, answered, represents⟩ := h.represents.reply h.tidy proper
      have reply : w.reply say (.store call) = ((s.reply site.root call).1, (f, d)) :=
        serve_eq answered
      rw [reply] at kept' ⊢
      have honest (name cached) (found : Option Aggregate)
          (asked : (⟨.store call, (s.reply site.root call).1⟩ : Talk) =
            ⟨.store (.fetch name cached), Except.ok found⟩) : s.find name = found := by
        injection asked with question answer
        cases question
        have told := eq_of_heq answer
        rw [Shelf.reply_eq_answer told] at told
        exact Except.ok.inj told
      rcases Exchange.effect?_cases call (s.reply site.root call).1 with
        ⟨effect, idle⟩ | ⟨effect, writes, y, done⟩
      · have same : (s.reply site.root call).2 = s := by
          rcases idle with reads | ⟨e, failed⟩
          · exact s.reply_read site.root reads
          · exact Shelf.reply_error failed
        rw [same] at represents
        refine ⟨s, h.concat represents fun name cached a asked => honest name cached _ asked,
          .quiet rfl rfl effect honest fun c key expected found asked => ?_⟩
        injection asked with question answer
        cases question
        exact Shelf.isAheadOf_of_conflict (eq_of_heq answer)
      · have performs := Shelf.performs_of_reply writes done
        have may := kept'.mayWrite _ _ [] call rfl effect
        have fresh := h.isFresh may short
        refine ⟨_, ⟨represents, h.tidy.reply proper, fun r a bound => ?_, fun r a bound =>
          h.valid_of_performs fresh may.valid performs bound, ?_⟩, .wrote rfl effect may performs⟩
        · rw [List.length_append, List.length_singleton]
          exact Shelf.lastVersion_reply fresh (h.few.mono (Nat.le_succ _)) bound
        · exact h.read_concat fun name cached a asked => honest name cached _ asked
    | permit | drawId | readClock | judge | compile =>
      refine ⟨s, h.concat h.represents fun name cached a asked => (nomatch asked),
        .quiet rfl rfl rfl (fun name cached found asked => (nomatch asked))
          fun c key expected found asked => (nomatch asked)⟩

end Sheltered

/-- The store in an empty folder. -/
lemma sheltered_lodged (site : Site) : (lodged site).Sheltered site Shelf.empty := by
  obtain ⟨f, d, opened, represents⟩ := represents_open site
  have settled : FileStore.settled site = (f, d) := by
    rw [FileStore.settled, opened]
    rfl
  refine ⟨?_, Shelf.isTidy_empty, Shelf.hasFew_empty _, fun r a bound => (nomatch bound),
    fun e he => (nomatch he)⟩
  show Represents site (FileStore.settled site).1 (FileStore.settled site).2 _
  rw [settled]
  exact represents

/-- **The store stands for a shelf** in every run, as long as 64 bits can count the exchanges. -/
theorem Reaches.sheltered (run : (lodged site).Reaches w) (small : w.history.length < Word.limit 64) :
    ∃ s, w.Sheltered site s := by
  induction run with
  | refl => exact ⟨Shelf.empty, sheltered_lodged site⟩
  | tail run step ih =>
    have shorter := (reaches_of_step step).history_grows.length_le
    obtain ⟨s, h⟩ := ih (shorter.trans_lt small)
    obtain ⟨s', h', -⟩ := h.step (kept run) small step
    exact ⟨s', h'⟩

end World

end SchemaLedger
