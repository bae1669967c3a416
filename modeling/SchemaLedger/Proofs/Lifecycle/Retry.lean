import SchemaLedger.Proofs.Concurrency.Fleet
import SchemaLedger.Proofs.Lifecycle.Restart
import SchemaLedger.Proofs.Store.Failures

/-!
Jobs that are run again after a conflict.

* `FileStore.Outdated`: the files stand for a shelf, and the cache of a store may be of any age.
* `Job.Session`: what a job has come to that runs alone on such a store. It has read, or it has
  written once. Every exchange leads to another session (`Session.call`, `Session.other`), and so a
  job ends in one (`Job.exists_session`).
* `Job.Overtaken`: the cache has another revision than the shelf of a schema that the job would
  change. A job meets with a conflict only if it was overtaken (`Session.overtaken`). It then fails
  and changes nothing (`Session.of_overtaken`), so that it does not get out of this by itself.
* `Fleet.Visited.conflict_repeats`: a conflict repeats itself, whichever jobs at other stores have
  led to it, until the schema is read once without the cache.
-/

namespace SchemaLedger

open FileStore

/-- The files stand for a shelf, and the cache of a store holds nothing but what could be stored.
No schema in either has more than `n` versions. -/
structure FileStore.Outdated (site : Site) (n : Nat) (s : Shelf) (f : FileStore) (d : Disk) :
    Prop where
  keeps : site.Keeps s d
  tidy : s.IsTidy site.root
  few : s.HasFew n
  recalls : f.Recalls site.root fun a => a.IsStorable site.root ∧ a.lastVersion ≤ n

namespace FileStore.Outdated

variable {site : Site} {n m : Nat} {s : Shelf} {f f' : FileStore} {d d' : Disk} {c : StoreCall}
  {x : c.Answer}

lemma mono (h : Outdated site n s f d) (more : n ≤ m) : Outdated site m s f d where
  keeps := h.keeps
  tidy := h.tidy
  few := h.few.mono more
  recalls := h.recalls.mono fun _ known => ⟨known.1, known.2.trans more⟩

/-- A proper call leads to a store of the same kind. -/
lemma answer (h : Outdated site n s f d) (proper : c.IsProper)
    (few : (s.reply site.root c).2.HasFew m) (more : n ≤ m)
    (answered : Disk.run (f.answer c) d = ((x, f'), d')) :
    Outdated site m (s.reply site.root c).2 f' d' := by
  obtain ⟨x', f₁, d₁, answered', keeps, recalls, -⟩ := h.recalls.answer h.keeps h.tidy proper
  cases answered.symm.trans answered'
  have tidy := h.tidy.reply proper
  refine ⟨keeps, tidy, few, recalls.mono fun a known => ?_⟩
  rcases known with ⟨storable, old⟩ | bound
  · exact ⟨storable, old.trans more⟩
  · exact ⟨(tidy _ a bound).1, few _ a bound⟩

/-- What does not come from the cache is the answer of the shelf. -/
lemma eq_reply (h : Outdated site n s f d) (proper : c.IsProper) (direct : c.isCached = false)
    (answered : Disk.run (f.answer c) d = ((x, f'), d')) : x = (s.reply site.root c).1 := by
  obtain ⟨x', f₁, d₁, answered', -, -, honest⟩ := h.recalls.answer h.keeps h.tidy proper
  cases answered.symm.trans answered'
  exact honest direct

/-- A read leaves the shelf as it is. If it is served from the cache, it changes nothing at all. -/
lemma read (h : Outdated site n s f d) (reads : c.isWrite = false)
    (answered : Disk.run (f.answer c) d = ((x, f'), d')) :
    Outdated site n s f' d' ∧ (c.isCached = true → f' = f ∧ d' = d) ∧
      ∀ key expected found, x ≠ .error (.conflict key expected found) := by
  have proper : c.IsProper := c.isProper_read reads
  have same : (s.reply site.root c).2 = s := s.reply_read site.root reads
  have after := h.answer proper (by rw [same]; exact h.few) (Nat.le_refl n) answered
  rw [same] at after
  refine ⟨after, ?_⟩
  cases cached : c.isCached with
  | true =>
    obtain ⟨x', still, quiet⟩ := run_cached f d cached
    cases answered.symm.trans still
    exact ⟨fun _ => ⟨rfl, rfl⟩, quiet⟩
  | false =>
    refine ⟨fun cached => absurd cached Bool.false_ne_true, fun key expected found conflict => ?_⟩
    rw [h.eq_reply proper cached answered] at conflict
    have ahead := Shelf.isAheadOf_of_conflict conflict
    cases c with
    | fetch | fetchRecord | fetchRecords => exact ahead
    | register | replace | remove => cases reads

/-- What is read can be stored, and it comes from the cache or from the shelf. -/
lemma fetched (h : Outdated site n s f d) {name : SchemaName} {cached : Bool} {a : Aggregate}
    (answered : Disk.run (f.answer (.fetch name cached)) d = ((.ok (some a), f'), d')) :
    (a.IsNamed name ∧ a.IsStorable site.root ∧ a.lastVersion ≤ n) ∧
      (if cached then f.cache.get? name.fullName else s.find name) = some a := by
  have found : (Disk.run (f.answer (.fetch name cached)) d).1.1 = .ok (some a) := by rw [answered]
  obtain ⟨origin, named⟩ := h.recalls.fetched h.keeps h.tidy (fun a known => known.1) found
  refine ⟨⟨named, ?_⟩, ?_⟩
  · rcases origin with known | bound
    · exact known
    · exact ⟨(h.tidy _ a bound).1, h.few _ a bound⟩
  · cases cached with
    | true => exact Except.ok.inj found
    | false =>
      have proper : (StoreCall.fetch name false).IsProper := trivial
      exact Shelf.find_of_reply (h.eq_reply proper rfl answered).symm

/-- A write is answered by the shelf. If it comes too late, it changes nothing. -/
lemma write (h : Outdated site n s f d) (writes : c.isWrite = true) (fresh : c.IsFresh n)
    (answered : Disk.run (f.answer c) d = ((x, f'), d')) :
    Outdated site (n + 1) (s.reply site.root c).2 f' d' ∧ x = (s.reply site.root c).1 ∧
      (s.IsAheadOf c → f' = f ∧ d' = d) := by
  have few : (s.reply site.root c).2.HasFew (n + 1) := fun r a =>
    Shelf.lastVersion_reply fresh (h.few.mono (Nat.le_succ n))
  refine ⟨h.answer fresh.isProper few (Nat.le_succ n) answered,
    h.eq_reply fresh.isProper (StoreCall.isCached_write writes) answered, fun ahead => ?_⟩
  obtain ⟨x', still⟩ := h.recalls.run_ahead h.keeps h.tidy ahead
  cases answered.symm.trans still
  exact ⟨rfl, rfl⟩

end FileStore.Outdated

/-! ### Jobs that run alone -/

namespace Staff

variable {staff : Staff} {α : Type} {f f' : FileStore} {d d' : Disk} {t t' : staff.State}
  {mayAsk : List Talk → Request → Prop} {mayEnd : List Talk → α → Prop}
  {holds : List Talk → FileStore → Disk → Prop} {p : Program Collaborators α} {past : List Talk}
  {r : α}

/-- What each exchange of a program keeps up holds when the program ends. -/
lemma holds_translate
    (call : ∀ past f d (c : StoreCall) x f' d', holds past f d → mayAsk past (.store c) →
      Disk.run (f.answer c) d = ((x, f'), d') → holds (past ++ [⟨.store c, x⟩]) f' d')
    (other : ∀ past f d (q : Request) (x : q.Answer), (∀ c, q ≠ .store c) → holds past f d →
      mayAsk past q → holds (past ++ [⟨q, x⟩]) f d)
    (obeys : p.Obeys mayAsk mayEnd past) (start : holds past f d)
    (run : Disk.run (p.translate (J := FileSystem) staff.onFiles (f, t)) d = ((r, (f', t')), d')) :
    ∃ past', holds past' f' d' ∧ mayEnd past' r := by
  induction p generalizing past f t d with
  | done a =>
    cases run
    exact ⟨past, start, obeys⟩
  | ask q next ih =>
    by_cases store : ∃ c, q = .store c
    · obtain ⟨c, rfl⟩ := store
      obtain ⟨⟨⟨x, f₁⟩, d₁⟩, answered⟩ : ∃ y, Disk.run (f.answer c) d = y := ⟨_, rfl⟩
      exact ih x (obeys.2 x) (call past f d c x f₁ d₁ start obeys.1 answered)
        ((run_translate_call answered).symm.trans run)
    · have no_call (c : StoreCall) : q ≠ .store c := fun same => store ⟨c, same⟩
      rw [run_translate_other no_call] at run
      exact ih _ (obeys.2 _) (other past f d q _ no_call start obeys.1) run

end Staff

/-- The exchange is no write, and no other writer was reported in it. -/
def Exchange.IsCalm (x : Talk) : Prop :=
  ∀ c y, x = ⟨.store c, y⟩ →
    c.isWrite = false ∧ ∀ key expected found, y ≠ .error (.conflict key expected found)

lemma Exchange.isCalm_of_no_call {q : Request} (x : q.Answer) (other : ∀ c, q ≠ .store c) :
    Exchange.IsCalm ⟨q, x⟩ := by
  intro c y same
  exact absurd (congrArg Exchange.question same) (other c)

/-- What a job has heard that runs alone and has not written yet: what it has read comes from the
cache or from the shelf, as its registry is set. -/
structure Job.Heard (site : Site) (n : Nat) (j : Job) (s : Shelf) (f : FileStore)
    (past : List Talk) : Prop where
  calm : ∀ x ∈ past, x.IsCalm
  fetched : ∀ name cached a, (⟨.store (.fetch name cached), Except.ok (some a)⟩ : Talk) ∈ past →
    (a.IsNamed name ∧ a.IsStorable site.root ∧ a.lastVersion ≤ n) ∧
      (if j.registry.settings.cacheEnabled then f.cache.get? name.fullName else s.find name) =
        some a

/-- A job that runs alone has read, or it has written once. -/
inductive Job.Session (site : Site) (n : Nat) (j : Job) (s : Shelf) (f₀ : FileStore) (d₀ : Disk) :
    List Talk → FileStore → Disk → Prop
  | reading {past : List Talk} {f : FileStore} {d : Disk} (heard : j.Heard site n s f₀ past)
    (outdated : Outdated site n s f d)
    (still : j.registry.settings.cacheEnabled = true → f = f₀ ∧ d = d₀) :
    Session site n j s f₀ d₀ past f d
  | wrote {before later : List Talk} {c : StoreCall} {x : c.Answer} {f : FileStore} {d : Disk}
    (heard : j.Heard site n s f₀ before) (may : j.MayWrite before c)
    (answered : x = (s.reply site.root c).1)
    (outdated : Outdated site (n + 1) (s.reply site.root c).2 f d)
    (ahead : s.IsAheadOf c →
      later = [] ∧ (j.registry.settings.cacheEnabled = true → f = f₀ ∧ d = d₀))
    (calm : ∀ x ∈ later, x.IsCalm) :
    Session site n j s f₀ d₀ (before ++ ⟨.store c, x⟩ :: later) f d

namespace Job

variable {site : Site} {n : Nat} {j : Job} {s : Shelf} {f₀ f f' : FileStore} {d₀ d d' : Disk}
  {past : List Talk} {c : StoreCall} {x : c.Answer}

lemma MayWrite.isWrite (may : j.MayWrite past c) : c.isWrite = true := by
  cases may <;> rfl

/-- One more exchange, if it is heard. -/
lemma Heard.concat (h : j.Heard site n s f past) {t : Talk} (calm : t.IsCalm)
    (read : ∀ name cached a, t = ⟨.store (.fetch name cached), Except.ok (some a)⟩ →
      (a.IsNamed name ∧ a.IsStorable site.root ∧ a.lastVersion ≤ n) ∧
      (if j.registry.settings.cacheEnabled then f.cache.get? name.fullName else s.find name) =
        some a) :
    j.Heard site n s f (past ++ [t]) := by
  refine ⟨List.forall_mem_append.2 ⟨h.calm, by simpa using calm⟩, fun name cached a here => ?_⟩
  rcases List.mem_append.1 here with old | new
  · exact h.fetched name cached a old
  · exact read name cached a (List.mem_singleton.1 new).symm

/-- A read is heard that is served as the registry is set. -/
lemma Heard.read (h : j.Heard site n s f₀ past) (outdated : Outdated site n s f d)
    (still : j.registry.settings.cacheEnabled = true → f = f₀) (reads : c.isWrite = false)
    (set : c.isCached = j.registry.settings.cacheEnabled)
    (answered : Disk.run (f.answer c) d = ((x, f'), d')) :
    j.Heard site n s f₀ (past ++ [⟨.store c, x⟩]) := by
  refine h.concat ?_ fun name cached a read => ?_
  · rintro c' y ⟨⟩
    exact ⟨reads, (outdated.read reads answered).2.2⟩
  · injection read with question answer
    cases question
    cases eq_of_heq answer
    obtain ⟨sound, source⟩ := outdated.fetched answered
    refine ⟨sound, ?_⟩
    rw [← set]
    cases cached with
    | true =>
      rw [← still set.symm]
      exact source
    | false => exact source

namespace Session

/-- One more exchange after the write. Nothing is asked if the write has come too late. -/
lemma concat {before later : List Talk} {t : Talk} (heard : j.Heard site n s f₀ before)
    (may : j.MayWrite before c) (answered : x = (s.reply site.root c).1)
    (good : IsServed (before ++ ⟨.store c, x⟩ :: later))
    (outdated : Outdated site (n + 1) (s.reply site.root c).2 f d)
    (calm : ∀ x ∈ later, x.IsCalm) (more : t.IsCalm) :
    Session site n j s f₀ d₀ (before ++ ⟨.store c, x⟩ :: later ++ [t]) f d := by
  rw [List.append_assoc, List.cons_append]
  refine .wrote heard may answered outdated (fun late => ?_)
    (List.forall_mem_append.2 ⟨calm, by simpa using more⟩)
  cases x with
  | ok y => exact absurd answered.symm (late.reply_ne_ok y)
  | error e => exact absurd ⟨c, e, rfl⟩ (good ⟨.store c, Except.error e⟩ (by simp))

/-- The next call to the store. -/
lemma call (h : Session site n j s f₀ d₀ past f d) (small : n + 1 < Word.limit 64)
    (asks : j.Asks past (.store c)) (set : j.registry.ReadsAsSet (.store c))
    (answered : Disk.run (f.answer c) d = ((x, f'), d')) :
    Session site n j s f₀ d₀ (past ++ [⟨.store c, x⟩]) f' d' := by
  cases h with
  | reading heard outdated still =>
    cases writes : c.isWrite with
    | true =>
      have may := asks.1 c rfl writes
      obtain ⟨after, answer, ahead⟩ :=
        outdated.write writes (may.isFresh_of_reads (fun _ _ _ read => (heard.fetched _ _ _ read).1)
          small) answered
      refine .wrote heard may answer after (fun late => ⟨rfl, fun cached => ?_⟩) (by simp)
      obtain ⟨rfl, rfl⟩ := ahead late
      exact still cached
    | false =>
      obtain ⟨after, same, -⟩ := outdated.read writes answered
      have cached := set c rfl writes
      refine .reading (heard.read outdated (fun on => (still on).1) writes cached answered) after
        fun on => ?_
      obtain ⟨rfl, rfl⟩ := same (cached.trans on)
      exact still on
  | @wrote before later c₀ x₀ _ _ heard may answer outdated ahead calm =>
    have here : (⟨.store c₀, x₀⟩ : Talk) ∈ before ++ ⟨.store c₀, x₀⟩ :: later := by simp
    cases writes : c.isWrite with
    | true =>
      -- a job writes once
      have reads := (asks.1 c rfl writes).isQuiet _ here c₀ rfl
      rw [may.isWrite] at reads
      cases reads
    | false =>
      obtain ⟨after, -, quiet⟩ := outdated.read writes answered
      refine concat heard may answer asks.2 after calm ?_
      rintro c' y ⟨⟩
      exact ⟨writes, quiet⟩

/-- The next exchange with another collaborator. -/
lemma other (h : Session site n j s f₀ d₀ past f d) {q : Request} (x : q.Answer)
    (other : ∀ c, q ≠ .store c) (asks : j.Asks past q) :
    Session site n j s f₀ d₀ (past ++ [⟨q, x⟩]) f d := by
  have calm := Exchange.isCalm_of_no_call x other
  cases h with
  | reading heard outdated still =>
    refine .reading (heard.concat calm fun name cached a same => ?_) outdated still
    exact absurd (congrArg Exchange.question same) (other _)
  | wrote heard may answered outdated ahead calm' =>
    exact concat heard may answered asks.2 outdated calm' calm

/-- Whatever has happened, the files stand for a shelf. -/
lemma outdated (h : Session site n j s f₀ d₀ past f d) :
    ∃ s', Outdated site (n + 1) s' f d := by
  cases h with
  | reading heard outdated still => exact ⟨s, outdated.mono (Nat.le_succ n)⟩
  | wrote heard may answered outdated ahead calm => exact ⟨_, outdated⟩

end Session

/-- **A job that runs alone** has read, or it has written once; and it ends as jobs may. -/
lemma exists_session {staff : Staff} {t t' : staff.State} {r : Except Failure j.task.Result}
    (h : Outdated site n s f d) (small : n + 1 < Word.limit 64)
    (run : Disk.run (staff.serve j (f, t)) d = ((r, (f', t')), d')) :
    ∃ past, Session site n j s f d past f' d' ∧ j.MayEnd past r ∧
      ∀ e, r = .error e → e.IsDueTo past := by
  have obeys := (Program.Obeys.and j.obeys j.obeys_asks).and (Registry.explains_program j)
  have start : Session site n j s f d [] f d :=
    .reading ⟨by simp, by simp⟩ h fun _ => ⟨rfl, rfl⟩
  obtain ⟨past, session, ⟨ends, -⟩, due⟩ := Staff.holds_translate
    (fun _ _ _ _ _ _ _ before asks answered => before.call small asks.1.2 asks.2 answered)
    (fun _ _ _ _ x no_call before asks => before.other x no_call asks.1.2) obeys start run
  exact ⟨past, session, ends, due⟩

end Job

/-! ### Jobs that were overtaken -/

/-- The task writes when it has read this schema. -/
def Task.Alters : Task → Aggregate → Prop
  | .update _ _, _ => True
  | .delete _, _ => True
  | .compileArtifact _, current => current.currentArtifact = none
  | _, _ => False

/-- The job would change what is in the cache, and another revision of it is on the shelf. -/
structure Job.Overtaken (j : Job) (s : Shelf) (f : FileStore) (current b : Aggregate) : Prop where
  enabled : j.registry.settings.cacheEnabled = true
  cached : f.cache.get? j.task.name.fullName = some current
  stored : s.find j.task.name = some b
  other : b.revision ≠ current.revision
  alters : j.task.Alters current

namespace Job

variable {site : Site} {n : Nat} {j : Job} {s : Shelf} {f₀ f f' : FileStore} {d₀ d d' : Disk}
  {past : List Talk} {c : StoreCall} {current b : Aggregate} {r : Except Failure j.task.Result}

/-- What a job has read whose write came too late. -/
lemma MayWrite.of_isAheadOf (may : j.MayWrite past c) (late : s.IsAheadOf c) :
    ∃ current cached b,
      (⟨.store (.fetch j.task.name cached), Except.ok (some current)⟩ : Talk) ∈ past ∧
      s.find j.task.name = some b ∧ b.revision ≠ current.revision ∧ j.task.Alters current := by
  cases may with
  | register valid attached => exact late.elim
  | @update _ _ _ _ current _ _ _ _ _ valid next attached =>
    obtain ⟨b, found, other⟩ := late
    exact ⟨current, _, b,
      List.mem_append_left _ (List.mem_append_left _ Registry.fetch_mem_opening), found, other,
      trivial⟩
  | @delete _ _ _ current valid =>
    obtain ⟨b, found, other⟩ := late
    exact ⟨current, _, b, Registry.fetch_mem_opening, found, other, trivial⟩
  | @attach _ _ _ current _ valid on missing bound =>
    obtain ⟨b, found, other⟩ := late
    exact ⟨current, _, b, List.mem_append_left _ Registry.fetch_mem_opening, found, other, missing⟩

/-- The write of a job comes too late that was overtaken. -/
lemma MayWrite.isAheadOf (may : j.MayWrite past c) (passed : j.Overtaken s f current b)
    (reads : ∀ cached a, (⟨.store (.fetch j.task.name cached), Except.ok (some a)⟩ : Talk) ∈ past →
      a = current) : s.IsAheadOf c := by
  cases may with
  | register valid attached => exact passed.alters.elim
  | update valid next attached =>
    have same := reads _ _
      (List.mem_append_left _ (List.mem_append_left _ Registry.fetch_mem_opening))
    exact ⟨b, passed.stored, same ▸ passed.other⟩
  | delete valid => exact ⟨b, passed.stored, reads _ _ Registry.fetch_mem_opening ▸ passed.other⟩
  | attach valid on missing bound =>
    have same := reads _ _ (List.mem_append_left _ Registry.fetch_mem_opening)
    exact ⟨b, passed.stored, same ▸ passed.other⟩

/-- A job that succeeds has written, if it writes when it has read this schema. -/
lemma MayEnd.exists_write {x : j.task.Result} (ends : j.MayEnd past (.ok x))
    (alters : j.task.Alters current)
    (reads : ∀ cached a, (⟨.store (.fetch j.task.name cached), Except.ok (some a)⟩ : Talk) ∈ past →
      a = current) :
    ∃ (c : StoreCall) (y : c.Result), (⟨.store c, Except.ok y⟩ : Talk) ∈ past ∧
      c.isWrite = true := by
  obtain ⟨registry, actor, task⟩ := j
  cases task with
  | register | get | getBySubject | listBySubject => exact alters.elim
  | update name request =>
    obtain ⟨before, a, expected, -, rfl, -⟩ := ends
    exact ⟨.replace name a expected, (), by simp, rfl⟩
  | delete name =>
    obtain ⟨-, a, rfl, -⟩ := ends
    exact ⟨.remove name a.revision, (), by simp, rfl⟩
  | compileArtifact name =>
    obtain ⟨-, -, a, ⟨rfl, here⟩ | ⟨-, -, rfl⟩⟩ := ends
    · have same := reads _ _ Registry.fetch_mem_opening
      have missing : current.currentArtifact = none := alters
      rw [← same, here] at missing
      cases missing
    · exact ⟨.replace name (a.withArtifact x) a.revision, (), by simp, rfl⟩

namespace Session

/-- **A job in which a conflict was reported was overtaken**, and it has changed nothing. -/
lemma overtaken (h : Session site n j s f₀ d₀ past f d) {key : String} {expected found : Revision}
    (conflict : (⟨.store c, Except.error (.conflict key expected found)⟩ : Talk) ∈ past) :
    (∃ current b, j.Overtaken s f₀ current b) ∧ f = f₀ ∧ d = d₀ := by
  cases h with
  | reading heard outdated still =>
    exact absurd rfl ((heard.calm _ conflict c _ rfl).2 key expected found)
  | wrote heard may answered outdated ahead calm =>
    rcases List.mem_append.1 conflict with first | rest
    · exact absurd rfl ((heard.calm _ first c _ rfl).2 key expected found)
    · rcases List.mem_cons.1 rest with here | last
      · cases here
        have late := Shelf.isAheadOf_of_conflict answered.symm
        obtain ⟨current, cached, b, read, stored, other, alters⟩ := may.of_isAheadOf late
        obtain ⟨-, source⟩ := heard.fetched _ _ _ read
        cases enabled : j.registry.settings.cacheEnabled with
        | true =>
          rw [enabled] at source
          exact ⟨⟨current, b, enabled, source, stored, other, alters⟩, (ahead late).2 enabled⟩
        | false =>
          -- without the cache the job has read what is on the shelf
          rw [enabled] at source
          cases stored.symm.trans source
          exact absurd rfl other
      · exact absurd rfl ((calm _ last c _ rfl).2 key expected found)

/-- **A job fails that was overtaken**, and it changes nothing. -/
lemma of_overtaken (h : Session site n j s f₀ d₀ past f d) (passed : j.Overtaken s f₀ current b)
    (ends : j.MayEnd past r) : (∃ e, r = .error e) ∧ f = f₀ ∧ d = d₀ := by
  have reads {past : List Talk} (heard : j.Heard site n s f₀ past) (cached : Bool) (a : Aggregate)
      (read : (⟨.store (.fetch j.task.name cached), Except.ok (some a)⟩ : Talk) ∈ past) :
      a = current := by
    obtain ⟨-, source⟩ := heard.fetched _ _ _ read
    rw [if_pos passed.enabled, passed.cached] at source
    exact (Option.some.inj source).symm
  cases h with
  | reading heard outdated still =>
    refine ⟨?_, still passed.enabled⟩
    cases r with
    | error e => exact ⟨e, rfl⟩
    | ok x =>
      obtain ⟨c, y, here, writes⟩ := ends.exists_write passed.alters (reads heard)
      rw [(heard.calm _ here c _ rfl).1] at writes
      cases writes
  | @wrote before later c x _ _ heard may answered outdated ahead calm =>
    have late := may.isAheadOf passed (reads heard)
    obtain ⟨rfl, still⟩ := ahead late
    refine ⟨?_, still passed.enabled⟩
    cases r with
    | error e => exact ⟨e, rfl⟩
    | ok result =>
      obtain ⟨c', y, here, writes⟩ := ends.exists_write passed.alters fun cached a read => by
        rcases List.mem_append.1 read with old | new
        · exact reads heard cached a old
        · cases List.mem_singleton.1 new
          cases may.isWrite
      rcases List.mem_append.1 here with old | new
      · rw [(heard.calm _ old c' _ rfl).1] at writes
        cases writes
      · cases List.mem_singleton.1 new
        exact absurd answered.symm (late.reply_ne_ok y)

end Session

/-- However often the job is run again, it fails, and it changes nothing. -/
def IsStuck (j : Job) (f : FileStore) (d : Disk) : Prop :=
  ∀ (staff : Staff) (t : staff.State), ∃ e t',
    Disk.run (staff.serve j (f, t)) d = ((.error e, (f, t')), d)

/-- A job that was overtaken is stuck. -/
lemma Overtaken.isStuck (passed : j.Overtaken s f current b) (h : Outdated site n s f d)
    (small : n + 1 < Word.limit 64) : j.IsStuck f d := by
  intro staff t
  obtain ⟨⟨⟨r, f', t'⟩, d'⟩, run⟩ : ∃ x, Disk.run (staff.serve j (f, t)) d = x := ⟨_, rfl⟩
  obtain ⟨past, session, ends, -⟩ := exists_session h small run
  obtain ⟨⟨e, rfl⟩, rfl, rfl⟩ := session.of_overtaken passed ends
  exact ⟨e, t', run⟩

/-- A job is not overtaken if what is on the shelf has just been read. -/
lemma not_overtaken_remember (tidy : s.IsTidy site.root) (stored : s.find j.task.name = some b)
    {b' : Aggregate} : ¬j.Overtaken s (f.remember b) current b' := by
  intro passed
  cases passed.stored.symm.trans stored
  have cached := passed.cached
  rw [FileStore.remember, Dictionary.get?_insert, if_pos (tidy.fullName stored).symm] at cached
  cases cached
  exact passed.other rfl

/-- A job is overtaken that fails with a conflict. -/
lemma overtaken_of_conflict {staff : Staff} {t t' : staff.State} {e : Failure}
    (h : Outdated site n s f d) (small : n + 1 < Word.limit 64)
    (run : Disk.run (staff.serve j (f, t)) d = ((.error e, (f', t')), d'))
    (retryable : e.isRetryable = true) :
    (∃ current b, j.Overtaken s f current b) ∧ f' = f ∧ d' = d := by
  obtain ⟨past, session, -, due⟩ := exists_session h small run
  obtain ⟨c, key, expected, found, conflict⟩ := (due e rfl).conflict retryable
  exact session.overtaken conflict

end Job

/-! ### Running a job again -/

namespace Fleet

variable {site : Site} {n : Nat} {F : Fleet} {s : Shelf}

/-- What jobs make of stores in an empty folder that are served one after the other, each by some
store and by some staff. In between stores are opened again. There were `n` of both. -/
inductive Visited (site : Site) : Nat → Fleet → Prop
  | start : Visited site 0 (.start site)
  | served {n : Nat} {F : Fleet} {i : Nat} {staff : Staff} {j : Job} {t t' : staff.State}
    {r : Except Failure j.task.Result} {f : FileStore} {d : Disk} (before : Visited site n F)
    (run : Disk.run (staff.serve j (F.stores i, t)) F.disk = ((r, (f, t')), d)) :
    Visited site (n + 1) { F with disk := d, stores := Function.update F.stores i f }
  | reopened {n : Nat} {F : Fleet} (i : Nat) (before : Visited site n F) :
    Visited site (n + 1) (F.reopen i)

/-- Each store is out of date at most. -/
lemma Shares.outdated
    (h : Shares site s (fun a => a.IsStorable site.root ∧ a.lastVersion ≤ n) F)
    (few : s.HasFew n) (i : Nat) : Outdated site n s (F.stores i) F.disk :=
  ⟨h.keeps, h.tidy, few, h.recalls i⟩

/-- The files stand for a shelf, and the caches hold nothing but what could be stored. -/
lemma Visited.shares (visited : Visited site n F) (small : n < Word.limit 64) :
    ∃ s : Shelf, s.HasFew n ∧
      Shares site s (fun a => a.IsStorable site.root ∧ a.lastVersion ≤ n) F := by
  induction visited with
  | start => exact ⟨Shelf.empty, Shelf.hasFew_empty 0, .start site⟩
  | @served n F i staff j t t' r f d before run ih =>
    obtain ⟨s, few, shares⟩ := ih (by omega)
    obtain ⟨past, session, -, -⟩ := Job.exists_session (shares.outdated few i) small run
    obtain ⟨s', after⟩ := session.outdated
    exact ⟨s', after.few, shares.replace i after.keeps after.tidy
      (fun a known => ⟨known.1, known.2.trans (Nat.le_succ n)⟩) after.recalls⟩
  | @reopened n F i before ih =>
    obtain ⟨s, few, shares⟩ := ih (by omega)
    refine ⟨s, few.mono (Nat.le_succ n), (shares.reopen i).mono fun a known => ?_⟩
    rcases known with ⟨storable, old⟩ | bound
    · exact ⟨storable, old.trans (Nat.le_succ n)⟩
    · exact ⟨(shares.tidy _ a bound).1, (few _ a bound).trans (Nat.le_succ n)⟩

/-- **A conflict repeats itself.** A job that fails with a conflict has read from a cache that is
out of date, and it leaves the cache as it is. The same job then fails again, with the same conflict
if it is told the same, and never succeeds. Only when its schema was read once without the cache, it
meets with no conflict any more. -/
theorem Visited.conflict_repeats {i : Nat} {j : Job} {staff : Staff} {t t' : staff.State}
    {e : Failure} {f : FileStore} {d : Disk} (visited : Visited site n F)
    (small : n + 1 < Word.limit 64)
    (failed : Disk.run (staff.serve j (F.stores i, t)) F.disk = ((.error e, (f, t')), d))
    (retryable : e.isRetryable = true) :
    j.registry.settings.cacheEnabled = true ∧
      Disk.run (staff.serve j (f, t)) d = ((.error e, (f, t')), d) ∧ j.IsStuck f d ∧
      ∀ x f₁ d₁, Disk.run (f.answer (.fetch j.task.name false)) d = ((x, f₁), d₁) →
        ∀ (staff : Staff) t t' e' f₂ d₂,
          Disk.run (staff.serve j (f₁, t)) d₁ = ((.error e', (f₂, t')), d₂) →
          e'.isRetryable = false := by
  obtain ⟨s, few, shares⟩ := visited.shares (by omega)
  have outdated := shares.outdated few i
  obtain ⟨⟨current, b, passed⟩, rfl, rfl⟩ :=
    Job.overtaken_of_conflict outdated small failed retryable
  refine ⟨passed.enabled, failed, passed.isStuck outdated small, ?_⟩
  intro x f₁ d₁ read staff t t' e' f₂ d₂ run
  have direct := outdated.recalls.run_fetch outdated.keeps outdated.tidy passed.stored
  obtain ⟨fresh, -, -⟩ := outdated.read rfl read
  cases read.symm.trans direct
  by_contra again
  obtain ⟨⟨current', b', passed'⟩, -, -⟩ :=
    Job.overtaken_of_conflict fresh small run (by simpa using again)
  exact Job.not_overtaken_remember outdated.tidy passed.stored passed'

end Fleet

namespace Rehearsal

/-- The shelf after the schema was changed. -/
def restocked : Shelf :=
  Function.update stocked orders.subjectRef (some changed)

/-- An update fails with a conflict that starts from the registered schema, when the file has
the changed one. -/
lemma run_stale_update {f : FileStore} {d : Disk} {known : Aggregate → Prop}
    (recalls : f.Recalls site.root known) (keeps : site.Keeps restocked d)
    (tidy : restocked.IsTidy site.root)
    (cached : f.cache.get? orders.fullName = some registered) (t : UInt64) :
    Disk.run (staff.serve (job (.update orders change)) (f, t)) d =
      ((.error (.conflict orders.fullName 1), (f, t)), d) := by
  have fetched : Disk.run (f.answer (.fetch orders true)) d = ((.ok (some registered), f), d) := by
    rw [← cached]
    rfl
  have refused : Disk.run (f.answer (.replace orders changed registered.revision)) d =
      ((.error (.conflict orders.fullName registered.revision changed.revision), f), d) := by
    have ahead : restocked.IsAheadOf (.replace orders changed registered.revision) :=
      ⟨changed, rfl, by decide⟩
    have sound : (StoreCall.replace orders changed registered.revision).IsSound site.root :=
      ⟨⟨rfl, rfl, rfl⟩, isStorable_changed⟩
    obtain ⟨x, unchanged⟩ := recalls.run_ahead keeps tidy ahead
    obtain ⟨x', f', d', answered, -, -, honest⟩ := recalls.answer keeps tidy sound.isProper
    cases unchanged.symm.trans answered
    rw [unchanged, honest rfl]
    rfl
  refine (Staff.run_translate_other (by simp)).trans ?_
  refine (Staff.run_translate_call fetched).trans ?_
  refine (Staff.run_translate_other (by simp)).trans ?_
  refine (Staff.run_translate_other (by simp)).trans ?_
  refine (Staff.run_translate_other (by simp)).trans ?_
  exact Staff.run_translate_call refused

/-- The first store registers the schema, and the second one is opened and changes it. Then an
update at the first store fails with a conflict. -/
lemma conflict_at_first_store :
    ∃ F, Fleet.Visited site 3 F ∧
      Disk.run (staff.serve (job (.update orders change)) (F.stores 0, (8 : UInt64))) F.disk =
        ((.error (.conflict orders.fullName 1), (F.stores 0, (8 : UInt64))), F.disk) := by
  obtain ⟨f, d, opened, represents⟩ := represents_open site
  have visited₀ : Fleet.Visited site 0 ⟨site.root, d, fun _ => f, 0⟩ := by
    have empty : Fleet.Visited site 0 (Fleet.start site) := .start
    rwa [Fleet.start, opened] at empty
  have tidy₀ : Shelf.empty.IsTidy site.root := Shelf.isTidy_empty
  let seven : staff.State := (7 : UInt64)
  let eight : staff.State := (8 : UInt64)
  -- the first store registers the schema
  obtain ⟨f₁, d₁, registers, represents₁⟩ := Staff.run_serve (t := seven)
    (j := job (.register orders registration)) (Shelf.hasFew_empty 0) tidy₀ (by decide) represents
  obtain ⟨tidy₁, few₁⟩ := Staff.work_program (t := seven)
    (j := job (.register orders registration)) (Shelf.hasFew_empty 0) tidy₀ (by decide)
  -- the second one is opened and changes it
  obtain ⟨g, opened₁, represents₂⟩ := reopen represents₁.disk tidy₁
  obtain ⟨g', d₂, changes, represents₃⟩ := Staff.run_serve (t := eight)
    (j := job (.update orders change)) few₁ tidy₁ (by decide) represents₂
  obtain ⟨tidy₂, -⟩ := Staff.work_program (t := eight)
    (j := job (.update orders change)) few₁ tidy₁ (by decide)
  have visited₁ : Fleet.Visited site 1 ⟨site.root, d₁, Function.update (fun _ => f) 0 f₁, 0⟩ :=
    .served (i := 0) visited₀ registers
  have reopened : Fleet.reopen ⟨site.root, d₁, Function.update (fun _ => f) 0 f₁, 0⟩ 1 =
      ⟨site.root, d₁, Function.update (Function.update (fun _ => f) 0 f₁) 1 g, 0⟩ := by
    rw [Fleet.reopen, opened₁]
  have visited₂ := reopened ▸ visited₁.reopened 1
  exact ⟨_, .served (i := 1) visited₂ changes, run_stale_update represents₁.recalls
    represents₃.disk tidy₂ (represents₁.get? tidy₁.isNeat orders) 8⟩

end Rehearsal

open Rehearsal

/-- The conflict of the rehearsal repeats itself, until the schema is read once without the
cache. -/
theorem Fleet.conflict_of_orders :
    ∃ F e f t d, Visited site 3 F ∧ 3 + 1 < Word.limit 64 ∧
      Disk.run (staff.serve (job (.update orders change)) (F.stores 0, (8 : UInt64))) F.disk =
        ((.error e, (f, t)), d) ∧ e.isRetryable = true ∧
      (job (.update orders change)).registry.settings.cacheEnabled = true ∧
      Disk.run (staff.serve (job (.update orders change)) (f, (8 : UInt64))) d =
        ((.error e, (f, t)), d) ∧
      (job (.update orders change)).IsStuck f d ∧
      ∀ x f₁ d₁, Disk.run (f.answer (.fetch orders false)) d = ((x, f₁), d₁) →
        ∀ (staff : Staff) t t' e' f₂ d₂,
          Disk.run (staff.serve (job (.update orders change)) (f₁, t)) d₁ =
            ((.error e', (f₂, t')), d₂) → e'.isRetryable = false := by
  obtain ⟨F, visited, failed⟩ := conflict_at_first_store
  exact ⟨F, _, _, _, _, visited, by decide, failed, rfl,
    visited.conflict_repeats (by decide) failed rfl⟩

/-- **An update fails twice with one conflict**: it may be run again, says its failure, but in the
state that it leaves it fails like this again. -/
theorem Fleet.conflict_met_twice :
    ∃ F e f t d, Visited site 3 F ∧
      (job (.update orders change)).registry.settings.cacheEnabled = true ∧
      Disk.run (staff.serve (job (.update orders change)) (F.stores 0, (8 : UInt64))) F.disk =
        ((.error e, (f, t)), d) ∧ e.isRetryable = true ∧
      Disk.run (staff.serve (job (.update orders change)) (f, t)) d = ((.error e, (f, t)), d) := by
  obtain ⟨F, visited, failed⟩ := conflict_at_first_store
  exact ⟨F, _, _, _, _, visited, rfl, failed, rfl, failed⟩

end SchemaLedger
