import SchemaLedger.Proofs.Dialogue.Reasons
import SchemaLedger.Proofs.Store.Opening

/-!
What a store does whose cache is out of date.

* `Program.Alike`: two programs ask the same questions, and end alike if they are answered alike.
* `FileStore.alike_answer`: but for reads that are served from a cache, stores with one root and
  different caches ask the file system the same, give the same answers and remember the same.
* `FileStore.Recalls`: nothing is known of a cache but which schemas can be in it. Other stores may
  have replaced or removed them in the meantime.
* `FileStore.Recalls.answer`: such a store writes as a store would that was opened just now, because
  writes and reads without the cache do not look at it.
* `FileStore.Recalls.run_ahead`: a write that comes too late changes neither the files nor the cache.
-/

namespace SchemaLedger

/-- Two programs ask the same questions, and end with related results if they are answered alike. -/
inductive Program.Alike {I : Interface} {α β : Type} (r : α → β → Prop) :
    Program I α → Program I β → Prop
  | done {a : α} {b : β} (related : r a b) : Alike r (.done a) (.done b)
  | ask {q : I.Ask} {next : I.Answer q → Program I α} {next' : I.Answer q → Program I β}
    (rest : ∀ x, Alike r (next x) (next' x)) : Alike r (.ask q next) (.ask q next')

namespace Program.Alike

variable {I : Interface} {α β γ δ : Type} {r : α → β → Prop} {r' : γ → δ → Prop}

/-- A program is like itself. -/
lemma refl {r : α → α → Prop} (same : ∀ a, r a a) (p : Program I α) : Alike r p p := by
  induction p with
  | done a => exact .done (same a)
  | ask q next ih => exact .ask ih

/-- One part after the other. -/
lemma bind {p : Program I α} {p' : Program I β} {f : α → Program I γ} {f' : β → Program I δ}
    (first : Alike r p p') (second : ∀ a b, r a b → Alike r' (f a) (f' b)) :
    Alike r' (p.bind f) (p'.bind f') := by
  induction first with
  | done related => exact second _ _ related
  | ask _ ih => exact .ask ih

/-- On a disk, programs that are alike end alike and leave the same disk. -/
lemma run {p : Program FileSystem α} {p' : Program FileSystem β} (h : Alike r p p') (d : Disk) :
    r (Disk.run p d).1 (Disk.run p' d).1 ∧ (Disk.run p d).2 = (Disk.run p' d).2 := by
  induction h generalizing d with
  | done related => exact ⟨related, rfl⟩
  | ask _ ih => exact ih _ _

end Program.Alike

namespace FileStore

open Storing

variable {α β : Type} {f g : FileStore} {name : SchemaName} {a : Aggregate} {expected : Revision}

/-- Two results are the same failure, or related. -/
inductive Matches (r : α → β → Prop) : Except StoreError α → Except StoreError β → Prop
  | ok {a : α} {b : β} (related : r a b) : Matches r (.ok a) (.ok b)
  | error (e : StoreError) : Matches r (.error e) (.error e)

/-- Two programs of stores ask the same questions, and fail alike or end with related results. -/
def Parallel (r : α → β → Prop) (p : Storing α) (p' : Storing β) : Prop :=
  Program.Alike (Matches r) p.run p'.run

namespace Parallel

variable {γ δ : Type} {r : α → β → Prop} {r' : γ → δ → Prop}

lemma pure {a : α} {b : β} (related : r a b) : Parallel r (pure a) (pure b) :=
  .done (.ok related)

lemma throw (e : StoreError) : Parallel r (throw e) (throw e) :=
  .done (.error e)

/-- One part after the other. -/
lemma bind {p : Storing α} {p' : Storing β} {f : α → Storing γ} {f' : β → Storing δ}
    (first : Parallel r p p') (second : ∀ a b, r a b → Parallel r' (f a) (f' b)) :
    Parallel r' (p >>= f) (p' >>= f') := by
  refine Program.Alike.bind first fun x y related => ?_
  cases related with
  | ok related => exact second _ _ related
  | error e => exact .done (.error e)

/-- A part that is the same in both programs. -/
lemma after (p : Storing α) {f : α → Storing γ} {f' : α → Storing δ}
    (rest : ∀ a, Parallel r' (f a) (f' a)) : Parallel r' (p >>= f) (p >>= f') := by
  have same : Parallel (fun a b => a = b) p p := by
    refine Program.Alike.refl (fun x => ?_) p.run
    cases x with
    | ok a => exact .ok rfl
    | error e => exact .error e
  refine same.bind fun a b related => ?_
  subst related
  exact rest a

end Parallel

/-- A store has its root still, and its cache has nothing that was not there before or is not in
another store's cache. -/
structure TakesIn (f f' g : FileStore) : Prop where
  root : f'.root = f.root
  cache : ∀ e ∈ f'.cache.entries, e ∈ f.cache.entries ∨ e ∈ g.cache.entries

lemma TakesIn.refl (f g : FileStore) : TakesIn f f g :=
  ⟨rfl, fun _ he => .inl he⟩

/-- What is remembered is what the other store remembers. -/
lemma TakesIn.remember (f g : FileStore) (a : Aggregate) :
    TakesIn f (f.remember a) (g.remember a) := by
  refine ⟨rfl, fun e he => ?_⟩
  rcases List.mem_append.1 he with old | new
  · exact .inl (List.mem_of_mem_filter old)
  · exact .inr (List.mem_append_right _ new)

/-- Nothing is remembered. -/
lemma TakesIn.forget {root : Path} (same : root = f.root) (key : String) (g : FileStore) :
    TakesIn f { f with root := root, cache := f.cache.erase key } g :=
  ⟨same, fun _ he => .inl (List.mem_of_mem_filter he)⟩

variable (same : f.root = g.root)
include same

lemma readFile_congr (name : SchemaName) : f.readFile name = g.readFile name := by
  rw [readFile, readFile, same]

lemma bound_congr (name : SchemaName) : f.bound name false = g.bound name false := by
  rw [bound, bound, same]
  rfl

lemma parallel_register (name : SchemaName) (a : Aggregate) :
    Parallel (TakesIn f) (f.register name a) (g.register name a) := by
  rw [register, register, same]
  refine .after _ fun path => .after _ fun there => ?_
  cases there with
  | true =>
    have never : Parallel (fun _ _ : Unit => False) (throw (.alreadyStored name.fullName))
      (throw (.alreadyStored name.fullName)) := .throw _
    exact never.bind fun _ _ related => related.elim
  | false =>
    refine .after _ fun folder => .after _ fun other => ?_
    cases other with
    | some other => exact .throw _
    | none => exact .after _ fun _ => .pure (.remember f g a)

lemma parallel_replace (name : SchemaName) (a : Aggregate) (expected : Revision) :
    Parallel (TakesIn f) (f.replace name a expected) (g.replace name a expected) := by
  rw [replace, replace, readFile_congr same, same]
  exact .after _ fun _ => .after _ fun _ => .after _ fun _ => .after _ fun _ =>
    .pure (.remember f g a)

lemma parallel_remove (name : SchemaName) (expected : Revision) :
    Parallel (TakesIn f) (f.remove name expected) (g.remove name expected) := by
  rw [remove, remove, readFile_congr same, same]
  refine .after _ fun _ => .after _ fun _ => .after _ fun _ => .after _ fun _ => .after _ fun _ =>
    .after _ fun entries => ?_
  split
  · exact .after _ fun _ => .pure (.forget same.symm _ _)
  · exact .pure (.forget same.symm _ _)

lemma parallel_fetch (name : SchemaName) :
    Parallel (fun x y => x.1 = y.1 ∧ TakesIn f x.2 y.2) (f.fetch name false)
      (g.fetch name false) := by
  rw [fetch, fetch, readFile_congr same]
  refine .after _ fun found => ?_
  cases found with
  | some a => exact .pure ⟨rfl, .remember f g a⟩
  | none => exact .pure ⟨rfl, .refl f g⟩

omit same in
/-- What a store keeps of a program that is like another store's. -/
lemma alike_keep {p p' : Storing (α × FileStore)}
    (h : Parallel (fun x y => x.1 = y.1 ∧ TakesIn f x.2 y.2) p p') :
    Program.Alike (fun x y => x.1 = y.1 ∧ TakesIn f x.2 y.2) (f.keep p) (g.keep p') := by
  refine Program.Alike.bind h fun x y related => ?_
  cases related with
  | @ok x y related =>
    obtain ⟨result, store⟩ := related
    exact .done ⟨congrArg Except.ok result, store⟩
  | error e => exact .done ⟨rfl, .refl f g⟩

/-- **The cache plays no part** but for reads that are served from it: stores with one root ask the
file system the same, give the same answers, and take in the same. -/
lemma alike_answer {c : StoreCall} (direct : c.isCached = false) :
    Program.Alike (fun x y => x.1 = y.1 ∧ TakesIn f x.2 y.2) (f.answer c) (g.answer c) := by
  cases c with
  | fetch name cached =>
    cases direct
    exact alike_keep (parallel_fetch same name)
  | fetchRecord name cached =>
    cases direct
    rw [answer, answer, bound_congr same]
    refine alike_keep (.after _ fun found => ?_)
    cases found with
    | some a => exact .after _ fun record => .pure ⟨rfl, .refl f g⟩
    | none => exact .pure ⟨rfl, .refl f g⟩
  | fetchRecords name cached =>
    cases direct
    rw [answer, answer, bound_congr same]
    exact alike_keep (.after _ fun found => .pure ⟨rfl, .refl f g⟩)
  | register name a =>
    exact alike_keep ((parallel_register same name a).bind fun _ _ store => .pure ⟨rfl, store⟩)
  | replace name a expected =>
    exact alike_keep ((parallel_replace same name a expected).bind fun _ _ store =>
      .pure ⟨rfl, store⟩)
  | remove name expected =>
    exact alike_keep ((parallel_remove same name expected).bind fun _ _ store =>
      .pure ⟨rfl, store⟩)

omit same

/-! ### A store whose cache is out of date -/

/-- Nothing but known schemas is in the cache, each under its full name. -/
structure Recalls (root : Path) (known : Aggregate → Prop) (f : FileStore) : Prop where
  root : f.root = root
  cached : ∀ key a, (key, a) ∈ f.cache.entries → key = a.name.fullName ∧ known a

variable {root : Path} {site : Site} {s : Shelf} {d d' : Disk} {f' : FileStore} {c : StoreCall}
  {known known' : Aggregate → Prop}

/-- A store that stands for a shelf knows nothing but what is bound there. -/
lemma Represents.recalls (h : Represents site f d s) :
    f.Recalls site.root fun a => s a.name.subjectRef = some a :=
  ⟨h.root, fun key a => (h.cache key a).1⟩

lemma Recalls.mono (h : f.Recalls root known) (still : ∀ a, known a → known' a) :
    f.Recalls root known' :=
  ⟨h.root, fun key a here => ⟨(h.cached key a here).1, still a (h.cached key a here).2⟩⟩

/-- What is in the cache has the name under which it is looked for. -/
lemma Recalls.get? (h : f.Recalls site.root known)
    (storable : ∀ a, known a → a.IsStorable site.root)
    (found : f.cache.get? name.fullName = some a) : known a ∧ a.IsNamed name := by
  obtain ⟨key, knows⟩ := h.cached name.fullName a (Dictionary.mem_entries_of_get? found)
  have own := (storable a knows).name
  have plain := own.hasPlainScope.of_fullName own.schema.no_slash key
  obtain ⟨ref, schema⟩ := SchemaName.unversioned_eq_iff.1
    (SchemaName.unversioned_eq_of_fullName plain own.hasPlainScope key)
  obtain ⟨tenant, subject⟩ := SchemaName.eq_subjectRef_iff.1 ref
  exact ⟨knows, tenant.symm, subject.symm, schema.symm⟩

/-- A read that is served from the cache changes nothing, and reports no other writer. -/
lemma run_cached (f : FileStore) (d : Disk) (cached : c.isCached = true) :
    ∃ x, Disk.run (f.answer c) d = ((x, f), d) ∧
      ∀ key expected found, x ≠ .error (.conflict key expected found) := by
  cases c with
  | fetch name cached' =>
    cases cached
    exact ⟨_, rfl, fun _ _ _ conflict => by cases conflict⟩
  | fetchRecord name cached' =>
    cases cached
    generalize held : (f.cache.findValue? fun a => a.name.subjectKey == name.subjectKey) = found
    have bound : d.Runs (f.bound name true) (.ok found) d := held ▸ .pure d _
    cases found with
    | none =>
      exact ⟨.ok none, run_keep_ok (bound.bind (.pure d (none, f))),
        fun _ _ _ conflict => by cases conflict⟩
    | some a =>
      refine ⟨selectRecord a name, ?_, Shelf.selectRecord_ne_conflict a name⟩
      cases selected : selectRecord a name with
      | ok r =>
        exact run_keep_ok (bound.bind ((runs_known d selected).bind (.pure d (r, f))))
      | error e => exact run_keep_error (bound.bind (runs_known d selected).fail)
  | fetchRecords name cached' =>
    cases cached
    exact ⟨_, rfl, fun _ _ _ conflict => by cases conflict⟩
  | register name a => cases cached
  | replace name a expected => cases cached
  | remove name expected => cases cached

/-- **A store whose cache is out of date** leaves the files as a shelf would be left. It answers as
the shelf does, unless it answers from its cache; and it comes to know nothing but what is on the
shelf then. -/
theorem Recalls.answer (h : f.Recalls site.root known) (keeps : site.Keeps s d)
    (tidy : s.IsTidy site.root) (proper : c.IsProper) :
    ∃ x f' d', Disk.run (f.answer c) d = ((x, f'), d') ∧ site.Keeps (s.reply site.root c).2 d' ∧
      f'.Recalls site.root
        (fun a => known a ∨ (s.reply site.root c).2 a.name.subjectRef = some a) ∧
      (c.isCached = false → x = (s.reply site.root c).1) := by
  cases cached : c.isCached with
  | true =>
    obtain ⟨x, read, -⟩ := run_cached f d cached
    have reads : c.isWrite = false := by cases c <;> first | rfl | cases cached
    rw [s.reply_read site.root reads]
    exact ⟨x, f, d, read, keeps, h.mono fun _ => .inl, fun direct => by cases direct⟩
  | false =>
    -- the store does as one that was opened just now
    obtain ⟨g, -, represents⟩ := reopen keeps tidy
    obtain ⟨g', d', answered, after⟩ := represents.reply tidy proper
    obtain ⟨⟨same, store⟩, disk⟩ :=
      (alike_answer (h.root.trans represents.root.symm) cached).run d
    rw [answered] at same store disk
    refine ⟨_, _, _, rfl, disk ▸ after.disk, ⟨store.root.trans h.root, fun key a here => ?_⟩,
      fun _ => same⟩
    rcases store.cache (key, a) here with old | fresh
    · exact ⟨(h.cached key a old).1, .inl (h.cached key a old).2⟩
    · obtain ⟨own, bound⟩ := (after.cache key a).1 fresh
      exact ⟨own, .inr bound⟩

/-- A read without the cache puts into the cache what it finds. -/
lemma Recalls.run_fetch (h : f.Recalls site.root known) (keeps : site.Keeps s d)
    (tidy : s.IsTidy site.root) (found : s.find name = some a) :
    Disk.run (f.answer (.fetch name false)) d = ((.ok (some a), f.remember a), d) := by
  obtain ⟨g, -, represents⟩ := reopen keeps tidy
  obtain ⟨hn, -⟩ := tidy.hasFile found
  have read := represents.runs_readFile_plain tidy hn.isPlain hn.schema
  rw [found, readFile_congr (represents.root.trans h.root.symm)] at read
  exact run_keep_ok (read.bind (.pure d _))

/-- A write that expects another revision than the one in the file changes nothing. -/
lemma Recalls.run_ahead (h : f.Recalls site.root known) (keeps : site.Keeps s d)
    (tidy : s.IsTidy site.root) (ahead : s.IsAheadOf c) :
    ∃ x, Disk.run (f.answer c) d = ((x, f), d) := by
  obtain ⟨g, -, represents⟩ := reopen keeps tidy
  have stale {name : SchemaName} {b : Aggregate} {expected : Revision}
      {rest : Unit → Storing FileStore} (found : s.find name = some b)
      (other : b.revision ≠ expected) :
      d.Runs (do rest (← Storing.known (checkRevision name.fullName (← f.readFile name) expected)))
        (.error (.conflict name.fullName expected b.revision)) d := by
    obtain ⟨hn, -⟩ := tidy.hasFile found
    rw [← readFile_congr (represents.root.trans h.root.symm)]
    refine represents.runs_stale tidy.isNeat hn.isPlain hn.schema (tidy.verify_find _) ?_
    rw [found, checkRevision, if_neg other]
  cases c with
  | fetch | fetchRecord | fetchRecords | register => exact ahead.elim
  | replace name a expected =>
    obtain ⟨b, found, other⟩ := ahead
    exact ⟨_, run_keep_error (stale found other).fail⟩
  | remove name expected =>
    obtain ⟨b, found, other⟩ := ahead
    exact ⟨_, run_keep_error (stale found other).fail⟩

/-- What is read is known or is on the shelf, and it has the name under which it is looked for. -/
lemma Recalls.fetched (h : f.Recalls site.root known) (keeps : site.Keeps s d)
    (tidy : s.IsTidy site.root) (storable : ∀ a, known a → a.IsStorable site.root) {cached : Bool}
    (read : (Disk.run (f.answer (.fetch name cached)) d).1.1 = .ok (some a)) :
    (known a ∨ s a.name.subjectRef = some a) ∧ a.IsNamed name := by
  cases cached with
  | true =>
    obtain ⟨knows, named⟩ := h.get? storable (Except.ok.inj read)
    exact ⟨.inl knows, named⟩
  | false =>
    have proper : (StoreCall.fetch name false).IsProper := trivial
    obtain ⟨x, f', d', answered, -, -, honest⟩ := h.answer keeps tidy proper
    rw [answered] at read
    have found := Shelf.find_of_reply ((honest rfl).symm.trans read)
    have named := tidy.isNamed found
    exact ⟨.inr (named.subjectRef ▸ (Shelf.find_eq_some_iff.1 found).1), named⟩

end FileStore

end SchemaLedger
