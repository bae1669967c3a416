import SchemaLedger.Proofs.Concurrency.Lineage
import SchemaLedger.Proofs.Store.Opening

/-!
The two stores are the same store to their callers.

* `MemoryStore.answers`, `FileStore.session`: the answers to some calls, made one at a time on an
  empty store in memory and on a store opened in a folder.
* `MemoryStore.answers_eq`, `FileStore.run_replies`: both are the answers of a shelf, by induction
  on the calls.
* `FileStore.session_eq`: in an empty folder, every sequence of sound calls is answered alike.
-/

namespace SchemaLedger

open FileStore

/-- A call with its answer. -/
abbrev AnsweredCall := Σ c : StoreCall, c.Answer

/-- The answers of a shelf to some calls. -/
def Shelf.answers (s : Shelf) : List StoreCall → List AnsweredCall
  | [] => []
  | c :: calls => ⟨c, (s.answer c).1⟩ :: answers (s.answer c).2 calls

/-- The answers to some calls of a shelf behind files. -/
def Shelf.replies (root : Path) (s : Shelf) : List StoreCall → List AnsweredCall
  | [] => []
  | c :: calls => ⟨c, (s.reply root c).1⟩ :: replies root (s.reply root c).2 calls

/-- The answers of a store in memory to some calls. -/
def MemoryStore.answers (s : MemoryStore) : List StoreCall → List AnsweredCall
  | [] => []
  | c :: calls => ⟨c, (s.answer c).1⟩ :: (s.answer c).2.answers calls

/-- The answers of a store on files to some calls. -/
def FileStore.answers (f : FileStore) :
    List StoreCall → Program FileSystem (List AnsweredCall)
  | [] => .done []
  | c :: calls => (f.answer c).bind fun (x, f) =>
    (f.answers calls).bind fun xs => .done (⟨c, x⟩ :: xs)

/-- A store is opened in a folder and answers some calls. -/
def FileStore.session (root : Path) (calls : List StoreCall) : Storing (List AnsweredCall) := do
  let f ← openFolder root
  ExceptT.lift (f.answers calls)

variable {root : Path} {s : Shelf} {calls : List StoreCall}

/-- A store in memory answers sound calls as the shelf that its tables stand for. -/
lemma MemoryStore.answers_eq {m : MemoryStore} (h : m.tables.Represents root s)
    (healthy : m.failing = none) (tidy : s.IsTidy root) (sound : ∀ c ∈ calls, c.IsSound root) :
    m.answers calls = s.answers calls := by
  induction calls generalizing m s with
  | nil => rfl
  | cons c calls ih =>
    have first := sound c (List.mem_cons_self ..)
    obtain ⟨same, after⟩ := h.answer tidy first
    have answered : m.answer c = ((m.tables.answer c).1,
        { m with calls := m.calls ++ [CallTrace.ofCall c], tables := (m.tables.answer c).2 }) := by
      rw [MemoryStore.answer, healthy]
    rw [MemoryStore.answers, Shelf.answers, answered, same]
    exact congrArg _ (ih after healthy (tidy.answer first) fun c hc =>
      sound c (List.mem_cons_of_mem _ hc))

/-- A store on files answers proper calls as the shelf that its cache and its files stand for. -/
lemma FileStore.run_replies {site : Site} {f : FileStore} {d : Disk}
    (h : Represents site f d s) (tidy : s.IsTidy site.root) (proper : ∀ c ∈ calls, c.IsProper) :
    (Disk.run (f.answers calls) d).1 = s.replies site.root calls := by
  induction calls generalizing f d s with
  | nil => rfl
  | cons c calls ih =>
    have first := proper c (List.mem_cons_self ..)
    obtain ⟨f', d', answered, after⟩ := h.reply tidy first
    have others := ih after (tidy.reply first) fun c hc => proper c (List.mem_cons_of_mem _ hc)
    rw [FileStore.answers, Disk.run_bind, answered, Disk.run_bind, others]
    rfl

/-- Files refuse no sound call. -/
lemma Shelf.replies_of_isSound (sound : ∀ c ∈ calls, c.IsSound root) :
    s.replies root calls = s.answers calls := by
  induction calls generalizing s with
  | nil => rfl
  | cons c calls ih =>
    have first := sound c (List.mem_cons_self ..)
    rw [Shelf.replies, Shelf.answers, Shelf.reply_of_isSound first,
      ih fun c hc => sound c (List.mem_cons_of_mem _ hc)]

/-- **The two stores agree.** Calls made one at a time get the same answers from an empty store in
memory and from a store opened in an empty folder, whichever reads may use the cache. -/
theorem FileStore.session_eq (site : Site) (calls : List StoreCall)
    (sound : ∀ c ∈ calls, c.IsSound site.root) :
    (Disk.run (session site.root calls).run site.disk).1 =
      .ok (({} : MemoryStore).answers calls) := by
  obtain ⟨f, d, opened, represents⟩ := represents_open site
  have onFiles := run_replies represents Shelf.isTidy_empty fun c hc => (sound c hc).isProper
  rw [Shelf.replies_of_isSound sound] at onFiles
  have inMemory : ({} : MemoryStore).answers calls = Shelf.empty.answers calls :=
    MemoryStore.answers_eq Tables.Represents.empty rfl Shelf.isTidy_empty sound
  have whole : site.disk.Runs (session site.root calls) (.ok (Disk.run (f.answers calls) d).1) _ :=
    opened.bind (.lift (f.answers calls) d)
  rw [whole, onFiles, inMemory]

namespace Rehearsal

/-- A disk with one empty folder. -/
def site : Site where
  disk := { nodes := [(["data"], .folder)] }
  root := ["data"]
  place := ["data"]
  leads := rfl
  isFolder := rfl
  isEmpty steps some := by
    have other : (["data"] ++ steps == ["data"]) = false := by
      rw [beq_eq_false_iff_ne]
      simpa using some
    rw [Disk.node?, if_neg (by simp), List.lookup_cons, other]
    rfl
  fits := ⟨by decide, by decide⟩

lemma hasFile_orders : orders.HasFile site.root :=
  ⟨⟨rfl, rfl, ⟨by decide, by decide⟩⟩, rfl, ⟨by decide, by decide⟩⟩

lemma isStorable_registered : registered.IsStorable site.root where
  name := hasFile_orders
  temporary := ⟨by decide, by decide⟩
  contiguous := rfl
  authentic := Ledger.isAuthentic_start ..
  counts := by
    rw [Wire.fits_aggregate_iff]
    decide

lemma isStorable_changed : changed.IsStorable site.root where
  name := hasFile_orders
  temporary := ⟨by decide, by decide⟩
  contiguous := rfl
  authentic := by
    simp [changed, registered, Aggregate.registered, Aggregate.make, Ledger.isAuthentic,
      Ledger.start, Record.isAuthentic_make]
  counts := by
    rw [Wire.fits_aggregate_iff]
    decide

/-- A schema is registered, changed, read in every way and removed. -/
def visits : List StoreCall :=
  [.register orders registered, .fetch orders false, .replace orders changed registered.revision,
    .fetchRecord orders true, .fetchRecords orders false, .remove orders changed.revision,
    .fetch orders true]

lemma isSound_visits : ∀ c ∈ visits, c.IsSound site.root := by
  have named : ∀ a ∈ [registered, changed], a.IsNamed orders := by
    intro a ha
    rcases List.mem_pair.1 ha with rfl | rfl <;> exact ⟨rfl, rfl, rfl⟩
  simp only [visits, List.forall_mem_cons, StoreCall.IsSound]
  exact ⟨⟨named _ (by simp), isStorable_registered⟩, hasFile_orders,
    ⟨named _ (by simp), isStorable_changed⟩, hasFile_orders.toHasFolder,
    hasFile_orders.toHasFolder, hasFile_orders, hasFile_orders, by simp⟩

end Rehearsal

/-- Both stores answer the calls of the rehearsal alike. -/
theorem FileStore.session_visits :
    (∀ c ∈ Rehearsal.visits, c.IsSound Rehearsal.site.root) ∧
      (Disk.run (session ["data"] Rehearsal.visits).run Rehearsal.site.disk).1 =
        .ok (({} : MemoryStore).answers Rehearsal.visits) :=
  ⟨Rehearsal.isSound_visits, FileStore.session_eq Rehearsal.site _ Rehearsal.isSound_visits⟩

end SchemaLedger
