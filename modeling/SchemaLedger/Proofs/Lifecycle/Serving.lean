import SchemaLedger.Proofs.Lifecycle.Stage
import SchemaLedger.Proofs.Store.Faults
import SchemaLedger.Proofs.Store.Opening

/-!
Jobs served one at a time.

* `Staff`: the collaborators of a registry besides the store. `Staff.serve` is a job on a store on
  files, `Staff.work` the same job on a shelf.
* `Staff.run_serve`: a job has the same result on files as on the shelf for which they stand.
* `Staff.course_serve`: wherever a job is stopped, the files keep the shelf before the job or the
  shelf after it.
-/

namespace SchemaLedger

open FileStore

/-- The collaborators of a registry besides the store, and what they remember. What they say at the
store's questions is not heard. -/
structure Staff where
  State : Type
  answer : State → (q : Request) → q.Answer × State

/-- No schema on the shelf has more than `n` versions. -/
def Shelf.HasFew (n : Nat) (s : Shelf) : Prop :=
  ∀ r a, s r = some a → a.lastVersion ≤ n

lemma Shelf.hasFew_empty (n : Nat) : Shelf.empty.HasFew n := by
  intro r a bound
  cases bound

lemma Shelf.HasFew.mono {n m : Nat} {s : Shelf} (h : s.HasFew n) (more : n ≤ m) : s.HasFew m :=
  fun r a bound => (h r a bound).trans more

namespace Staff

variable {staff : Staff} {α : Type}

/-- A question is answered by a store on files or by the staff. -/
def onFiles (staff : Staff) : (q : Request) → FileStore × staff.State →
    Program FileSystem (q.Answer × (FileStore × staff.State))
  | .store c, (f, t) => (f.answer c).bind fun (x, f) => .done (x, (f, t))
  | q, (f, t) => .done ((staff.answer t q).1, (f, (staff.answer t q).2))

/-- A job is served by a store on files. -/
def serve (staff : Staff) (j : Job) (x : FileStore × staff.State) :
    Program FileSystem (Except Failure j.task.Result × (FileStore × staff.State)) :=
  j.program.run.translate (J := FileSystem) staff.onFiles x

/-- A question is answered by a store, which is told by its answers, or by the staff. -/
def beside {σ : Type} (staff : Staff) (store : σ → (c : StoreCall) → c.Answer × σ) :
    (q : Request) → σ × staff.State → q.Answer × (σ × staff.State)
  | .store c, (s, t) => ((store s c).1, ((store s c).2, t))
  | q, (s, t) => ((staff.answer t q).1, (s, (staff.answer t q).2))

/-- A question is answered by a shelf as by files, or by the staff. -/
def onShelf (staff : Staff) (root : Path) : (q : Request) → Shelf × staff.State →
    q.Answer × (Shelf × staff.State) :=
  staff.beside fun s c => s.reply root c

/-- What a program comes to on a shelf. -/
def work (staff : Staff) (root : Path) : Program Collaborators α → Shelf × staff.State →
    α × (Shelf × staff.State)
  | .done a, x => (a, x)
  | .ask q next, x => staff.work root (next (staff.onShelf root q x).1) (staff.onShelf root q x).2

lemma onFiles_other {q : Request} (other : ∀ c, q ≠ .store c) (f : FileStore) (t : staff.State) :
    staff.onFiles q (f, t) = .done ((staff.answer t q).1, (f, (staff.answer t q).2)) := by
  cases q with
  | store c => exact absurd rfl (other c)
  | permit | drawId | readClock | judge | compile => rfl

lemma beside_other {σ : Type} (store : σ → (c : StoreCall) → c.Answer × σ) {q : Request}
    (other : ∀ c, q ≠ .store c) (s : σ) (t : staff.State) :
    staff.beside store q (s, t) = ((staff.answer t q).1, (s, (staff.answer t q).2)) := by
  cases q with
  | store c => exact absurd rfl (other c)
  | permit | drawId | readClock | judge | compile => rfl

variable {site : Site} {n : Nat} {s : Shelf} {past : List Talk} {j : Job} {f : FileStore} {d : Disk}
  {t : staff.State} {p : Program Collaborators α} {q : Request}
  {next : q.Answer → Program Collaborators α}

/-- A program goes on with the answer of the store. -/
lemma run_translate_call {c : StoreCall} {next : c.Answer → Program Collaborators α} {x : c.Answer}
    {f' : FileStore} {d' : Disk} (answered : Disk.run (f.answer c) d = ((x, f'), d')) :
    Disk.run (Program.translate (I := Collaborators) (J := FileSystem) staff.onFiles
        (.ask (.store c) next) (f, t)) d =
      Disk.run ((next x).translate (J := FileSystem) staff.onFiles (f', t)) d' := by
  have first : Disk.run (staff.onFiles (.store c) (f, t)) d = ((x, (f', t)), d') := by
    rw [onFiles, Disk.run_bind, answered]
    rfl
  exact (Disk.run_bind (staff.onFiles (.store c) (f, t)) _ d).trans (by rw [first])

/-- A program goes on with the answer of the staff. -/
lemma run_translate_other (other : ∀ c, q ≠ .store c) :
    Disk.run (Program.translate (I := Collaborators) (J := FileSystem) staff.onFiles
        (.ask q next) (f, t)) d =
      Disk.run ((next (staff.answer t q).1).translate (J := FileSystem) staff.onFiles
        (f, (staff.answer t q).2)) d := by
  rw [Program.translate, onFiles_other other]
  rfl

lemma work_other (root : Path) (other : ∀ c, q ≠ .store c) :
    staff.work root (.ask q next) (s, t) =
      staff.work root (next (staff.answer t q).1) (s, (staff.answer t q).2) := by
  rw [work, onShelf, beside_other _ other]

/-- A program that obeys the rules of a job keeps the shelf at some stage. -/
lemma stage_work (stage : Stage site.root n s past) (small : n + 1 < Word.limit 64)
    (obeys : p.Obeys j.Asks (fun _ _ => True) past) :
    ∃ past', Stage site.root n (staff.work site.root p (s, t)).2.1 past' := by
  induction p generalizing s t past with
  | done a => exact ⟨past, stage⟩
  | ask q next ih =>
    by_cases call : ∃ c, q = .store c
    · obtain ⟨c, rfl⟩ := call
      exact ih _ (stage.call obeys.1 small) (obeys.2 _)
    · have other (c : StoreCall) : q ≠ .store c := fun same => call ⟨c, same⟩
      rw [work_other site.root other]
      exact ih _ (stage.other other _) (obeys.2 _)

/-- A program that obeys the rules of a job has the same result on files as on the shelf. -/
lemma run_translate (stage : Stage site.root n s past) (small : n + 1 < Word.limit 64)
    (obeys : p.Obeys j.Asks (fun _ _ => True) past) (h : Represents site f d s) :
    ∃ f' d', Disk.run (p.translate (J := FileSystem) staff.onFiles (f, t)) d =
        (((staff.work site.root p (s, t)).1, (f', (staff.work site.root p (s, t)).2.2)), d') ∧
      Represents site f' d' (staff.work site.root p (s, t)).2.1 := by
  induction p generalizing s t past f d with
  | done a => exact ⟨f, d, rfl, h⟩
  | ask q next ih =>
    by_cases call : ∃ c, q = .store c
    · obtain ⟨c, rfl⟩ := call
      obtain ⟨f', d', answered, after⟩ := h.reply stage.tidy (stage.isProper obeys.1 small)
      obtain ⟨f'', d'', rest, last⟩ := ih _ (t := t) (stage.call obeys.1 small)
        (obeys.2 _) after
      exact ⟨f'', d'', (run_translate_call answered).trans rest, last⟩
    · have other (c : StoreCall) : q ≠ .store c := fun same => call ⟨c, same⟩
      rw [work_other site.root other, run_translate_other other]
      exact ih _ (stage.other other _) (obeys.2 _) h

/-! ### Jobs that are stopped -/

/-- Once something was to be written, nothing more is. -/
lemma work_of_not_isQuiet (written : ¬IsQuiet past)
    (obeys : p.Obeys j.Asks (fun _ _ => True) past) : (staff.work site.root p (s, t)).2.1 = s := by
  induction p generalizing s t past with
  | done a => rfl
  | ask q next ih =>
    have still (x : q.Answer) : ¬IsQuiet (past ++ [⟨q, x⟩]) := fun quiet =>
      written (isQuiet_append.1 quiet).1
    by_cases call : ∃ c, q = .store c
    · obtain ⟨c, rfl⟩ := call
      have reads : c.isWrite = false := by
        cases writes : c.isWrite with
        | true => exact absurd (obeys.1.1 c rfl writes).isQuiet written
        | false => rfl
      have rest := ih (s.reply site.root c).1 (s := (s.reply site.root c).2) (t := t) (still _)
        (obeys.2 _)
      exact rest.trans (s.reply_read site.root reads)
    · have other (c : StoreCall) : q ≠ .store c := fun same => call ⟨c, same⟩
      rw [work_other site.root other]
      exact ih _ (still _) (obeys.2 _)

/-- When the store has failed, the job is at its end. -/
lemma eq_done_of_failed {c : StoreCall} {e : StoreError}
    (obeys : p.Obeys j.Asks (fun _ _ => True) (past ++ [⟨.store c, Except.error e⟩])) :
    ∃ a, p = .done a := by
  cases p with
  | done a => exact ⟨a, rfl⟩
  | ask q next =>
    have good := obeys.1.2 ⟨.store c, Except.error e⟩ (by simp)
    exact absurd ⟨c, e, rfl⟩ good

/-- How far an answer to a call may get. -/
lemma course_onFiles {c : StoreCall} {r : Option (c.Answer × (FileStore × staff.State))} {d' : Disk}
    (course : Disk.Course (staff.onFiles (.store c) (f, t)) d r d') :
    ∃ r', Disk.Course (f.answer c) d r' d' ∧
      ∀ x, r = some x → ∃ y, r' = some y ∧ x = (y.1, (y.2, t)) := by
  rw [onFiles] at course
  exact course.of_bind_done

/-- Wherever a program is stopped that obeys the rules of a job, the files keep the shelf before it
or the shelf after it. -/
lemma course_translate (stage : Stage site.root n s past) (small : n + 1 < Word.limit 64)
    (obeys : p.Obeys j.Asks (fun _ _ => True) past) (h : Represents site f d s)
    {r : Option (α × (FileStore × staff.State))} {d' : Disk}
    (course : Disk.Course (p.translate (J := FileSystem) staff.onFiles (f, t)) d r d') :
    site.Keeps s d' ∨ site.Keeps (staff.work site.root p (s, t)).2.1 d' := by
  induction p generalizing s t past f d with
  | done a =>
    cases course with
    | ended _ _ => exact .inl h.disk
    | stopped _ _ => exact .inl h.disk
  | ask q next ih =>
    by_cases call : ∃ c, q = .store c
    · obtain ⟨c, rfl⟩ := call
      have proper := stage.isProper obeys.1 small
      -- a call leaves the shelf as it is, or its write is the last
      have final (keeps : site.Keeps (s.reply site.root c).2 d') :
          site.Keeps s d' ∨
            site.Keeps (staff.work site.root (.ask (.store c) next) (s, t)).2.1 d' := by
        cases writes : c.isWrite with
        | true =>
          have written : ¬IsQuiet (past ++ [⟨.store c, (s.reply site.root c).1⟩]) := fun quiet => by
            rw [(isQuiet_append.1 quiet).2 c rfl] at writes
            cases writes
          have last : (staff.work site.root (next (s.reply site.root c).1)
              ((s.reply site.root c).2, t)).2.1 = (s.reply site.root c).2 :=
            work_of_not_isQuiet written (obeys.2 _)
          exact .inr (last.symm ▸ keeps)
        | false => exact .inl (s.reply_read site.root writes ▸ keeps)
      rcases course.of_bind with ⟨rfl, before⟩ | ⟨x, d₁, before, after⟩
      · obtain ⟨r', answering, -⟩ := course_onFiles before
        exact (h.course stage.tidy proper answering).1.elim .inl final
      · obtain ⟨r', answering, result⟩ := course_onFiles before
        obtain ⟨⟨y, f'⟩, rfl, rfl⟩ := result x rfl
        rcases (h.course stage.tidy proper answering).2 _ rfl with
          ⟨rfl, honest⟩ | ⟨⟨e, rfl⟩, -, left⟩
        · exact (ih _ (stage.call obeys.1 small) (obeys.2 _) honest after).elim final .inr
        · obtain ⟨a, closed⟩ := eq_done_of_failed (obeys.2 (Except.error e))
          rw [closed] at after
          have same : d' = d₁ := by
            cases after with
            | ended _ _ => rfl
            | stopped _ _ => rfl
          rw [← same] at left
          exact left.elim .inl fun late => final late.2
    · have other (c : StoreCall) : q ≠ .store c := fun same => call ⟨c, same⟩
      rw [Program.translate, onFiles_other other] at course
      rw [work_other site.root other]
      exact ih _ (stage.other other _) (obeys.2 _) h course

/-! ### Jobs -/

variable (few : s.HasFew n) (tidy : s.IsTidy site.root) (small : n + 1 < Word.limit 64)
include few tidy small

/-- A job leaves a tidy shelf, with one version more at most. -/
lemma work_program :
    (staff.work site.root j.program.run (s, t)).2.1.IsTidy site.root ∧
      (staff.work site.root j.program.run (s, t)).2.1.HasFew (n + 1) := by
  obtain ⟨past, stage⟩ := stage_work (t := t) (.start tidy few) small
    j.obeys_asks
  exact ⟨stage.tidy, stage.after⟩

/-- **A job has the same result on files as on the shelf** for which they stand, and afterwards they
stand for the same shelf again. -/
theorem run_serve (h : Represents site f d s) :
    ∃ f' d', Disk.run (staff.serve j (f, t)) d = (((staff.work site.root j.program.run (s, t)).1,
        (f', (staff.work site.root j.program.run (s, t)).2.2)), d') ∧
      Represents site f' d' (staff.work site.root j.program.run (s, t)).2.1 :=
  run_translate (.start tidy few) small j.obeys_asks h

/-- **Wherever a job is stopped**, and whatever its calls come to, the files keep the shelf before
the job or the shelf after it. -/
theorem course_serve (h : Represents site f d s)
    {r : Option (Except Failure j.task.Result × (FileStore × staff.State))} {d' : Disk}
    (course : Disk.Course (staff.serve j (f, t)) d r d') :
    site.Keeps s d' ∨ site.Keeps (staff.work site.root j.program.run (s, t)).2.1 d' :=
  course_translate (.start tidy few) small j.obeys_asks h course

end Staff

end SchemaLedger
