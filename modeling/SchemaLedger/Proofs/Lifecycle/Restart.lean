import SchemaLedger.Proofs.Lifecycle.Serving
import SchemaLedger.Proofs.Store.Agreement

/-!
A service that is restarted.

* `Turn`, `Staff.session`: jobs are served one after the other by a store that was opened in a
  folder. Between any two of them the store may be closed and opened again, and what the staff
  remember may change.
* `Staff.runs_turns`: the results are those of the jobs on one shelf, by induction on the turns.
* `Staff.session_lasting`: in an empty folder, restarts always succeed and change no result.
-/

namespace SchemaLedger

open FileStore Disk

/-- What is next: a job; or the store is closed and opened again; or the staff remember something
else. -/
inductive Turn (σ : Type) where
  | serve (j : Job)
  | restart
  | shift (change : σ → σ)

namespace Turn

variable {σ : Type}

/-- The job of a turn. -/
def job? : Turn σ → Option Job
  | .serve j => some j
  | _ => none

/-- The jobs among some turns. -/
def jobs (turns : List (Turn σ)) : List Job :=
  turns.filterMap job?

/-- The turn is no restart. -/
def lasts : Turn σ → Bool
  | .restart => false
  | _ => true

/-- The turns without the restarts. -/
def lasting (turns : List (Turn σ)) : List (Turn σ) :=
  turns.filter lasts

lemma jobs_lasting (turns : List (Turn σ)) : jobs (lasting turns) = jobs turns := by
  induction turns with
  | nil => rfl
  | cons turn rest ih =>
    cases turn with
    | serve j => exact congrArg (j :: ·) ih
    | restart => exact ih
    | shift change => exact ih

end Turn

/-- A job with its result. -/
abbrev ServedJob := Σ j : Job, Except Failure j.task.Result

namespace Staff

variable {staff : Staff} {site : Site} {n : Nat} {s : Shelf} {f : FileStore} {d : Disk}
  {t : staff.State} {turns : List (Turn staff.State)}

/-- The results of some turns at a store on files. -/
def takeTurns (staff : Staff) (root : Path) :
    List (Turn staff.State) → FileStore × staff.State → Storing (List ServedJob)
  | [], _ => return []
  | .serve j :: rest, x => do
    let (result, x) ← ExceptT.lift (staff.serve j x)
    return ⟨j, result⟩ :: (← staff.takeTurns root rest x)
  | .restart :: rest, (_, t) => do
    let f ← openFolder root
    staff.takeTurns root rest (f, t)
  | .shift change :: rest, (f, t) => staff.takeTurns root rest (f, change t)

/-- A store is opened in a folder and takes some turns. -/
def session (staff : Staff) (root : Path) (turns : List (Turn staff.State)) (t : staff.State) :
    Storing (List ServedJob) := do
  let f ← openFolder root
  staff.takeTurns root turns (f, t)

/-- The results of some turns on a shelf. -/
def results (staff : Staff) (root : Path) :
    List (Turn staff.State) → Shelf × staff.State → List ServedJob
  | [], _ => []
  | .serve j :: rest, x =>
    ⟨j, (staff.work root j.program.run x).1⟩ ::
      staff.results root rest (staff.work root j.program.run x).2
  | .restart :: rest, x => staff.results root rest x
  | .shift change :: rest, (s, t) => staff.results root rest (s, change t)

/-- Restarts mean nothing to a shelf. -/
lemma results_lasting (root : Path) (turns : List (Turn staff.State)) (x : Shelf × staff.State) :
    staff.results root (Turn.lasting turns) x = staff.results root turns x := by
  induction turns generalizing x with
  | nil => rfl
  | cons turn rest ih =>
    cases turn with
    | serve j => exact congrArg (_ :: ·) (ih _)
    | restart => exact ih x
    | shift change => exact ih _

/-- Some turns have the results of their jobs on the shelf for which the files stand. -/
lemma runs_turns (few : s.HasFew n) (tidy : s.IsTidy site.root)
    (small : n + (Turn.jobs turns).length < Word.limit 64) (h : Represents site f d s) :
    ∃ d', d.Runs (staff.takeTurns site.root turns (f, t))
      (.ok (staff.results site.root turns (s, t))) d' := by
  induction turns generalizing n s f d t with
  | nil => exact ⟨d, .pure d []⟩
  | cons turn rest ih =>
    cases turn with
    | serve j =>
      have jobs : Turn.jobs (.serve j :: rest) = j :: Turn.jobs rest := rfl
      rw [jobs, List.length_cons] at small
      obtain ⟨f', d', served, after⟩ := run_serve (j := j) (t := t) few tidy (by omega) h
      obtain ⟨tidy', few'⟩ := work_program (j := j) (t := t) few tidy (by omega)
      obtain ⟨d'', others⟩ := ih (t := (staff.work site.root j.program.run (s, t)).2.2) few' tidy'
        (by omega) after
      have whole := Runs.lift (ε := StoreError) (staff.serve j (f, t)) d
      rw [served] at whole
      exact ⟨d'', whole.bind (others.bind (.pure d'' _))⟩
    | restart =>
      obtain ⟨f', opened, after⟩ := reopen h.disk tidy
      obtain ⟨d', others⟩ := ih (t := t) few tidy small after
      exact ⟨d', opened.bind others⟩
    | shift change => exact ih (t := change t) few tidy small h

/-- A session in an empty folder has the results of its turns on an empty shelf. -/
lemma run_session (small : (Turn.jobs turns).length < Word.limit 64) :
    (Disk.run (staff.session site.root turns t).run site.disk).1 =
      .ok (staff.results site.root turns (Shelf.empty, t)) := by
  obtain ⟨f, d, opened, represents⟩ := represents_open site
  have small₀ : 0 + (Turn.jobs turns).length < Word.limit 64 := by rwa [Nat.zero_add]
  obtain ⟨d', taken⟩ := runs_turns (t := t) (Shelf.hasFew_empty 0) Shelf.isTidy_empty small₀
    represents
  have whole : site.disk.Runs (staff.session site.root turns t) _ d' := opened.bind taken
  rw [whole]

/-- In an empty folder all restarts succeed, and the results are those without any. -/
lemma session_lasting (small : (Turn.jobs turns).length < Word.limit 64) :
    ∃ results, (Disk.run (staff.session site.root turns t).run site.disk).1 = .ok results ∧
      (Disk.run (staff.session site.root (Turn.lasting turns) t).run site.disk).1 =
        .ok results := by
  refine ⟨_, run_session small, ?_⟩
  rw [← Turn.jobs_lasting] at small
  rw [run_session small, results_lasting]

end Staff

namespace Rehearsal

/-- Collaborators that agree to everything and never draw an id twice. -/
def staff : Staff where
  State := UInt64
  answer
    | t, .drawId => (t, t + 1)
    | t, q => (say q, t)

/-- A schema comes and goes and comes again, with restarts in between. -/
def turns : List (Turn UInt64) :=
  [.serve (job (.register orders registration)), .restart, .serve (job (.update orders change)),
    .serve (job (.get orders)), .restart, .restart, .serve (job (.delete orders)), .shift (· + 1),
    .serve (job (.register orders registration)), .restart, .serve (job (.listBySubject orders))]

end Rehearsal

end SchemaLedger
