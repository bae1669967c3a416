import SchemaLedger.Proofs.Lifecycle.Restart

/-!
A service whose process stops.

* `Staff.Reachable`: stores that were opened in an empty folder and have served jobs, with restarts
  and stops in between.
* `FileStore.Alike`: two stores with their files show the same schemas and answer all calls alike.
* `Staff.stop_leaves_no_trace`: wherever a job is stopped, a store can be opened again, and it is
  like the store before the job or like the store after it.
-/

namespace SchemaLedger

open FileStore Disk

/-- Two stores with their files show the same schemas, and whatever proper calls are made to them
get the same answers. -/
structure FileStore.Alike (root : Path) (f f' : FileStore) (d d' : Disk) : Prop where
  schemas : ∃ S, onDisk root d = .ok S ∧ onDisk root d' = .ok S ∧
    f.remembered = S ∧ f'.remembered = S
  answers : ∀ calls : List StoreCall, (∀ c ∈ calls, c.IsProper) →
    (Disk.run (f.answers calls) d).1 = (Disk.run (f'.answers calls) d').1

/-- Stores that stand for one shelf are alike. -/
lemma FileStore.Represents.alike {site : Site} {s : Shelf} {f f' : FileStore} {d d' : Disk}
    (h : Represents site f d s) (h' : Represents site f' d' s) (tidy : s.IsTidy site.root) :
    Alike site.root f f' d d' where
  schemas := ⟨s.schemas, onDisk_of_keeps h.disk tidy, onDisk_of_keeps h'.disk tidy,
    h.remembered tidy, h'.remembered tidy⟩
  answers _ proper := (run_replies h tidy proper).trans (run_replies h' tidy proper).symm

namespace Staff

variable {staff : Staff} {site : Site} {n : Nat} {f : FileStore} {t : staff.State} {d : Disk}

/-- Stores with their files, after so many jobs at most: opened in an empty folder; after a job that
was served; opened again; and opened again after a job that was stopped or has failed somewhere. -/
inductive Reachable (staff : Staff) (site : Site) : Nat → FileStore → staff.State → Disk → Prop
  | opened {f : FileStore} {d : Disk} (t : staff.State)
    (opened : site.disk.Runs (openFolder site.root) (.ok f) d) : Reachable staff site 0 f t d
  | served {n : Nat} {f f' : FileStore} {t t' : staff.State} {d d' : Disk} {j : Job}
    {result : Except Failure j.task.Result} (before : Reachable staff site n f t d)
    (served : Disk.run (staff.serve j (f, t)) d = ((result, (f', t')), d')) :
    Reachable staff site (n + 1) f' t' d'
  | restarted {n : Nat} {f f' : FileStore} {t : staff.State} {d d' : Disk}
    (before : Reachable staff site n f t d)
    (opened : d.Runs (openFolder site.root) (.ok f') d') : Reachable staff site n f' t d'
  | stopped {n : Nat} {f f' : FileStore} {t : staff.State} {d d' d'' : Disk} {j : Job}
    {r : Option (Except Failure j.task.Result × (FileStore × staff.State))} (t' : staff.State)
    (before : Reachable staff site n f t d) (course : Disk.Course (staff.serve j (f, t)) d r d')
    (opened : d'.Runs (openFolder site.root) (.ok f') d'') :
    Reachable staff site (n + 1) f' t' d''

/-- Schemas with few versions have few. -/
lemma hasFew_succ {s : Shelf} (few : s.HasFew n) : s.HasFew (n + 1) := fun r a bound =>
  (few r a bound).trans (Nat.le_succ n)

/-- **Every store that can be reached stands for a tidy shelf.** -/
lemma Reachable.represents (h : Reachable staff site n f t d) (small : n < Word.limit 64) :
    ∃ s : Shelf, s.HasFew n ∧ s.IsTidy site.root ∧ Represents site f d s := by
  induction h with
  | opened t opened =>
    obtain ⟨f₁, d₁, first, represents⟩ := represents_open site
    cases opened.symm.trans first
    exact ⟨_, Shelf.hasFew_empty 0, Shelf.isTidy_empty, represents⟩
  | @served n f f' t t' d d' j result _ served ih =>
    obtain ⟨s, few, tidy, represents⟩ := ih (by omega)
    obtain ⟨f₁, d₁, first, after⟩ := run_serve (j := j) (t := t) few tidy small represents
    obtain ⟨tidy', few'⟩ := work_program (j := j) (t := t) few tidy small
    cases served.symm.trans first
    exact ⟨_, few', tidy', after⟩
  | restarted _ opened ih =>
    obtain ⟨s, few, tidy, represents⟩ := ih small
    obtain ⟨f₁, first, after⟩ := reopen represents.disk tidy
    cases opened.symm.trans first
    exact ⟨s, few, tidy, after⟩
  | @stopped n f f' t d d' d'' j r t' _ course opened ih =>
    obtain ⟨s, few, tidy, represents⟩ := ih (by omega)
    obtain ⟨tidy', few'⟩ := work_program (j := j) (t := t) few tidy small
    have left : ∃ s' : Shelf, s'.HasFew (n + 1) ∧ s'.IsTidy site.root ∧ site.Keeps s' d' :=
      (course_serve few tidy small represents course).elim
        (fun keeps => ⟨s, hasFew_succ few, tidy, keeps⟩) fun keeps => ⟨_, few', tidy', keeps⟩
    obtain ⟨s', few'', tidy'', keeps⟩ := left
    obtain ⟨f₁, first, after⟩ := reopen keeps tidy''
    cases opened.symm.trans first
    exact ⟨s', few'', tidy'', after⟩

/-- **A stop leaves no trace.** Wherever a job is stopped at a store that can be reached, between
two calls to the file system or within a write, a store can be opened in the folder again. It is
like the store before the job or like the store after it, whatever else the job has left in the
folder. (As in `restarts_unseen` there are fewer jobs than 64 bits can count.) -/
theorem stop_leaves_no_trace (staff : Staff) (site : Site) {n : Nat} {f : FileStore}
    {t : staff.State} {d d' : Disk} {j : Job} (reachable : Reachable staff site n f t d)
    (small : n + 1 < Word.limit 64) (course : Disk.Course (staff.serve j (f, t)) d none d') :
    ∃ f', d'.Runs (openFolder site.root) (.ok f') d' ∧
      (Alike site.root f' f d' d ∨
        ∃ result f₁ t₁ d₁, Disk.run (staff.serve j (f, t)) d = ((result, (f₁, t₁)), d₁) ∧
          Alike site.root f' f₁ d' d₁) := by
  obtain ⟨s, few, tidy, represents⟩ := reachable.represents (by omega)
  rcases course_serve few tidy small represents course with keeps | keeps
  · obtain ⟨f', opened, again⟩ := reopen keeps tidy
    exact ⟨f', opened, .inl (again.alike represents tidy)⟩
  · obtain ⟨f₁, d₁, served, after⟩ := run_serve (j := j) (t := t) few tidy small represents
    obtain ⟨tidy', -⟩ := work_program (j := j) (t := t) few tidy small
    obtain ⟨f', opened, again⟩ := reopen keeps tidy'
    exact ⟨f', opened, .inr ⟨_, f₁, _, d₁, served, again.alike after tidy'⟩⟩

end Staff

open Rehearsal

/-- The registration of the rehearsal may be stopped when its temporary file has been written. -/
theorem Staff.stop_of_registration :
    ∃ f d, Staff.Reachable Rehearsal.staff site 0 f (1 : UInt64) d ∧ 0 + 1 < Word.limit 64 ∧
      ∃ d', Disk.Course
          (Rehearsal.staff.serve (job (.register orders registration)) (f, (1 : UInt64))) d none d' ∧
        ∃ f', d'.Runs (openFolder site.root) (.ok f') d' ∧
          (Alike site.root f' f d' d ∨ ∃ result f₁ t₁ d₁,
            Disk.run
                (Rehearsal.staff.serve (job (.register orders registration)) (f, (1 : UInt64))) d =
              ((result, (f₁, t₁)), d₁) ∧ Alike site.root f' f₁ d' d₁) := by
  obtain ⟨f, d, opened, -⟩ := represents_open site
  have reachable : Staff.Reachable Rehearsal.staff site 0 f (1 : UInt64) d := .opened _ opened
  have course := Disk.course_cut 6
    (Rehearsal.staff.serve (job (.register orders registration)) (f, (1 : UInt64))) d
  exact ⟨f, d, reachable, by decide, _, course,
    Staff.stop_leaves_no_trace Rehearsal.staff site reachable (by decide) course⟩

end SchemaLedger
