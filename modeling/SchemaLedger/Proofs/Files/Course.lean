import SchemaLedger.Proofs.Files.Running

/-!
Programs whose calls may fail, and which may be stopped.

* `Disk.Outcome`: what a call may come to. A call that fails changes nothing, except that a write
  may leave a part of its text.
* `Disk.Course`: how far a program may get, and with which outcomes of its calls. It is cut by
  `Disk.Course.of_bind` where its program is put together.
* `Disk.Lapse`: a program is run to its end, but for one call that fails. Such a run, and a run that
  is cut short (`Disk.course_cut`), are courses.
* `Program.IsCautious`: a program that only reads and gives up when a call fails. It ends as it
  does on a healthy disk, or it fails (`Program.IsCautious.course`).
* `Disk.Withstands`: wherever a program is stopped the disk is safe, and wherever it ends its
  result is right; one rule for each way to build a program.
* `Disk.withstands_makeFolders`: folders are made one by one, and an end without failure says that
  they are there.
-/

namespace SchemaLedger

/-- The answer says that the call failed. Looking at what stands at a path does not fail. -/
def FileCall.Fails : (q : FileCall) → q.Answer → Prop
  | .isPresent _, _ => False
  | .isFile _, _ => False
  | .isFolder _, _ => False
  | .list _, x => ∃ fault, x = Except.error fault
  | .read _, x => ∃ fault, x = Except.error fault
  | .makeFolder _, x => ∃ fault, x = Except.error fault
  | .write _ _, x => ∃ fault, x = Except.error fault
  | .rename _ _, x => ∃ fault, x = Except.error fault
  | .removeFile _, x => ∃ fault, x = Except.error fault
  | .removeFolder _, x => ∃ fault, x = Except.error fault

/-- The call changes nothing. -/
def FileCall.IsRead : FileCall → Prop
  | .isPresent _ | .isFile _ | .isFolder _ | .list _ | .read _ => True
  | _ => False

namespace Disk

variable {α β ε : Type}

/-- What a call may come to: it is answered; it fails and nothing has changed; or it is a write
that fails when a part of its text is in the file. -/
inductive Outcome (d : Disk) : (q : FileCall) → q.Answer → Disk → Prop
  | answered (q : FileCall) : Outcome d q (d.answer q).1 (d.answer q).2
  | failed {q : FileCall} {x : q.Answer} (fails : q.Fails x) : Outcome d q x d
  | torn {path : Path} {content : ByteArray} {n : Nat} {fault : FileFault} {d' : Disk}
    (written : d.write path (content.extract 0 n) = .ok d') :
    Outcome d (.write path content) (Except.error fault) d'

/-- The course of a program: it is stopped before any of its calls and gives no result, or it goes
on with what the call comes to, or it ends. -/
inductive Course : Program FileSystem α → Disk → Option α → Disk → Prop
  | ended (a : α) (d : Disk) : Course (.done a) d (some a) d
  | stopped (p : Program FileSystem α) (d : Disk) : Course p d none d
  | asked {q : FileCall} {next : q.Answer → Program FileSystem α} {d d' d'' : Disk} {x : q.Answer}
    {r : Option α} (outcome : d.Outcome q x d') (rest : Course (next x) d' r d'') :
    Course (.ask q next) d r d''

variable {d d' d'' : Disk}

/-- A program may be answered all along. -/
lemma Course.of_run (p : Program FileSystem α) (d : Disk) :
    Course p d (some (run p d).1) (run p d).2 := by
  induction p generalizing d with
  | done a => exact .ended a d
  | ask q next ih => exact .asked (.answered q) (ih _ _)

/-- The disk after so many calls of a program. -/
def cut : Nat → Program FileSystem α → Disk → Disk
  | 0, _, d => d
  | _ + 1, .done _, d => d
  | k + 1, .ask q next, d => cut k (next (d.answer q).1) (d.answer q).2

/-- A program may be stopped after any of its calls. -/
lemma course_cut (k : Nat) (p : Program FileSystem α) (d : Disk) :
    Course p d none (cut k p d) := by
  induction k generalizing p d with
  | zero => exact .stopped p d
  | succ k ih =>
    cases p with
    | done a => exact .stopped _ d
    | ask q next => exact .asked (.answered q) (ih _ _)

/-- A program is stopped in its first part, or the second part begins where the first ends. -/
lemma Course.of_bind {p : Program FileSystem α} {f : α → Program FileSystem β} {r : Option β}
    (h : Course (p.bind f) d r d'') :
    (r = none ∧ Course p d none d'') ∨ ∃ a d', Course p d (some a) d' ∧ Course (f a) d' r d'' := by
  induction p generalizing d with
  | done a => exact .inr ⟨a, d, .ended a d, h⟩
  | ask q next ih =>
    cases h with
    | stopped _ _ => exact .inl ⟨rfl, .stopped _ _⟩
    | asked outcome rest =>
      rcases ih _ rest with ⟨none, before⟩ | ⟨a, d', first, second⟩
      · exact .inl ⟨none, .asked outcome before⟩
      · exact .inr ⟨a, d', .asked outcome first, second⟩

/-- What is only done with the result of a program adds nothing to its course. -/
lemma Course.of_bind_done {p : Program FileSystem α} {g : α → β} {r : Option β}
    (h : Course (p.bind fun a => .done (g a)) d r d'') :
    ∃ r', Course p d r' d'' ∧ ∀ b, r = some b → ∃ a, r' = some a ∧ b = g a := by
  rcases h.of_bind with ⟨rfl, before⟩ | ⟨a, d', before, after⟩
  · exact ⟨none, before, fun b hb => nomatch hb⟩
  · cases after with
    | ended _ _ => exact ⟨some a, before, fun b hb => ⟨a, rfl, (Option.some.inj hb).symm⟩⟩
    | stopped _ _ => exact ⟨some a, before, fun b hb => nomatch hb⟩

/-- A program is run to its end, and one of its calls fails. -/
inductive Lapse : Program FileSystem α → Disk → α → Disk → Prop
  | now {q : FileCall} {next : q.Answer → Program FileSystem α} {d : Disk} {x : q.Answer}
    (fails : q.Fails x) : Lapse (.ask q next) d (run (next x) d).1 (run (next x) d).2
  | later {q : FileCall} {next : q.Answer → Program FileSystem α} {d d' : Disk} {a : α}
    (rest : Lapse (next (d.answer q).1) (d.answer q).2 a d') : Lapse (.ask q next) d a d'

/-- A lapse is a course. -/
lemma Lapse.course {p : Program FileSystem α} {a : α} (h : Lapse p d a d') :
    Course p d (some a) d' := by
  induction h with
  | now fails => exact .asked (.failed fails) (.of_run _ _)
  | later _ ih => exact .asked (.answered _) ih

/-- A call fails in the second part of a program. -/
lemma Lapse.after_run {p : Program FileSystem α} {f : α → Program FileSystem β} {b : β}
    (rest : Lapse (f (run p d).1) (run p d).2 b d') : Lapse (p.bind f) d b d' := by
  induction p generalizing d with
  | done a => exact rest
  | ask q next ih => exact .later (ih _ rest)

/-- A call fails in the first part of a program. -/
lemma Lapse.bind {p : Program FileSystem α} {a : α} (h : Lapse p d a d')
    (f : α → Program FileSystem β) : Lapse (p.bind f) d (run (f a) d').1 (run (f a) d').2 := by
  induction h with
  | @now q next d x fails =>
    have parts := run_bind (next x) f d
    rw [← parts]
    exact .now fails
  | later _ ih => exact .later ih

/-- A call fails after the first part of a program, which may fail but does not. -/
lemma Lapse.after {p : ExceptT ε (Program FileSystem) α}
    {f : α → ExceptT ε (Program FileSystem) β} {a : α} {r : Except ε β}
    (first : d.Runs p (.ok a) d') (rest : Lapse (f a).run d' r d'') :
    Lapse (p >>= f).run d r d'' := by
  have parts : (p >>= f).run = p.run.bind (ExceptT.bindCont f) := rfl
  rw [parts]
  refine .after_run ?_
  rw [first]
  exact rest

/-- A call fails, and so does the first part of a program and hence the whole. -/
lemma Lapse.fail {p : ExceptT ε (Program FileSystem) α} {e : ε}
    (h : Lapse p.run d (.error e) d') (f : α → ExceptT ε (Program FileSystem) β) :
    Lapse (p >>= f).run d (.error e) d' :=
  h.bind (ExceptT.bindCont f)

/-- A read leaves the disk as it is. -/
lemma answer_of_isRead {q : FileCall} (read : q.IsRead) (d : Disk) : (d.answer q).2 = d := by
  cases q with
  | isPresent path => rfl
  | isFile path => rfl
  | isFolder path => rfl
  | list path => rfl
  | read path => rfl
  | makeFolder path => cases read
  | write path content => cases read
  | rename source target => cases read
  | removeFile path => cases read
  | removeFolder path => cases read

/-- What a read may come to: its answer, or a failure. -/
lemma Outcome.of_isRead {q : FileCall} {x : q.Answer} (h : d.Outcome q x d') (read : q.IsRead) :
    d' = d ∧ (x = (d.answer q).1 ∨ q.Fails x) := by
  cases h with
  | answered q => exact ⟨answer_of_isRead read d, .inl rfl⟩
  | failed fails => exact ⟨rfl, .inr fails⟩
  | torn written => cases read

end Disk

/-! ### Programs that only read -/

namespace Program

variable {α β ε : Type}

/-- The program only reads, and fails at once if one of its calls fails. -/
def IsCautious : Program FileSystem (Except ε α) → Prop
  | .done _ => True
  | .ask q next => q.IsRead ∧
      ∀ x, (next x).IsCautious ∧ (q.Fails x → ∃ e, next x = .done (.error e))

/-- **A program that only reads ends as on a healthy disk, or it fails.** The disk stays as it
is. -/
lemma IsCautious.course {p : Program FileSystem (Except ε α)} (h : p.IsCautious) {d d' : Disk}
    {r : Option (Except ε α)} (course : Disk.Course p d r d') :
    d' = d ∧ ∀ x, r = some x → x = (Disk.run p d).1 ∨ ∃ e, x = .error e := by
  induction course with
  | ended a _ => exact ⟨rfl, fun x hx => .inl (Option.some.inj hx).symm⟩
  | stopped _ _ => exact ⟨rfl, fun x hx => nomatch hx⟩
  | asked outcome rest ih =>
    obtain ⟨read, next⟩ := h
    obtain ⟨rfl, rfl | fails⟩ := outcome.of_isRead read
    · rw [Disk.run_ask, Disk.answer_of_isRead read]
      exact ih (next _).1
    · obtain ⟨e, failed⟩ := (next _).2 fails
      rw [failed] at rest
      cases rest with
      | ended _ _ => exact ⟨rfl, fun x hx => .inr ⟨e, (Option.some.inj hx).symm⟩⟩
      | stopped _ _ => exact ⟨rfl, fun x hx => nomatch hx⟩

/-- A program that only reads leaves the disk as it is. -/
lemma IsCautious.run_snd {p : Program FileSystem (Except ε α)} (h : p.IsCautious) (d : Disk) :
    (Disk.run p d).2 = d :=
  (h.course (.of_run p d)).1

lemma IsCautious.disk_eq {p : ExceptT ε (Program FileSystem) α} (h : IsCautious p.run) {d d' : Disk}
    {r : Except ε α} (runs : d.Runs p r d') : d' = d :=
  (congrArg Prod.snd runs).symm.trans (h.run_snd d)

/-- One part after the other. -/
lemma IsCautious.bind {p : ExceptT ε (Program FileSystem) α}
    {f : α → ExceptT ε (Program FileSystem) β} (first : IsCautious p.run)
    (second : ∀ a, IsCautious (f a).run) : IsCautious (p >>= f).run := by
  have parts : (p >>= f).run = p.run.bind (ExceptT.bindCont f) := rfl
  rw [parts]
  generalize p.run = p at first
  induction p with
  | done x =>
    cases x with
    | ok a => exact second a
    | error e => trivial
  | ask q next ih =>
    obtain ⟨read, next⟩ := first
    refine ⟨read, fun x => ⟨ih x (next x).1, fun fails => ?_⟩⟩
    obtain ⟨e, failed⟩ := (next x).2 fails
    exact ⟨e, congrArg (Program.bind · (ExceptT.bindCont f)) failed⟩

lemma isCautious_pure (a : α) :
    IsCautious (pure a : ExceptT ε (Program FileSystem) α).run :=
  trivial

lemma isCautious_throw (e : ε) :
    IsCautious (throw e : ExceptT ε (Program FileSystem) α).run :=
  trivial

end Program

/-! ### Programs and what they leave -/

namespace Disk

variable {α β ε : Type} {d d' : Disk} {p : ExceptT ε (Program FileSystem) α}
  {f : α → ExceptT ε (Program FileSystem) β} {safe : Disk → Prop} {m : Except ε α → Disk → Prop}
  {post : Except ε β → Disk → Prop}

/-- Wherever the program is stopped the disk is safe, and wherever it ends so is its result. -/
def Withstands (d : Disk) (p : ExceptT ε (Program FileSystem) α) (safe : Disk → Prop)
    (post : Except ε α → Disk → Prop) : Prop :=
  ∀ r d', Course p.run d r d' → safe d' ∧ ∀ x, r = some x → post x d'

namespace Withstands

protected lemma pure {a : β} (here : safe d) (right : post (.ok a) d) :
    d.Withstands (pure a) safe post := by
  intro r d' course
  cases course with
  | ended _ _ => exact ⟨here, fun x hx => by cases hx; exact right⟩
  | stopped _ _ => exact ⟨here, fun x hx => nomatch hx⟩

protected lemma throw {e : ε} (here : safe d) (right : post (.error e) d) :
    d.Withstands (throw e : ExceptT ε (Program FileSystem) β) safe post := by
  intro r d' course
  cases course with
  | ended _ _ => exact ⟨here, fun x hx => by cases hx; exact right⟩
  | stopped _ _ => exact ⟨here, fun x hx => nomatch hx⟩

/-- One part after the other; a failure of the first part is one of the whole. -/
protected lemma bind (first : d.Withstands p safe m)
    (failed : ∀ e d', m (.error e) d' → post (.error e) d')
    (second : ∀ a d', m (.ok a) d' → d'.Withstands (f a) safe post) :
    d.Withstands (p >>= f) safe post := by
  intro r d'' course
  have parts : (p >>= f).run = p.run.bind (ExceptT.bindCont f) := rfl
  rw [parts] at course
  rcases course.of_bind with ⟨rfl, before⟩ | ⟨x, d', before, after⟩
  · exact ⟨(first _ _ before).1, fun x hx => nomatch hx⟩
  · obtain ⟨here, right⟩ := first _ _ before
    cases x with
    | ok a => exact second a d' (right _ rfl) r d'' after
    | error e =>
      cases after with
      | ended _ _ => exact ⟨here, fun x hx => by cases hx; exact failed e _ (right _ rfl)⟩
      | stopped _ _ => exact ⟨here, fun x hx => nomatch hx⟩

/-- A program that only reads. -/
protected lemma read {r : Except ε α} (cautious : p.run.IsCautious) (runs : d.Runs p r d)
    (here : safe d) (right : m r d) (failed : ∀ e, m (.error e) d) :
    d.Withstands p safe m := by
  intro x d' course
  obtain ⟨rfl, result⟩ := cautious.course course
  refine ⟨here, fun y hy => ?_⟩
  rcases result y hy with rfl | ⟨e, rfl⟩
  · rw [runs]
    exact right
  · exact failed e

/-- Less may be said of the disk and of the end of a program. -/
protected lemma mono {safe' : Disk → Prop} {m' : Except ε α → Disk → Prop}
    (h : d.Withstands p safe m) (safer : ∀ d', safe d' → safe' d')
    (less : ∀ x d', m x d' → m' x d') : d.Withstands p safe' m' := fun r d' course =>
  ⟨safer d' (h r d' course).1, fun x hx => less x d' ((h r d' course).2 x hx)⟩

/-- A part that only reads, and what follows. -/
protected lemma after_read {a : α} (cautious : p.run.IsCautious) (runs : d.Runs p (.ok a) d)
    (here : safe d) (failed : ∀ e, post (.error e) d) (second : d.Withstands (f a) safe post) :
    d.Withstands (p >>= f) safe post := by
  refine (Withstands.read (m := fun r d' => d' = d ∧ ∀ b, r = .ok b → b = a) cautious runs here
    ⟨rfl, fun b hb => (Except.ok.inj hb).symm⟩ fun e => ⟨rfl, fun b hb => nomatch hb⟩).bind ?_ ?_
  · rintro e d' ⟨rfl, -⟩
    exact failed e
  · rintro b d' ⟨rfl, same⟩
    rw [same b rfl]
    exact second

/-- Nothing follows a part that only reads and fails. -/
protected lemma after_failure {e : ε} (cautious : p.run.IsCautious) (runs : d.Runs p (.error e) d)
    (here : safe d) (failed : ∀ e, post (.error e) d) : d.Withstands (p >>= f) safe post := by
  refine (Withstands.read (m := fun r d' => d' = d ∧ ∀ b, r ≠ .ok b) cautious runs here
    ⟨rfl, fun b hb => nomatch hb⟩ fun e => ⟨rfl, fun b hb => nomatch hb⟩).bind ?_ ?_
  · rintro e d' ⟨rfl, -⟩
    exact failed e
  · rintro b d' ⟨-, none⟩
    exact absurd rfl (none b)

/-- A single call that may fail. -/
protected lemma call {q : FileCall} {k : q.Answer → Except ε α}
    (ask : p.run = .ask q fun x => .done (k x)) (here : safe d)
    (all : ∀ x d', d.Outcome q x d' → safe d' ∧ m (k x) d') : d.Withstands p safe m := by
  intro r d' course
  rw [ask] at course
  cases course with
  | stopped _ _ => exact ⟨here, fun x hx => nomatch hx⟩
  | asked outcome rest =>
    obtain ⟨safe, right⟩ := all _ _ outcome
    cases rest with
    | ended _ _ => exact ⟨safe, fun x hx => by cases hx; exact right⟩
    | stopped _ _ => exact ⟨safe, fun x hx => nomatch hx⟩

end Withstands

/-! ### Making folders -/

variable {path : Path}

/-- Looking whether there is a folder does not fail. -/
lemma withstands_isFolder {safe : Disk → Prop} {m : Except FileFault Bool → Disk → Prop}
    (here : safe d) (right : ∀ there, (there = true → d.HasFolder path) → m (.ok there) d) :
    d.Withstands (Filing.isFolder path) safe m := by
  refine .call (q := .isFolder path) (k := Except.ok) rfl here fun x d' outcome => ?_
  obtain ⟨rfl, rfl | fails⟩ := outcome.of_isRead trivial
  · have found : (d'.answer (.isFolder path)).1 = true → d'.HasFolder path := by
      intro there
      cases stands : d'.find path with
      | error fault =>
        rw [Disk.answer, stands] at there
        cases there
      | ok node =>
        rw [Disk.answer, stands] at there
        cases node with
        | file content => cases there
        | folder => exact stands
    exact ⟨here, right _ found⟩
  · exact fails.elim

/-- A fault is passed on unless there is a folder. -/
lemma withstands_unlessFolder {I : Disk → Prop} (here : I d) (fault : FileFault) :
    d.Withstands (do unless ← Filing.isFolder path do throw fault) I
      fun r d' => I d' ∧ (r = .ok () → d'.HasFolder path) := by
  refine Withstands.bind (m := fun r d' => I d' ∧ ∀ there, r = .ok there → there = true →
    d'.HasFolder path) (withstands_isFolder here fun there found => ⟨here, fun b hb => ?_⟩)
    (fun e d' h => ⟨h.1, fun ok => nomatch ok⟩) fun there d' h => ?_
  · cases hb
    exact found
  · cases there with
    | true => exact .pure h.1 ⟨h.1, fun _ => h.2 _ rfl rfl⟩
    | false => exact .throw h.1 ⟨h.1, fun ok => nomatch ok⟩

/-- Making a folder on the way to `goal` keeps an invariant, whatever the call comes to; and if it
does not fail and the folder is `goal` itself, it is there. -/
def MakesFolder (I : Disk → Prop) (goal path : Path) : Prop :=
  ∀ d x d', I d → d.Outcome (.makeFolder path) x d' →
    I d' ∧ (x = Except.ok () → path = goal → d'.HasFolder goal)

variable {I : Disk → Prop} {goal : Path}

/-- A call that fails makes no folder. -/
lemma MakesFolder.of_answers (answers : ∀ d, I d → (∃ fault, d.makeFolder path = .error fault) ∨
      ∃ d', d.makeFolder path = .ok d' ∧ I d' ∧ (path = goal → d'.HasFolder goal)) :
    MakesFolder I goal path := by
  intro d x d' here outcome
  cases outcome with
  | answered q =>
    rcases answers d here with ⟨fault, made⟩ | ⟨d', made, there, folder⟩
    · rw [answer, made]
      exact ⟨here, fun ok => by cases ok⟩
    · rw [answer, made]
      exact ⟨there, fun _ => folder⟩
  | failed fails =>
    obtain ⟨fault, rfl⟩ := fails
    exact ⟨here, fun ok => by cases ok⟩

/-- The call that makes one folder, whose fault does not end the program. -/
lemma MakesFolder.withstands (makes : MakesFolder I goal path) (here : I d) :
    d.Withstands (ε := FileFault)
      (ExceptT.lift (Program.query (I := FileSystem) (.makeFolder path))) I fun r d' =>
        ∃ x, r = .ok x ∧ I d' ∧ (x = Except.ok () → path = goal → d'.HasFolder goal) :=
  .call (k := Except.ok) rfl here fun x d' outcome =>
    have made := makes d x d' here outcome
    ⟨made.1, x, rfl, made⟩

/-- A fault is passed on unless the folder is there. -/
lemma withstands_unlessGoal (here : I d) (fault : FileFault) :
    d.Withstands (do unless ← Filing.isFolder path do throw fault) I
      fun r d' => I d' ∧ (r = .ok () → path = goal → d'.HasFolder goal) :=
  (withstands_unlessFolder here fault).mono (fun _ h => h) fun _ _ h =>
    ⟨h.1, fun ok same => same ▸ h.2 ok⟩

/-- One folder is made. -/
lemma withstands_makeFolder (makes : MakesFolder I goal path) (here : I d) :
    d.Withstands (Filing.makeFolder path) I
      fun r d' => I d' ∧ (r = .ok () → path = goal → d'.HasFolder goal) := by
  refine (makes.withstands here).bind (fun e d' h => ?_) fun x d' h => ?_
  · obtain ⟨x, no, -⟩ := h
    cases no
  · obtain ⟨y, same, here', made⟩ := h
    cases same
    cases x with
    | ok u => exact .pure here' ⟨here', fun _ => made rfl⟩
    | error fault => exact withstands_unlessGoal here' fault

/-- Folders are made from the last to the first, and then back again. -/
lemma withstands_makeFoldersUp (some : goal ≠ []) (steps : List String)
    (makes : ∀ step up, step :: up <:+ steps → MakesFolder I goal (step :: up).reverse)
    (here : I d) :
    d.Withstands (Filing.makeFoldersUp steps) I
      fun r d' => I d' ∧ (r = .ok () → steps.reverse = goal → d'.HasFolder goal) := by
  induction steps generalizing d with
  | nil => exact .pure here ⟨here, fun _ same => absurd same.symm some⟩
  | cons step up ih =>
    have own := makes step up (List.suffix_refl _)
    refine (own.withstands here).bind (fun e d' h => ?_) fun x d' h => ?_
    · obtain ⟨x, no, -⟩ := h
      cases no
    · obtain ⟨y, same, here', made⟩ := h
      cases same
      match x with
      | .ok () => exact .pure here' ⟨here', fun _ => made rfl⟩
      | .error .notFound =>
        -- the folders on the way are made, and the call is made once more
        have before := ih (fun step' up' suffix =>
          makes step' up' (suffix.trans (List.suffix_cons _ _))) here'
        exact before.bind (fun e d'' h' => ⟨h'.1, fun ok => nomatch ok⟩) fun u d'' h' =>
          withstands_makeFolder own h'.1
      | .error .permissionDenied | .error .alreadyExists | .error .notADirectory
      | .error .isADirectory | .error .directoryNotEmpty | .error .invalidName
      | .error .invalidData | .error .other => exact withstands_unlessGoal here' _

/-- **The folders of a path are made one by one**, whatever the calls come to; if this ends without
a failure, the last one is there. -/
lemma withstands_makeFolders (some : goal ≠ [])
    (makes : ∀ p, p ≠ [] → p <+: goal → MakesFolder I goal p) (here : I d) :
    d.Withstands (Filing.makeFolders goal) I
      fun r d' => I d' ∧ (r = .ok () → d'.HasFolder goal) := by
  have up := withstands_makeFoldersUp some goal.reverse (fun step up suffix => makes _ (by simp)
    (by rwa [← List.reverse_suffix, List.reverse_reverse])) here
  exact Withstands.mono up (fun _ h => h) fun x d' h =>
    ⟨h.1, fun ok => h.2 ok goal.reverse_reverse⟩

end Disk

end SchemaLedger
