import SchemaLedger.Proofs.Files.Disk
import SchemaLedger.Store.File

/-!
Programs run on a disk.

* `Disk.Runs`: on a disk, a program that may fail ends with a result and leaves another disk.
* One rule for each way to build a program: `Runs.pure`, `Runs.throw`, `Runs.bind`, `Runs.fail`,
  `Runs.lift`; one rule for each call.
* `runs_makeFolders_exists`, `runs_makeFolders_new`, `runs_makeFolders_missing`: the folders of a
  path are made one by one; `runs_makeFolders_fault` if one of them cannot be made.
* `Storing.runs_file`, `Storing.run_keep_ok`, `Storing.run_keep_error`: programs of the file store.
-/

namespace SchemaLedger

namespace Disk

variable {α β ε : Type}

lemma run_ask (q : FileCall) (next : q.Answer → Program FileSystem α) (d : Disk) :
    run (.ask q next) d = run (next (d.answer q).1) (d.answer q).2 :=
  rfl

/-- The second part of a program runs on the disk that the first part leaves. -/
lemma run_bind (p : Program FileSystem α) (f : α → Program FileSystem β) (d : Disk) :
    run (p.bind f) d = run (f (run p d).1) (run p d).2 := by
  induction p generalizing d with
  | done a => rfl
  | ask q next ih => rw [Program.bind_ask, run_ask, run_ask, ih]

/-- On a disk, a program ends with a result and leaves another disk. -/
def Runs (d : Disk) (p : ExceptT ε (Program FileSystem) α) (r : Except ε α) (d' : Disk) : Prop :=
  run p.run d = (r, d')

namespace Runs

variable {d d' d'' : Disk} {p : ExceptT ε (Program FileSystem) α}
  {f : α → ExceptT ε (Program FileSystem) β} {r : Except ε β} {a : α} {e : ε}

protected lemma pure (d : Disk) (a : α) : d.Runs (ε := ε) (pure a) (.ok a) d :=
  rfl

protected lemma throw (d : Disk) (e : ε) : d.Runs (α := α) (throw e) (.error e) d :=
  rfl

/-- One part after the other. -/
protected lemma bind (first : d.Runs p (.ok a) d') (second : d'.Runs (f a) r d'') :
    d.Runs (p >>= f) r d'' := by
  have parts : run (p >>= f).run d = run (p.run.bind (ExceptT.bindCont f)) d := rfl
  unfold Runs at first second ⊢
  rw [parts, run_bind, first]
  exact second

/-- A program that succeeds has succeeded in its first part. -/
lemma of_bind {b : β} (h : d.Runs (p >>= f) (.ok b) d'') :
    ∃ a d', d.Runs p (.ok a) d' ∧ d'.Runs (f a) (.ok b) d'' := by
  have parts : run (p >>= f).run d = run (p.run.bind (ExceptT.bindCont f)) d := rfl
  unfold Runs at h
  rw [parts, run_bind] at h
  cases first : run p.run d with
  | mk r d' =>
    rw [first] at h
    cases r with
    | ok a => exact ⟨a, d', first, h⟩
    | error e => cases congrArg Prod.fst h

/-- A program has one result. -/
lemma ok_inj {a' : α} (h : d.Runs p (.ok a) d') (h' : d.Runs p (.ok a') d'') : a = a' :=
  Except.ok.inj (congrArg Prod.fst (h.symm.trans h'))

/-- Nothing more is done after a failure. -/
protected lemma fail (first : d.Runs p (.error e) d') : d.Runs (p >>= f) (.error e) d' := by
  have parts : run (p >>= f).run d = run (p.run.bind (ExceptT.bindCont f)) d := rfl
  unfold Runs at first ⊢
  rw [parts, run_bind, first]
  rfl

/-- A result that is made of another one. -/
protected lemma map {x : Except ε α} (g : α → β) (first : d.Runs p x d') :
    d.Runs (do return g (← p)) (x.map g) d' := by
  cases x with
  | ok a => exact first.bind (.pure d' (g a))
  | error e => exact first.fail

/-- A program that cannot fail. -/
protected lemma lift (p : Program FileSystem α) (d : Disk) :
    d.Runs (ε := ε) (ExceptT.lift p) (.ok (run p d).1) (run p d).2 := by
  have parts : run (ExceptT.lift (ε := ε) p).run d = run (p.bind fun a => .done (.ok a)) d := rfl
  rw [Runs, parts, run_bind]
  rfl

/-- A program whose failure is looked at. -/
protected lemma attempt {x : Except ε α} {ε' : Type} (first : d.Runs p x d') :
    d.Runs (ε := ε') (ExceptT.lift p.run) (.ok x) d' := by
  have lifted := Runs.lift (ε := ε') p.run d
  unfold Runs at first
  rwa [first] at lifted

end Runs

/-! ### Calls -/

lemma runs_isPresent (d : Disk) (path : Path) :
    d.Runs (Filing.isPresent path) (.ok (d.find path).toBool) d :=
  rfl

lemma runs_isFolder (d : Disk) (path : Path) :
    d.Runs (Filing.isFolder path) (.ok (match d.find path with | .ok .folder => true | _ => false))
      d :=
  rfl

lemma runs_list (d : Disk) (path : Path) : d.Runs (Filing.list path) (d.list path) d :=
  rfl

variable {d d' : Disk} {path : Path}

lemma runs_writeText {content : String} (h : d.write path content.toUTF8 = .ok d') :
    d.Runs (Filing.writeText path content) (.ok ()) d' := by
  have answered : d.answer (.write path content.toUTF8) = (.ok (), d') := by
    rw [answer, h]
    rfl
  exact answered

lemma runs_writeText_fault {content : String} {fault : FileFault}
    (h : d.write path content.toUTF8 = .error fault) :
    d.Runs (Filing.writeText path content) (.error fault) d := by
  have answered : d.answer (.write path content.toUTF8) = (.error fault, d) := by
    rw [answer, h]
    rfl
  exact answered

lemma runs_rename {source target : Path} (h : d.rename source target = .ok d') :
    d.Runs (Filing.rename source target) (.ok ()) d' := by
  have answered : d.answer (.rename source target) = (.ok (), d') := by
    rw [answer, h]
    rfl
  exact answered

lemma runs_removeFile (h : d.removeFile path = .ok d') :
    d.Runs (Filing.removeFile path) (.ok ()) d' := by
  have answered : d.answer (.removeFile path) = (.ok (), d') := by
    rw [answer, h]
    rfl
  exact answered

lemma runs_removeFolder (h : d.removeFolder path = .ok d') :
    d.Runs (Filing.removeFolder path) (.ok ()) d' := by
  have answered : d.answer (.removeFolder path) = (.ok (), d') := by
    rw [answer, h]
    rfl
  exact answered

/-- The text that was written to a file is read from it. -/
lemma runs_readText {content : String} (h : d.read path = .ok content.toUTF8) :
    d.Runs (Filing.readText path) (.ok content) d := by
  have bytes : d.Runs (Filing.read path) (.ok content.toUTF8) d := by
    have answered : d.answer (.read path) = (.ok content.toUTF8, d) := by rw [answer, h]
    exact answered
  have text : String.fromUTF8? content.toUTF8 = some content := by
    have valid : content.toUTF8.IsValidUTF8 := content.isValidUTF8
    rw [String.fromUTF8?, dif_pos valid]
    rfl
  refine bytes.bind ?_
  rw [text]
  exact .pure d content

/-! ### Making folders -/

/-- The call that makes one folder, whose fault does not end the program. -/
lemma runs_tryFolder {r : Except FileFault Disk} (h : d.makeFolder path = r) :
    d.Runs (ε := FileFault) (ExceptT.lift (Program.query (I := FileSystem) (.makeFolder path)))
      (.ok (d.outcome r).1) (d.outcome r).2 := by
  subst h
  rfl

/-- A folder is there. -/
def HasFolder (d : Disk) (path : Path) : Prop :=
  d.find path = .ok .folder

lemma runs_isFolder_true (h : d.HasFolder path) : d.Runs (Filing.isFolder path) (.ok true) d := by
  have found := d.runs_isFolder path
  rwa [h] at found

/-- Nothing is found at a path. -/
lemma runs_isFolder_false {fault : FileFault} (h : d.find path = .error fault) :
    d.Runs (Filing.isFolder path) (.ok false) d := by
  have found := d.runs_isFolder path
  rwa [h] at found

lemma runs_makeFolder_new (h : d.makeFolder path = .ok d') :
    d.Runs (Filing.makeFolder path) (.ok ()) d' :=
  (runs_tryFolder h).bind (.pure d' ())

variable {folder : Path} {step : String}

/-- The last folder of a path is made first. -/
lemma makeFolders_append (folder : Path) (step : String) :
    Filing.makeFolders (folder ++ [step]) = Filing.makeFoldersUp (step :: folder.reverse) := by
  rw [Filing.makeFolders, List.reverse_append]
  rfl

lemma reverse_cons_reverse (folder : Path) (step : String) :
    (step :: folder.reverse).reverse = folder ++ [step] := by
  rw [List.reverse_cons, List.reverse_reverse]

/-- A folder that is there is left alone. -/
lemma runs_makeFolders_exists (h : d.makeFolder (folder ++ [step]) = .error .alreadyExists)
    (there : d.HasFolder (folder ++ [step])) :
    d.Runs (Filing.makeFolders (folder ++ [step])) (.ok ()) d := by
  rw [makeFolders_append]
  rw [← reverse_cons_reverse] at h there
  refine (runs_tryFolder h).bind ((runs_isFolder_true there).bind ?_)
  exact .pure d ()

/-- A folder is made in one that is there. -/
lemma runs_makeFolders_new (h : d.makeFolder (folder ++ [step]) = .ok d') :
    d.Runs (Filing.makeFolders (folder ++ [step])) (.ok ()) d' := by
  rw [makeFolders_append]
  rw [← reverse_cons_reverse] at h
  exact (runs_tryFolder h).bind (.pure d' ())

/-- The folders on the way are made first. -/
lemma runs_makeFolders_missing {d'' : Disk}
    (h : d.makeFolder (folder ++ [step]) = .error .notFound)
    (before : d.Runs (Filing.makeFolders folder) (.ok ()) d')
    (last : d'.makeFolder (folder ++ [step]) = .ok d'') :
    d.Runs (Filing.makeFolders (folder ++ [step])) (.ok ()) d'' := by
  rw [makeFolders_append]
  rw [← reverse_cons_reverse] at h last
  refine (runs_tryFolder h).bind ?_
  exact before.bind (runs_makeFolder_new last)

variable {fault absent : FileFault}

/-- A folder cannot be made, and there is none. -/
lemma runs_makeFolder_fault (h : d.makeFolder path = .error fault)
    (missing : d.find path = .error absent) :
    d.Runs (Filing.makeFolder path) (.error fault) d :=
  (runs_tryFolder h).bind ((runs_isFolder_false missing).bind (.throw d fault))

/-- A folder cannot be made, whether or not the folders on the way are there. -/
lemma runs_makeFolders_fault (h : d.makeFolder (folder ++ [step]) = .error fault)
    (other : fault ≠ .notFound) (missing : d.find (folder ++ [step]) = .error absent) :
    d.Runs (Filing.makeFolders (folder ++ [step])) (.error fault) d := by
  rw [makeFolders_append]
  rw [← reverse_cons_reverse] at h missing
  refine (runs_tryFolder h).bind ?_
  have throws : d.Runs (do
      unless ← Filing.isFolder (step :: folder.reverse).reverse do throw fault) (.error fault) d :=
    (runs_isFolder_false missing).bind (.throw d fault)
  cases fault with
  | notFound => exact absurd rfl other
  | permissionDenied | alreadyExists | notADirectory | isADirectory | directoryNotEmpty
  | invalidName | invalidData | other => exact throws

/-- The folders on the way are made, but the last one cannot be. -/
lemma runs_makeFolders_last_fault (h : d.makeFolder (folder ++ [step]) = .error .notFound)
    (before : d.Runs (Filing.makeFolders folder) (.ok ()) d')
    (last : d'.makeFolder (folder ++ [step]) = .error fault)
    (missing : d'.find (folder ++ [step]) = .error absent) :
    d.Runs (Filing.makeFolders (folder ++ [step])) (.error fault) d' := by
  rw [makeFolders_append]
  rw [← reverse_cons_reverse] at h last missing
  refine (runs_tryFolder h).bind ?_
  exact before.bind (runs_makeFolder_fault last missing)

end Disk

/-! ### Programs of the file store -/

namespace Storing

variable {α β : Type} {d d' : Disk}

/-- A fault of the file system is a failure of the store. -/
lemma runs_file {p : Filing α} {r : Except FileFault α} (h : d.Runs p r d') :
    d.Runs (file p) (r.mapError .file) d' := by
  have parts : Disk.run (file p).run d =
      Disk.run (p.run.bind fun r => .done (r.mapError .file)) d := rfl
  unfold Disk.Runs at h ⊢
  rw [parts, Disk.run_bind, h]
  rfl

lemma runs_known (d : Disk) {r r' : Except StoreError α} (h : r = r') : d.Runs (known r) r' d := by
  rw [h]
  rfl

/-- A store that succeeds is kept. -/
lemma run_keep_ok {p : Storing (α × FileStore)} {s s' : FileStore} {a : α}
    (h : d.Runs p (.ok (a, s')) d') : Disk.run (s.keep p) d = ((.ok a, s'), d') := by
  unfold Disk.Runs at h
  rw [FileStore.keep, Disk.run_bind, h]
  rfl

/-- A failure leaves the store as it was. -/
lemma run_keep_error {p : Storing (α × FileStore)} {s : FileStore} {e : StoreError}
    (h : d.Runs p (.error e) d') : Disk.run (s.keep p) d = ((.error e, s), d') := by
  unfold Disk.Runs at h
  rw [FileStore.keep, Disk.run_bind, h]
  rfl

end Storing

end SchemaLedger
