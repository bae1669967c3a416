import Mathlib
import SchemaLedger.CommandLine.Run
import SchemaLedger.Proofs.Lifecycle.Restart
import SchemaLedger.Proofs.Settings.Loading

/-!
Commands that open the store anew.

* `runOn`: a machine with a disk and a clock runs a program.
* `Clerk.staff`: those who serve a command, as the staff of a service.
* `Command.Asks`: the task that a command asks of the registry, and `told`: what is written when
  it has succeeded.
* `Launch.runOn_perform`: a command opens the registry, reads the text of a version, has the task done
  and tells of the result. `Launch.runOn_program` says this of the whole program.
* `Launch.IsReady`: the folder of the registry keeps a shelf from command to command, by
  `Launch.IsReady.step`; so all reports are those of the jobs on one shelf (`Launch.reports_eq`).
* `Staff.restarts_unseen`: restarts are invisible, and commands are like one long-lived service.
-/

namespace SchemaLedger

open FileStore

namespace CommandLine

variable {κ α β ε : Type} {clock : κ → Instant × κ}

/-- What a machine with a disk and a clock answers. -/
def answerOn (clock : κ → Instant × κ) : (q : ShellCall) → Disk × κ → q.Answer × (Disk × κ)
  | .file c, (d, k) => ((d.answer c).1, ((d.answer c).2, k))
  | .readClock, (d, k) => ((clock k).1, (d, (clock k).2))

/-- The result of a program on a machine, and the machine after it. -/
def runOn (clock : κ → Instant × κ) (p : Program Shell α) (m : Disk × κ) : α × (Disk × κ) :=
  Program.run (I := Shell) (m := StateM (Disk × κ)) (fun q m => pure (answerOn clock q m)) p m

lemma runOn_ask (q : ShellCall) (next : q.Answer → Program Shell α) (m : Disk × κ) :
    runOn clock (.ask q next) m =
      runOn clock (next (answerOn clock q m).1) (answerOn clock q m).2 :=
  rfl

/-- The second part of a program runs on the machine that the first part leaves. -/
lemma runOn_bind (clock : κ → Instant × κ) (p : Program Shell α) (f : α → Program Shell β)
    (m : Disk × κ) :
    runOn clock (p.bind f) m = runOn clock (f (runOn clock p m).1) (runOn clock p m).2 := by
  induction p generalizing m with
  | done a => rfl
  | ask q next ih => rw [Program.bind_ask, runOn_ask, runOn_ask, ih]

/-- Programs that only call the file system run on the disk of the machine. -/
lemma runOn_onFiles (p : Program FileSystem α) (d : Disk) (k : κ) :
    runOn clock (onFiles p) (d, k) = ((Disk.run p d).1, ((Disk.run p d).2, k)) := by
  induction p generalizing d with
  | done a => rfl
  | ask c next ih => exact ih _ _

/-! ### Those who serve a command -/

/-- What serves a command besides the store: a source of ids, and the clock. Everybody may do
everything, any text may follow any other, and there is no compiler. -/
abbrev Clerk.staff (clock : κ → Instant × κ) : Staff where
  State := Snowflake × κ
  answer
    | t, .permit _ _ _ => (.ok (), t)
    | t, .store _ => (.error (.backend ""), t)
    | (ids, k), .drawId =>
      ((ids.draw (clock k).1.unixMillis).1, ((ids.draw (clock k).1.unixMillis).2, (clock k).2))
    | (ids, k), .readClock => ((clock k).1, (ids, (clock k).2))
    | t, .judge _ _ _ => (.ok (), t)
    | t, .compile _ => (.error (.failed "there is no compiler"), t)

/-- The clerk and the machine, from a store, its staff and the disk. -/
def Clerk.at : (α × (FileStore × (Snowflake × κ))) × Disk → (α × Clerk) × (Disk × κ)
  | ((a, (f, (ids, k))), d) => ((a, ⟨f, ids⟩), (d, k))

/-- The clerk answers as store and staff do. -/
lemma runOn_answer (q : Request) (f : FileStore) (ids : Snowflake) (d : Disk) (k : κ) :
    runOn clock (Clerk.answer q ⟨f, ids⟩) (d, k) =
      Clerk.at (Disk.run ((Clerk.staff clock).onFiles q (f, (ids, k))) d) := by
  cases q with
  | store c =>
    have asked := runOn_bind clock (onFiles (f.answer c))
      (fun r => .done (r.1, (⟨r.2, ids⟩ : Clerk))) (d, k)
    rw [runOn_onFiles] at asked
    have answered : Disk.run ((Clerk.staff clock).onFiles (.store c) (f, (ids, k))) d =
        (((Disk.run (f.answer c) d).1.1, ((Disk.run (f.answer c) d).1.2, (ids, k))),
          (Disk.run (f.answer c) d).2) :=
      Disk.run_bind (f.answer c) (fun r => .done (r.1, (r.2, (ids, k)))) d
    rw [answered]
    exact asked
  | permit => rfl
  | drawId =>
    -- the id is not to be computed
    simp only [Clerk.answer]
    rfl
  | readClock => rfl
  | judge => rfl
  | compile => rfl

/-- A program of the registry comes to the same for the clerk as for store and staff. -/
lemma runOn_translate (clock : κ → Instant × κ) (p : Program Collaborators α) (f : FileStore)
    (ids : Snowflake) (d : Disk) (k : κ) :
    runOn clock (p.translate (J := Shell) Clerk.answer ⟨f, ids⟩) (d, k) =
      Clerk.at (Disk.run (p.translate (J := FileSystem) (Clerk.staff clock).onFiles
        (f, (ids, k))) d) := by
  induction p generalizing f ids d k with
  | done a => rfl
  | ask q next ih =>
    rw [Program.translate, Program.translate, runOn_bind, runOn_answer, Disk.run_bind]
    exact ih _ _ _ _ _

/-! ### Commands at work -/

section Working

variable {m m' : Disk × κ} {a : α} {d d' : Disk}

/-- One part after the other. -/
lemma runOn_bind_ok {p : Working α} (f : α → Working β)
    (first : runOn clock p.run m = (.ok a, m')) :
    runOn clock (p >>= f).run m = runOn clock (f a).run m' := by
  have parts : runOn clock (p >>= f).run m = runOn clock (p.run.bind (ExceptT.bindCont f)) m := rfl
  rw [parts, runOn_bind, first]
  rfl

/-- A program that cannot fail. -/
lemma runOn_lift (clock : κ → Instant × κ) (p : Program Shell α) (m : Disk × κ) :
    runOn clock (ExceptT.lift (ε := Stop) p).run m =
      (.ok (runOn clock p m).1, (runOn clock p m).2) := by
  have parts : (ExceptT.lift (ε := Stop) p).run = p.bind fun a => .done (.ok a) := rfl
  rw [parts, runOn_bind]
  rfl

/-- A program that may fail runs on the disk of the machine. -/
lemma runOn_files {p : ExceptT ε (Program FileSystem) α} (stop : ε → Stop)
    (runs : d.Runs p (.ok a) d') (k : κ) :
    runOn clock (Working.files stop p).run (d, k) = (.ok a, (d', k)) := by
  have called := runOn_lift clock (onFiles p.run) (d, k)
  rw [runOn_onFiles, runs] at called
  rw [Working.files, runOn_bind_ok _ called]
  rfl

/-- An operation of the registry is served by the clerk as by store and staff. -/
lemma runOn_serve {p : Operating α} {f f' : FileStore} {ids : Snowflake} {k : κ}
    {r : Except Failure α} {t : Snowflake × κ}
    (served : Disk.run (p.run.translate (J := FileSystem) (Clerk.staff clock).onFiles
      (f, (ids, k))) d = ((r, (f', t)), d')) :
    runOn clock (serve ⟨f, ids⟩ p).run (d, k) = (r.mapError Stop.ofRegistry, (d', t.2)) := by
  have translated := runOn_translate clock p.run f ids d k
  rw [served] at translated
  have called := runOn_lift clock (Clerk.serve ⟨f, ids⟩ p) (d, k)
  rw [Clerk.serve, runOn_bind, translated] at called
  rw [serve, Clerk.serve, runOn_bind_ok _ called]
  rfl

/-- What is made of a result. -/
lemma runOn_map {p : Working α} {r : Except Stop α} (f : α → β)
    (first : runOn clock p.run m = (r, m')) :
    runOn clock (do return f (← p)).run m = (r.map f, m') := by
  have parts : runOn clock (do return f (← p)).run m =
      runOn clock (p.run.bind (ExceptT.bindCont fun a => pure (f a))) m := rfl
  rw [parts, runOn_bind, first]
  cases r <;> rfl

end Working

/-! ### What a command asks, and what it tells -/

/-- What a command asks of the registry, where the file that it names holds the text of a version. -/
inductive Command.Asks (d : Disk) : Command → Task → Prop
  | register {name : SchemaName} {textFile owner text : String} {description : Option String}
    {family : Family} {policy : Policy}
    (holds : d.find (Path.ofText textFile) = .ok (.file text.toUTF8)) :
    Asks d (.register name textFile owner description family policy)
      (.register name ⟨owner, description, policy, family, text⟩)
  | update {name : SchemaName} {textFile owner text : String}
    (holds : d.find (Path.ofText textFile) = .ok (.file text.toUTF8)) :
    Asks d (.update name textFile owner) (.update name ⟨owner, text⟩)
  | delete (name : SchemaName) : Asks d (.delete name) (.delete name)
  | get (name : SchemaName) : Asks d (.get name) (.get name)
  | readSubject (name : SchemaName) : Asks d (.readSubject name) (.getBySubject name)
  | readHistory (name : SchemaName) : Asks d (.readHistory name) (.listBySubject name)

/-- A command asks the same as long as its file stays as it is. -/
lemma Command.Asks.mono {d d' : Disk} {c : Command} {task : Task} (h : c.Asks d task)
    (kept : ∀ path node, d.find path = .ok node → d'.find path = .ok node) : c.Asks d' task := by
  cases h with
  | register holds => exact .register (kept _ _ holds)
  | update holds => exact .update (kept _ _ holds)
  | delete name => exact .delete name
  | get name => exact .get name
  | readSubject name => exact .readSubject name
  | readHistory name => exact .readHistory name

/-- What is written when a task has succeeded. No command has an artifact compiled. -/
def told : (t : Task) → t.Result → String
  | .register name _, receipt => registeredLine name receipt
  | .update name _, receipt => updatedLine name receipt
  | .delete _, view => deletedLine view
  | .get _, view => valueLines Wire.schemaView view
  | .getBySubject _, record => valueLines Wire.recordView record
  | .listBySubject _, records => valueLines (.list Wire.recordView) records
  | .compileArtifact _, _ => ""

/-- The report on a job that was served. -/
def reportOf (served : ServedJob) : Report :=
  match served.2 with
  | .ok result => { status := 0, output := told served.1.task result }
  | .error e => (Stop.ofRegistry e).report

/-! ### Lines -/

/-- What is typed on a command line, and the environment in which it is. -/
structure Line where
  environment : Environment.Variables
  arguments : List String

/-- The program at work on a line. -/
def Line.program (formats : SettingsFormats) (line : Line) : Program Shell Report :=
  run line.environment line.arguments formats

/-- A command with the settings that count for it, and the task that it asks of the registry. -/
structure Launch where
  invocation : Invocation
  settings : Settings
  task : Task

/-- A line comes to a launch: it is a command, the settings are loaded, and the file that the command
names holds the text of a version. -/
structure Line.Launches (formats : SettingsFormats) (d : Disk) (line : Line) (l : Launch) :
    Prop where
  command : Invocation.ofArguments line.arguments = .ok l.invocation
  loads : d.Runs (Settings.load line.environment l.invocation.settingsFile formats)
    (.ok l.settings) d
  asks : l.invocation.command.Asks d l.task

/-- Lines come to launches one after the other, each on the disk that those before it leave. -/
inductive Launched (clock : κ → Instant × κ) (formats : SettingsFormats) :
    List Line → Disk × κ → List Launch → Prop
  | nil (m : Disk × κ) : Launched clock formats [] m []
  | cons {line : Line} {rest : List Line} {m : Disk × κ} {l : Launch} {launches : List Launch}
    (first : line.Launches formats m.1 l)
    (others : Launched clock formats rest (runOn clock (line.program formats) m).2 launches) :
    Launched clock formats (line :: rest) m (l :: launches)

/-- The reports on some lines. -/
def reports (clock : κ → Instant × κ) (formats : SettingsFormats) :
    List Line → Disk × κ → List Report
  | [], _ => []
  | line :: rest, m =>
    (runOn clock (line.program formats) m).1 ::
      reports clock formats rest (runOn clock (line.program formats) m).2

namespace Launch

/-- The job of a launch. -/
def job (l : Launch) : Job where
  registry := ⟨{ l.settings.registry with uploadEnabled := false }, false⟩
  actor := l.invocation.actor
  task := l.task

/-- The source of ids that the command has at first. -/
def ids (l : Launch) : Snowflake where
  node := l.settings.registry.nodeId.toNat

/-- The folder of the launch is a root, and its registry has a number that is not too large. -/
structure IsAt (l : Launch) (root : Path) : Prop where
  leads : Path.ofText (l.invocation.root.getD l.settings.storage.path) = root
  node : l.settings.registry.nodeId.toNat ≤ maxNodeId

/-- A service that does the same without being opened: its source of ids starts anew, and it serves
the job. -/
def turns (l : Launch) : List (Turn (Snowflake × κ)) :=
  [.shift fun t => (l.ids, t.2), .serve l.job]

lemma jobs_turns (launches : List Launch) :
    Turn.jobs (launches.flatMap (turns (κ := κ))) = launches.map job := by
  induction launches with
  | nil => rfl
  | cons l rest ih => exact congrArg (l.job :: ·) ih

variable {formats : SettingsFormats} {line : Line} {l : Launch} {site : Site} {n : Nat} {s : Shelf}
  {f f' : FileStore} {d d' d'' : Disk} {k : κ}

/-- The registry is opened, with a source of ids that starts anew. -/
lemma runOn_openRegistry (here : l.IsAt site.root)
    (opened : d.Runs (openFolder site.root) (.ok f) d') :
    runOn clock (openRegistry l.invocation.root l.settings).run (d, k) =
      (.ok (l.job.registry, ⟨f, l.ids⟩), (d', k)) := by
  have few : ¬maxNodeId < l.settings.registry.nodeId.toNat := Nat.not_lt.2 here.node
  have built : Registry.build { l.settings.registry with uploadEnabled := false } false false =
      .ok l.job.registry := by
    simp [Registry.build, job, few]
  have ids : Snowflake.ofNode l.settings.registry.nodeId.toNat = .ok l.ids := by
    rw [Snowflake.ofNode, if_neg few, Launch.ids]
  rw [openRegistry, runOn_bind_ok _ (runOn_files _ (here.leads.symm ▸ opened) k)]
  simp only [built, ids]
  rfl

/-- The text of a version is read. -/
lemma runOn_readVersion {path text : String}
    (holds : d.find (Path.ofText path) = .ok (.file text.toUTF8)) (k : κ) :
    runOn clock (readVersion path).run (d, k) = (.ok text, (d, k)) :=
  runOn_files _ (Disk.runs_readText (Disk.read_of_find holds)) k

/-- **A command has its task done by the registry in its folder, and tells of the result.** -/
lemma runOn_perform (here : l.IsAt site.root) (asks : l.invocation.command.Asks d' l.task)
    (opened : d.Runs (openFolder site.root) (.ok f) d') {r : Except Failure l.task.Result}
    {t : Snowflake × κ}
    (served : Disk.run ((Clerk.staff clock).serve l.job (f, (l.ids, k))) d' = ((r, (f', t)), d'')) :
    runOn clock (perform l.invocation l.settings).run (d, k) =
      ((r.mapError Stop.ofRegistry).map (told l.task), (d'', t.2)) := by
  have first : runOn clock (openRegistry l.invocation.root l.settings).run (d, k) =
      (.ok (l.job.registry, ⟨f, l.ids⟩), (d', k)) := runOn_openRegistry here opened
  have done : runOn clock (serve ⟨f, l.ids⟩ l.job.program).run (d', k) =
      (r.mapError Stop.ofRegistry, (d'', t.2)) := runOn_serve served
  have last := runOn_map (told l.task) done
  obtain ⟨⟨settingsFile, root, actor, command⟩, settings, task⟩ := l
  cases asks with
  | register holds =>
    exact (runOn_bind_ok _ first).trans ((runOn_bind_ok _ (runOn_readVersion holds k)).trans last)
  | update holds =>
    exact (runOn_bind_ok _ first).trans ((runOn_bind_ok _ (runOn_readVersion holds k)).trans last)
  | delete name => exact (runOn_bind_ok _ first).trans last
  | get name => exact (runOn_bind_ok _ first).trans last
  | readSubject name => exact (runOn_bind_ok _ first).trans last
  | readHistory name => exact (runOn_bind_ok _ first).trans last

/-- **The program reports on the job of a line**, as it is done at a store that was just opened. -/
lemma runOn_program (launches : line.Launches formats d l) (here : l.IsAt site.root)
    (opened : d.Runs (openFolder site.root) (.ok f) d')
    (kept : ∀ path node, d.find path = .ok node → d'.find path = .ok node)
    {r : Except Failure l.task.Result} {t : Snowflake × κ}
    (served : Disk.run ((Clerk.staff clock).serve l.job (f, (l.ids, k))) d' = ((r, (f', t)), d'')) :
    runOn clock (line.program formats) (d, k) = (reportOf ⟨l.job, r⟩, (d'', t.2)) := by
  have done : runOn clock (execute line.environment l.invocation formats).run (d, k) =
      ((r.mapError Stop.ofRegistry).map (told l.task), (d'', t.2)) := by
    rw [execute, runOn_bind_ok _ (runOn_files _ launches.loads k)]
    exact runOn_perform here (launches.asks.mono kept) opened served
  rw [Line.program, run, launches.command]
  dsimp only
  rw [runOn_bind, done]
  cases r <;> rfl

/-- The folder of the registry keeps a shelf with few versions, or is still empty, and all that was
on the disk at first is still there. -/
structure IsReady (site : Site) (n : Nat) (s : Shelf) (d : Disk) : Prop where
  few : s.HasFew n
  tidy : s.IsTidy site.root
  opens : ∃ f d', d.Runs (openFolder site.root) (.ok f) d' ∧ Represents site f d' s ∧
    ∀ path node, d.find path = .ok node → d'.find path = .ok node
  kept : ∀ path node, site.disk.find path = .ok node → d.find path = .ok node

/-- An empty folder is ready. -/
lemma isReady_start (site : Site) : IsReady site 0 Shelf.empty site.disk where
  few := Shelf.hasFew_empty 0
  tidy := Shelf.isTidy_empty
  opens := by
    obtain ⟨f, d, opened, represents⟩ := represents_open site
    exact ⟨f, d, opened, represents, fun path node => represents.disk.find_kept⟩
  kept path node found := found

/-- What a service makes of the job of a launch, if its source of ids starts anew. -/
abbrev work (clock : κ → Instant × κ) (root : Path) (l : Launch) (s : Shelf) (k : κ) :
    Except Failure l.task.Result × (Shelf × (Snowflake × κ)) :=
  (Clerk.staff clock).work root l.job.program.run (s, (l.ids, k))

/-- **A line is reported on as its job on the shelf**, and the folder is ready for the next one. -/
lemma IsReady.step (clock : κ → Instant × κ) (ready : IsReady site n s d) (small : n + 1 < Word.limit 64)
    (here : l.IsAt site.root) (launches : line.Launches formats d l) (k : κ) :
    ∃ d', runOn clock (line.program formats) (d, k) =
        (reportOf ⟨l.job, (l.work clock site.root s k).1⟩,
          (d', (l.work clock site.root s k).2.2.2)) ∧
      IsReady site (n + 1) (l.work clock site.root s k).2.1 d' := by
  let t : (Clerk.staff clock).State := (l.ids, k)
  obtain ⟨f, d₁, opened, represents, kept⟩ := ready.opens
  obtain ⟨f', d₂, served, after⟩ := Staff.run_serve (j := l.job) (t := t) ready.few ready.tidy small
    represents
  obtain ⟨tidy, few⟩ := Staff.work_program (j := l.job) (t := t) ready.few ready.tidy small
  obtain ⟨f'', reopened, again⟩ := reopen after.disk tidy
  exact ⟨d₂, runOn_program launches here opened kept served, few, tidy,
    ⟨f'', d₂, reopened, again, fun path node found => found⟩,
    fun path node => after.disk.find_kept⟩

/-- **Lines in one folder are reported on as their jobs on one shelf.** -/
lemma reports_eq {lines : List Line} {launches : List Launch}
    (launched : Launched clock formats lines (d, k) launches)
    (here : ∀ l ∈ launches, l.IsAt site.root) (small : n + launches.length < Word.limit 64)
    (ready : IsReady site n s d) (ids : Snowflake) :
    reports clock formats lines (d, k) =
      ((Clerk.staff clock).results site.root (launches.flatMap turns) (s, (ids, k))).map
        reportOf := by
  induction launches generalizing lines n s d ids k with
  | nil =>
    cases launched
    rfl
  | cons l launches ih =>
    rw [List.length_cons] at small
    obtain ⟨at_l, at_rest⟩ := List.forall_mem_cons.1 here
    cases launched with
    | cons first others =>
      obtain ⟨d', reported, ready'⟩ := ready.step clock (by omega) at_l first k
      rw [reported] at others
      rw [reports, reported]
      exact congrArg _ (ih others at_rest (by omega) ready' _)

/-- Lines come to launches for which everything is there from the start. -/
lemma launched_of_kept {lines : List Line} {launches : List Launch}
    (comes : List.Forall₂ (fun line l => ∀ d : Disk,
      (∀ path node, site.disk.find path = .ok node → d.find path = .ok node) →
        line.Launches formats d l) lines launches)
    (here : ∀ l ∈ launches, l.IsAt site.root) (small : n + launches.length < Word.limit 64)
    (ready : IsReady site n s d) (k : κ) : Launched clock formats lines (d, k) launches := by
  induction comes generalizing n s d k with
  | nil => exact .nil _
  | cons first others ih =>
    rw [List.length_cons] at small
    obtain ⟨at_l, at_rest⟩ := List.forall_mem_cons.1 here
    have launches := first d ready.kept
    obtain ⟨d', reported, ready'⟩ := ready.step clock (by omega) at_l launches k
    refine .cons launches ?_
    rw [reported]
    exact ih at_rest (by omega) ready' _

end Launch

end CommandLine

open CommandLine

/-- **Restarts are invisible.** A service whose store is in an empty folder may close it and open it
again between any two jobs: this succeeds, and every result is as without the restarts. Lines on the
command line that open the store anew, in the same folder, are reported on as the jobs of one such
service, whose source of ids starts anew where theirs do. (Versions are numbers of 64 bits, so there
must not be more jobs than these can count.) -/
theorem Staff.restarts_unseen (site : Site) :
    (∀ (staff : Staff) (turns : List (Turn staff.State)) (t : staff.State),
      (Turn.jobs turns).length < Word.limit 64 →
        ∃ results, (Disk.run (staff.session site.root turns t).run site.disk).1 = .ok results ∧
          (Disk.run (staff.session site.root (Turn.lasting turns) t).run site.disk).1 =
            .ok results) ∧
      ∀ (κ : Type) (clock : κ → Instant × κ) (formats : SettingsFormats) (k : κ) (ids : Snowflake)
        (lines : List Line) (launches : List Launch),
        Launched clock formats lines (site.disk, k) launches →
        (∀ l ∈ launches, l.IsAt site.root) → launches.length < Word.limit 64 →
          ∃ results, (Disk.run ((Clerk.staff clock).session site.root
              (launches.flatMap Launch.turns) (ids, k)).run site.disk).1 = .ok results ∧
            reports clock formats lines (site.disk, k) = results.map reportOf := by
  refine ⟨fun staff turns t small => session_lasting small,
    fun κ clock formats k ids lines launches launched here small => ⟨_, run_session ?_, ?_⟩⟩
  · rw [Launch.jobs_turns, List.length_map]
    exact small
  · exact Launch.reports_eq launched here (by omega) (Launch.isReady_start site) ids

namespace Rehearsal

/-- A folder for the registry, two files with the texts of versions, and files for settings in which
there are none. -/
def desk : Site where
  disk :=
    { nodes := [(["data"], .folder), (["first.avsc"], .file registration.idl.toUTF8),
        (["second.avsc"], .file change.idl.toUTF8), (["config"], .folder),
        (["schema-registry.toml"], .file "".toUTF8), ([".schema-registry.toml"], .file "".toUTF8),
        (["config", "schema-registry.toml"], .file "".toUTF8)] }
  root := ["data"]
  place := ["data"]
  leads := rfl
  isFolder := rfl
  isEmpty steps some := by
    cases steps with
    | nil => exact absurd rfl some
    | cons step rest => rfl
  fits := site.fits

/-- The same schema comes and goes on the command line. -/
def commands : List (List String × Command × Task) :=
  [(["register", "shop", "orders", "Order", "--idl", "first.avsc", "--owner", "ann"],
      .register orders "first.avsc" "ann" none .avro .backward, .register orders registration),
    (["update", "shop", "orders", "Order", "--idl", "second.avsc", "--owner", "bob"],
      .update orders "second.avsc" "bob", .update orders change),
    (["get", "shop", "orders", "Order"], .get orders, .get orders),
    (["delete", "shop", "orders", "Order"], .delete orders, .delete orders),
    (["register", "shop", "orders", "Order", "--idl", "first.avsc", "--owner", "ann"],
      .register orders "first.avsc" "ann" none .avro .backward, .register orders registration),
    (["subject", "shop", "orders", "--all"], .readHistory { orders with schema := "" },
      .listBySubject { orders with schema := "" })]

def lines : List Line :=
  commands.map fun c => ⟨[], ["--root", "data"] ++ c.1⟩

def launches : List Launch :=
  commands.map fun c => ⟨{ root := some "data", command := c.2.1 }, {}, c.2.2⟩

/-- The commands are run in the folder for the registry. -/
lemma isAt_launches : ∀ l ∈ launches, l.IsAt desk.root := by
  intro l hl
  obtain ⟨c, -, rfl⟩ := List.mem_map.1 hl
  have leads : Path.ofText "data" = ["data"] := by
    rw [Path.ofText, Path.splitOn_slash]
    decide
  exact ⟨leads, Nat.zero_le _⟩

/-- The arguments are read as the commands. -/
lemma ofArguments_commands : ∀ c ∈ commands, Invocation.ofArguments (["--root", "data"] ++ c.1) =
    .ok { root := some "data", command := c.2.1 } := by
  simp only [commands, List.forall_mem_cons]
  exact ⟨by cbv, by cbv, by cbv, by cbv, by cbv, by cbv, List.forall_mem_nil _⟩

section Kept

variable {d : Disk} (kept : ∀ path node, desk.disk.find path = .ok node → d.find path = .ok node)
include kept

/-- The files hold the texts of the versions. -/
lemma asks_commands : ∀ c ∈ commands, c.2.1.Asks d c.2.2 := by
  have first : d.find (Path.ofText "first.avsc") = .ok (.file registration.idl.toUTF8) := by
    rw [Path.ofText, Path.splitOn_slash]
    exact kept _ _ rfl
  have second : d.find (Path.ofText "second.avsc") = .ok (.file change.idl.toUTF8) := by
    rw [Path.ofText, Path.splitOn_slash]
    exact kept _ _ rfl
  simp only [commands, List.forall_mem_cons]
  exact ⟨.register first, .update second, .get _, .delete _, .register first, .readHistory _,
    List.forall_mem_nil _⟩

/-- The files for settings leave the settings as they are by default. -/
lemma loads_default : d.Runs (Settings.load [] none) (.ok {}) d := by
  have format (steps : Path) (h : steps.name?.bind FileName.extension? = some "toml") :
      SettingsFile.format? {} steps = some .toml := SettingsFile.format?_toml h
  have read : SettingsFormat.toml.read "" = .ok Setting.empty := SettingsFormat.read_toml rfl
  have nothing : ∀ file ∈ SettingsFile.localFiles,
      d.Runs (SettingsFile.optional {} file) (.ok Setting.empty) d := by
    intro file known
    simp only [SettingsFile.localFiles, List.mem_cons, List.not_mem_nil, or_false] at known
    rcases known with rfl | rfl | rfl
    all_goals
      refine SettingsFile.runs_optional_file ?_ (format _ ?_) read
      all_goals rw [Path.ofText, Path.splitOn_slash]
      · exact kept _ _ rfl
      · decide
  have lower : d.Runs ((Settings.lower {} []).foldlM Settings.addLayer Setting.empty)
      (.ok Setting.empty) d := by
    refine (Settings.runs_addLayer (nothing _ (by decide)) rfl).bind ?_
    refine (Settings.runs_addLayer (nothing _ (by decide)) rfl).bind ?_
    refine (Settings.runs_addLayer (nothing _ (by decide)) rfl).bind ?_
    exact (Settings.runs_addLayer (.pure d _) rfl).bind (.pure d _)
  exact Settings.runs_load_of lower (.pure d _) rfl rfl rfl

end Kept

/-- The lines come to the launches one after the other. -/
lemma launched_lines {κ : Type} (clock : κ → Instant × κ) (k : κ) :
    Launched clock {} lines (desk.disk, k) launches := by
  refine Launch.launched_of_kept ?_ isAt_launches (by decide) (Launch.isReady_start desk) k
  rw [lines, launches, List.forall₂_map_left_iff, List.forall₂_map_right_iff, List.forall₂_same]
  intro c known d kept
  exact ⟨ofArguments_commands c known, loads_default kept, asks_commands kept c known⟩

end Rehearsal

open Rehearsal in
/-- The restarts of the rehearsal are invisible, and so are those between its commands. -/
theorem Staff.restarts_of_orders :
    ((Turn.jobs Rehearsal.turns).length < Word.limit 64 ∧
      ∃ results,
        (Disk.run (Rehearsal.staff.session ["data"] Rehearsal.turns (1 : UInt64)).run
          Rehearsal.site.disk).1 = .ok results ∧
        (Disk.run (Rehearsal.staff.session ["data"] (Turn.lasting Rehearsal.turns)
          (1 : UInt64)).run Rehearsal.site.disk).1 = .ok results) ∧
      (Launched (fun _ => (noon, ())) {} lines (desk.disk, ()) launches ∧
        (∀ l ∈ launches, l.IsAt ["data"]) ∧ launches.length < Word.limit 64) ∧
        ∃ results,
          (Disk.run ((Clerk.staff fun _ => (noon, ())).session ["data"]
            (launches.flatMap Launch.turns) ({ node := 0 }, ())).run desk.disk).1 =
              .ok results ∧
          reports (fun _ => (noon, ())) {} lines (desk.disk, ()) = results.map reportOf :=
  ⟨⟨by decide, (Staff.restarts_unseen Rehearsal.site).1 Rehearsal.staff Rehearsal.turns
      (1 : UInt64) (by decide)⟩,
    ⟨launched_lines _ (), isAt_launches, by decide⟩,
    (Staff.restarts_unseen desk).2 Unit (fun _ => (noon, ())) {} () { node := 0 } lines launches
      (launched_lines _ ()) isAt_launches (by decide)⟩

end SchemaLedger
