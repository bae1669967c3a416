import SchemaLedger.Proofs.Concurrency.World
import SchemaLedger.Proofs.Store.Agreement
import SchemaLedger.Proofs.Store.Integrity

/-!
Jobs on files that anyone may change.

* `Archive`: a store on files, with all that it has asked of the file system. Between any two calls
  to the store the files may be replaced by any others, and the file system answers as it likes.
* `World.Intact`: the cache and all answers come from intact ledgers, and nothing else was written.
* `World.tampering_contained`: whatever becomes of the files, what jobs show comes from intact
  ledgers, none of them misses a last record, and what is written is intact.
-/

namespace SchemaLedger

variable {files : FileServer}

/-- A store, the state of its files, and all that it has asked of them. -/
structure Archive (files : FileServer) where
  store : FileStore
  state : files.State
  asked : List (Exchange FileSystem)

namespace Archive

/-- The answer to a call, and the archive after it. -/
def answer (x : Archive files) (c : StoreCall) : c.Answer × Archive files :=
  let y := files.serve (x.store.answer c) x.asked x.state
  (y.1.1, ⟨y.1.2, y.2.2, y.2.1⟩)

/-- The files may be replaced by any others. -/
def backend (files : FileServer) : Backend where
  State := Archive files
  answer := answer
  Trouble := files.State
  trouble x t := { x with state := t }

/-- The cache holds intact ledgers, and no others were written. -/
structure IsIntact (x : Archive files) : Prop where
  store : x.store.IsIntact
  asked : ∀ e ∈ x.asked, e.question.IsIntact

/-- A store that was opened is an intact archive. -/
lemma isIntact_of_opened {root : Path} {t : files.State} {x : Archive files}
    (opening : files.serve (FileStore.openFolder root).run [] t = (.ok x.store, x.asked, x.state)) :
    x.IsIntact := by
  obtain ⟨⟨ends, -⟩, all⟩ :=
    FileServer.serve_of_obeys (FileStore.isIntact_openFolder root []) t
  rw [opening] at ends all
  exact ⟨ends x.store rfl, fun e he => (all e he).elim (fun old => nomatch old) fun ⟨_, h⟩ => h⟩

/-- An intact archive stays so. -/
lemma IsIntact.answer {x : Archive files} (h : x.IsIntact) {c : StoreCall} (intact : c.IsIntact) :
    c.IsIntactAnswer (x.answer c).1 ∧ (x.answer c).2.IsIntact := by
  obtain ⟨⟨answered, store⟩, all⟩ :=
    FileServer.serve_of_obeys (FileStore.isIntact_answer h.store intact x.asked) x.state
  exact ⟨answered, store, fun e he => (all e he).elim (h.asked e) fun ⟨_, h⟩ => h⟩

end Archive

namespace World

/-- Everything that jobs have to do with comes from intact ledgers. -/
structure Intact (w : World (Archive.backend files)) : Prop where
  archive : Archive.IsIntact w.store
  past : ∀ e ∈ w.history, e.talk.IsIntact

/-- One step keeps a world intact. -/
lemma Intact.step {w w' : World (Archive.backend files)} (h : w.Intact) (kept : w.Kept)
    (step : w.Step w') : w'.Intact := by
  cases step with
  | idle | started job => exact ⟨h.archive, h.past⟩
  | troubled t => exact ⟨⟨h.archive.store, h.archive.asked⟩, h.past⟩
  | @answered caller job q next say waiting fresh =>
    cases q with
    | store c =>
      have intact : c.IsIntact := by
        cases writes : c.isWrite with
        | false =>
          cases c with
          | fetch | fetchRecord | fetchRecords => trivial
          | register | replace | remove => cases writes
        | true =>
          refine ((kept.obeys caller _ waiting).1 c rfl writes).isIntact fun x hx => ?_
          obtain ⟨e, he, -, rfl⟩ := mem_talksOf.1 hx
          exact h.past e he
      obtain ⟨answered, archive⟩ := h.archive.answer intact
      refine ⟨archive, List.forall_mem_append.2 ⟨h.past, fun e he => ?_⟩⟩
      rw [List.mem_singleton.1 he]
      exact answered
    | _ =>
      refine ⟨h.archive, List.forall_mem_append.2 ⟨h.past, fun e he => ?_⟩⟩
      rw [List.mem_singleton.1 he]
      trivial

/-- A world stays intact. -/
lemma intact_after {x : Archive files} (intact : x.IsIntact)
    (moves : List (Move (Archive.backend files))) :
    ((opened x : World (Archive.backend files)).after moves).Intact :=
  after_induction ⟨intact, fun _ he => nomatch he⟩
    (fun moves _ h step => h.step (kept_after _ moves) step) moves

/-- **Tampering is contained.** A store is opened on files that answer as they like, and that may be
replaced by any others at any time. Then whatever a job shows comes from an intact ledger, no job
misses a last record, and every file that is written holds an intact ledger. -/
theorem tampering_contained (files : FileServer) (root : Path) (t : files.State) (x : Archive files)
    (opening : files.serve (FileStore.openFolder root).run [] t = (.ok x.store, x.asked, x.state))
    (moves : List (Move (Archive.backend files))) :
    (∀ (caller : Nat) (job : Job) (result : Except Failure job.task.Result),
      ((opened x : World (Archive.backend files)).after moves).threads[caller]? =
        some ⟨job, .done result⟩ → job.ShowsIntact result) ∧
    ∀ e ∈ Archive.asked ((opened x : World (Archive.backend files)).after moves).store,
      ∀ path content, e.question = .write path content →
        ∃ a : Aggregate, a.ledger.IsIntact ∧ content = (Wire.aggregate.pretty a).toUTF8 := by
  have intact := intact_after (Archive.isIntact_of_opened opening) moves
  refine ⟨fun caller job result ended => ?_, fun e he path content asks => ?_⟩
  · have past : IsIntactPast (talksOf
        ((opened x : World (Archive.backend files)).after moves).history caller) := by
      intro y hy
      obtain ⟨e, he, -, rfl⟩ := mem_talksOf.1 hy
      exact intact.past e he
    exact ((kept_after _ moves).mayEnd ended).showsIntact past
      (obey_after Registry.missesNothing_program _ moves caller _ ended past)
  · have written := intact.archive.asked e he
    rwa [asks] at written

end World

namespace Rehearsal

/-- A store in the folder of the rehearsal, just opened. -/
def archive : Archive Disk.server where
  store := { root := ["data"] }
  state := { nodes := [(["data"], .folder), (["data", "schemas"], .folder)] }
  asked := (Disk.server.serve (FileStore.openFolder ["data"]).run [] site.disk).2.1

lemma serve_archive :
    Disk.server.serve (FileStore.openFolder ["data"]).run [] site.disk =
      (.ok archive.store, archive.asked, archive.state) := by
  have made : site.disk.Runs (Filing.makeFolders (["data"] ++ ["schemas"])) (.ok ()) archive.state :=
    Disk.runs_makeFolders_new rfl
  have listed : Disk.list archive.state ["data", "schemas"] = .ok [] := by
    have leads : Disk.follow archive.state ["data", "schemas"] = .ok ["data", "schemas"] := rfl
    have none : Disk.children archive.state ["data", "schemas"] = [] := List.mergeSort_nil
    rw [Disk.list_folder leads rfl, none]
  have loaded : Disk.Runs archive.state (FileStore.loadAll ["data", "schemas"]) (.ok [])
      archive.state :=
    (FileStore.runs_listed listed).bind (.pure archive.state [])
  have opened : site.disk.Runs (FileStore.openFolder ["data"]) (.ok archive.store) archive.state :=
    (Storing.runs_file made).bind (loaded.bind (.pure archive.state _))
  obtain ⟨result, state⟩ := FileServer.serve_disk (FileStore.openFolder ["data"]).run [] site.disk
  rw [opened] at result state
  exact Prod.ext result (Prod.ext rfl state)

/-- A schema is registered, someone takes all files away, and the schema is shown. -/
def robbery : List (Move (Archive.backend Disk.server)) :=
  .start (job (.register orders registration)) :: List.replicate 6 (.answer 0 say) ++
    [.trouble site.disk, .start (job (.get orders)), .answer 1 say, .answer 1 say]

end Rehearsal

open Rehearsal in
/-- The schema whose file was taken away is shown from its intact ledger. -/
theorem World.robbery_contained :
    Disk.server.serve (FileStore.openFolder ["data"]).run [] site.disk =
        (.ok archive.store, archive.asked, archive.state) ∧
      ((opened archive : World (Archive.backend Disk.server)).after robbery).threads[1]? =
        some ⟨job (.get orders), .done (.ok registered.view)⟩ ∧
      (job (.get orders)).ShowsIntact (.ok registered.view) :=
  ⟨serve_archive, rfl,
    (World.tampering_contained Disk.server ["data"] site.disk archive serve_archive robbery).1 1 _ _
      rfl⟩

end SchemaLedger
