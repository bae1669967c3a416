import SchemaLedger.Proofs.Concurrency.Runs

/-!
Jobs that are refused.

* `Task.scope`, `Task.operation`: what a task needs permission for.
* `Job.program_eq`: every job checks its name, asks for permission, and only then goes on.  All else
  here is read off this one equation.
* `Job.obeys_door`: a job whose name lacks a part asks nothing at all, and a job that is denied asks
  for nothing but permission.
* `World.refusal_reveals_nothing`: in any two runs, with any stores, registries and collaborators,
  a job that is refused ends alike, has asked alike, and has left the stores as they were.
-/

namespace SchemaLedger

/-- The operation for which a task needs permission. -/
def Task.operation : Task → Operation
  | .register _ _ => .register
  | .update _ _ => .update
  | .delete _ => .delete
  | .get _ => .get
  | .getBySubject _ => .get
  | .listBySubject _ => .get
  | .compileArtifact _ => .update

/-- The scope in which a task needs permission: the subject if it is a read by subject, and the
tenant otherwise. -/
def Task.scope : Task → String
  | .getBySubject name => name.subject
  | .listBySubject name => name.subject
  | task => task.name.tenant

/-- Everything is allowed to a program after some exchanges if it is allowed whatever follows
them. -/
lemma Program.obeys_of_prefix {I : Interface} {α : Type}
    {mayAsk : List (Exchange I) → I.Ask → Prop} {mayEnd : List (Exchange I) → α → Prop}
    {past : List (Exchange I)} (asks : ∀ later q, mayAsk (past ++ later) q)
    (ends : ∀ later a, mayEnd (past ++ later) a) (p : Program I α) (later : List (Exchange I)) :
    p.Obeys mayAsk mayEnd (past ++ later) := by
  induction p generalizing later with
  | done a => exact ends later a
  | ask q next ih =>
    refine ⟨asks later q, fun r => ?_⟩
    rw [List.append_assoc]
    exact ih r _

namespace Job

/-- The question for permission. -/
def permission (j : Job) : Request :=
  .permit j.actor j.task.scope j.task.operation

/-- Every job checks its name and asks for permission before anything else. -/
lemma program_eq (j : Job) :
    ∃ inside : Operating j.task.Result, j.program =
      Operating.lift id (j.task.name.check j.task.parts) >>= fun _ =>
        Registry.authorize j.actor j.task.scope j.task.operation >>= fun _ => inside := by
  obtain ⟨r, actor, task⟩ := j
  cases task with
  | register name request => exact ⟨_, rfl⟩
  | update name request => exact ⟨_, rfl⟩
  | delete name => exact ⟨_, rfl⟩
  | get name => exact ⟨_, rfl⟩
  | getBySubject name => exact ⟨_, rfl⟩
  | listBySubject name => exact ⟨_, rfl⟩
  | compileArtifact name => exact ⟨_, rfl⟩

/-- Permission was given, before anything else was asked. -/
def IsAdmitted (j : Job) (past : List Talk) : Prop :=
  [⟨j.permission, Except.ok ()⟩] <+: past

/-- What a job may ask: for permission under a valid name, and more once it has it. -/
def AsksAtDoor (j : Job) (past : List Talk) (q : Request) : Prop :=
  j.task.name.blankPart? j.task.parts = none ∧
    (past = [] ∧ q = j.permission ∨ j.IsAdmitted past)

/-- How a job may end. -/
inductive EndsAtDoor (j : Job) : List Talk → Except Failure j.task.Result → Prop
  | blank {part : NamePart} (blank : j.task.name.blankPart? j.task.parts = some part) :
    EndsAtDoor j [] (.error (.blankPart part j.task.name.fullName))
  | denied (d : Denial) (valid : j.task.name.blankPart? j.task.parts = none) :
    EndsAtDoor j [⟨j.permission, Except.error d⟩] (.error (.denied d))
  | admitted {past : List Talk} {r : Except Failure j.task.Result}
    (valid : j.task.name.blankPart? j.task.parts = none) (admitted : j.IsAdmitted past) :
    EndsAtDoor j past r

/-- **Every job asks for permission first**, and for nothing else unless it gets it. -/
theorem obeys_door (j : Job) : Operating.Obeys j.AsksAtDoor j.EndsAtDoor j.program [] := by
  obtain ⟨inside, program⟩ := j.program_eq
  rw [program]
  cases first : j.task.name.blankPart? j.task.parts with
  | some part =>
    refine Operating.obeys_lift_bind (fun _ valid => ?_) fun e refused => ?_
    · rw [SchemaName.check, first] at valid
      cases valid
    · rw [SchemaName.check, first] at refused
      cases refused
      exact .blank first
  | none =>
    refine Operating.obeys_lift_bind (fun _ _ => ?_) fun e refused => ?_
    · refine Registry.obeys_authorize_bind ⟨first, .inl ⟨rfl, rfl⟩⟩ ?_ fun d => .denied d first
      -- once the job is admitted, it may do anything
      have free : inside.run.Obeys j.AsksAtDoor j.EndsAtDoor
          ([⟨j.permission, Except.ok ()⟩] ++ []) :=
        Program.obeys_of_prefix (fun later q => ⟨first, .inr ⟨later, rfl⟩⟩)
          (fun later r => .admitted first ⟨later, rfl⟩) inside.run []
      exact free
    · rw [SchemaName.check, first] at refused
      cases refused

end Job

namespace World

variable {B : Backend} {store : B.State} {w : World B} {caller : Nat} {j : Job}
  {rest : Program Collaborators (Except Failure j.task.Result)}

/-- A job whose name lacks a part has ended at once, and has asked nothing. -/
lemma Reaches.of_blank (run : (opened store).Reaches w)
    (started : w.threads[caller]? = some ⟨j, rest⟩) {part : NamePart}
    (blank : j.task.name.blankPart? j.task.parts = some part) :
    rest = .done (.error (.blankPart part j.task.name.fullName)) ∧ w.transcript caller = [] := by
  have door := run.obey Job.obeys_door caller _ started
  cases rest with
  | done r =>
    generalize w.transcript caller = past at door
    cases (show j.EndsAtDoor past r from door) with
    | blank first =>
      cases first.symm.trans blank
      exact ⟨rfl, rfl⟩
    | denied d valid => cases valid.symm.trans blank
    | admitted valid _ => cases valid.symm.trans blank
  | ask q next => cases door.1.1.symm.trans blank

/-- A job with a valid name asks for permission first. -/
lemma Reaches.of_valid (run : (opened store).Reaches w)
    (started : w.threads[caller]? = some ⟨j, rest⟩)
    (valid : j.task.name.blankPart? j.task.parts = none) :
    (w.transcript caller = [] ∧ ∃ next, rest = .ask j.permission next) ∨
      (∃ d, w.transcript caller = [⟨j.permission, Except.error d⟩] ∧
        rest = .done (.error (.denied d))) ∨
      j.IsAdmitted (w.transcript caller) := by
  have door := run.obey Job.obeys_door caller _ started
  cases rest with
  | done r =>
    generalize w.transcript caller = past at door
    cases (show j.EndsAtDoor past r from door) with
    | blank first => cases first.symm.trans valid
    | denied d _ => exact .inr (.inl ⟨d, rfl, rfl⟩)
    | admitted _ admitted => exact .inr (.inr admitted)
  | ask q next =>
    rcases (show j.AsksAtDoor _ q from door.1).2 with ⟨silent, rfl⟩ | admitted
    · exact .inl ⟨silent, next, rfl⟩
    · exact .inr (.inr admitted)

/-- A job that was denied has ended, and has asked for nothing but permission. -/
lemma Reaches.of_denied (run : (opened store).Reaches w)
    (started : w.threads[caller]? = some ⟨j, rest⟩) {d : Denial}
    (denied : (w.transcript caller).head? = some ⟨j.permission, Except.error d⟩) :
    rest = .done (.error (.denied d)) ∧
      w.transcript caller = [⟨j.permission, Except.error d⟩] := by
  cases first : j.task.name.blankPart? j.task.parts with
  | some part =>
    rw [(run.of_blank started first).2] at denied
    cases denied
  | none =>
    rcases run.of_valid started first with ⟨silent, -⟩ | ⟨d', once, ended⟩ | ⟨later, admitted⟩
    · rw [silent] at denied
      cases denied
    · rw [once] at denied
      cases denied
      exact ⟨ended, once⟩
    · rw [← admitted] at denied
      cases denied

/-- A step in which the store is not asked leaves it as it is. -/
lemma StepOf.store_eq {w₀ w₁ w₂ : World B} {e : Event} (h : StepOf w₀ w caller w₁ w₂ e)
    (other : ∀ c, e.talk.question ≠ .store c) : w₂.store = w₁.store := by
  obtain ⟨-, step, -, added, -⟩ := h
  cases step with
  | idle | started | troubled => simp at added
  | @answered caller' job q next say waiting =>
    cases List.append_cancel_left added
    cases q with
    | store c => exact absurd rfl (other c)
    | permit | drawId | readClock | judge | compile => rfl

/-- **A refused caller learns nothing and touches nothing.**  Take any two runs, with any stores and
collaborators and with whatever other jobs, and in each of them a job of one actor with one task, at
registries with any settings.  If the name lacks a part that the task needs, then both jobs end with
this failure, and neither has asked anything.  Otherwise each asks for permission before anything
else, and if it is denied, then both end with this denial, and neither has asked anything more.  No
step of a job that is refused changes its store. -/
theorem refusal_reveals_nothing {B B' : Backend} {store : B.State} {store' : B'.State}
    {w : World B} {w' : World B'} (run : (opened store).Reaches w)
    (run' : (opened store').Reaches w') {caller caller' : Nat} {r r' : Registry} {actor : String}
    {task : Task} {rest rest' : Program Collaborators (Except Failure task.Result)}
    (started : w.threads[caller]? = some ⟨⟨r, actor, task⟩, rest⟩)
    (started' : w'.threads[caller']? = some ⟨⟨r', actor, task⟩, rest'⟩) :
    (∀ part, task.name.blankPart? task.parts = some part →
      rest = .done (.error (.blankPart part task.name.fullName)) ∧ rest' = rest ∧
        w.transcript caller = [] ∧ w'.transcript caller' = []) ∧
    (task.name.blankPart? task.parts = none →
      (w.transcript caller = [] ∧
        ∃ next, rest = .ask (.permit actor task.scope task.operation) next) ∨
      ∃ verdict later, w.transcript caller =
        ⟨.permit actor task.scope task.operation, verdict⟩ :: later) ∧
    (∀ d, (w.transcript caller).head? =
        some ⟨.permit actor task.scope task.operation, Except.error d⟩ →
      rest = .done (.error (.denied d)) ∧
        w.transcript caller = [⟨.permit actor task.scope task.operation, Except.error d⟩] ∧
        ((w'.transcript caller').head? = (w.transcript caller).head? →
          rest' = rest ∧ w'.transcript caller' = w.transcript caller)) ∧
    ((∃ part, task.name.blankPart? task.parts = some part) ∨
        (∃ d, (w.transcript caller).head? =
          some ⟨.permit actor task.scope task.operation, Except.error d⟩) →
      ∀ w₁ w₂ e, StepOf (opened store) w caller w₁ w₂ e → w₂.store = w₁.store) := by
  refine ⟨fun part blank => ?_, fun valid => ?_, fun d denied => ?_, fun refused w₁ w₂ e step => ?_⟩
  · obtain ⟨ended, silent⟩ := run.of_blank started blank
    obtain ⟨ended', silent'⟩ := run'.of_blank started' blank
    exact ⟨ended, ended'.trans ended.symm, silent, silent'⟩
  · rcases run.of_valid started valid with waiting | ⟨d, once, -⟩ | ⟨later, admitted⟩
    · exact .inl waiting
    · exact .inr ⟨_, _, once⟩
    · exact .inr ⟨_, later, admitted.symm⟩
  · obtain ⟨ended, once⟩ := run.of_denied started denied
    refine ⟨ended, once, fun alike => ?_⟩
    obtain ⟨ended', once'⟩ := run'.of_denied started' (alike.trans denied)
    exact ⟨ended'.trans ended.symm, once'.trans once.symm⟩
  · refine step.store_eq fun c asked => ?_
    have member := step.mem_transcript
    rcases refused with ⟨part, blank⟩ | ⟨d, denied⟩
    · rw [(run.of_blank started blank).2] at member
      cases member
    · rw [(run.of_denied started denied).2] at member
      rw [List.mem_singleton.1 member] at asked
      cases asked

end World

namespace Rehearsal

/-- Collaborators that permit nothing. -/
def refuse : (q : Request) → q.Answer
  | .permit actor scope operation => Except.error ⟨actor, scope, operation⟩
  | q => say q

end Rehearsal

namespace World

open Rehearsal in
/-- Whether the schema is there or not, and whatever the registry is set to, a caller that is denied
is told the same. -/
theorem refusal_of_stranger :
    ∃ rest rest' : Program Collaborators (Except Failure Receipt),
      (start.after (registering ++ [.start (job (.update orders change)),
        .answer 1 refuse])).threads[1]? = some ⟨job (.update orders change), rest⟩ ∧
      (start.after [.start ⟨{}, "ann", .update orders change⟩, .answer 0 refuse]).threads[0]? =
        some ⟨⟨{}, "ann", .update orders change⟩, rest'⟩ ∧
      rest = .done (.error (.denied ⟨"ann", "shop", .update⟩)) ∧ rest' = rest := by
  have here : (start.after (registering ++ [.start (job (.update orders change)),
      .answer 1 refuse])).threads[1]? = some ⟨job (.update orders change), _⟩ := rfl
  have there : (start.after [.start ⟨{}, "ann", .update orders change⟩,
      .answer 0 refuse]).threads[0]? = some ⟨⟨{}, "ann", .update orders change⟩, _⟩ := rfl
  have refused := refusal_reveals_nothing (reaches_after start _) (reaches_after start _) here there
  obtain ⟨ended, -, alike⟩ := refused.2.2.1 ⟨"ann", "shop", .update⟩ rfl
  exact ⟨_, _, here, there, ended, (alike rfl).1⟩

end World

end SchemaLedger
