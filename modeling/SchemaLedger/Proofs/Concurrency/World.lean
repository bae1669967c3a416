import SchemaLedger.Proofs.Dialogue.Jobs
import SchemaLedger.Store.Memory

/-!
Jobs that run side by side on one store.

* `World`: the store, the jobs that were started, and everything that was asked and answered
  so far.  A `Move` starts a job, answers the one question that a job waits for, or troubles
  the store; `World.after` is the world after any moves in any order.  The store answers for
  itself, each collaborator besides it says what it likes at every question, and an id is
  never drawn twice.
* `World.step_perform`: a move is one of four `Step`s, so that what holds at the start and is
  kept by each step holds after any moves (`World.after_induction`).
* `World.LooseStep`: a step where nothing is known of the ids, which may be drawn again.  Jobs keep
  to their part all the same (`World.Kept.step`).
* `World.exists_moment`: each exchange took place at a moment of its own, in the world that the
  moves before it had made.
* `World.kept_after`: after any moves every job has kept to its part, given its own exchanges
  (`World.Kept`): what it had exchanged before its write, and by the time it ended.
* `World.obey_after`: so does any other rule that each program obeys by itself.
* `World.nodup_drawn_after`: no id is drawn twice.
* `World.Attends`: the job that was started last is at a program. It goes on from there with one
  rule for each kind of question (`Attends.call`, `Attends.draw`, `Attends.ask`).
-/

namespace SchemaLedger

/-- A store behind the calls: its states, its answers, and what may happen to it besides. -/
structure Backend where
  State : Type
  answer : State → (c : StoreCall) → c.Answer × State
  Trouble : Type
  trouble : State → Trouble → State

/-- The store in memory.  Its writes can be made to fail, and to work again. -/
def MemoryStore.backend : Backend where
  State := MemoryStore
  answer := MemoryStore.answer
  Trouble := Option String
  trouble := fun s failing => { s with failing := failing }

/-- A job under way, and what is left of its program. -/
structure Thread where
  job : Job
  rest : Program Collaborators (Except Failure job.task.Result)

/-- An exchange of one of the jobs, which are numbered in the order in which they start. -/
structure Event where
  caller : Nat
  job : Job
  talk : Talk

/-- The id that an exchange has drawn. -/
def Exchange.drawn? : Talk → Option UInt64
  | ⟨.drawId, id⟩ => some id
  | _ => none

/-- The exchanges of one job, out of a history. -/
def talksOf (history : List Event) (caller : Nat) : List Talk :=
  (history.filter fun e => e.caller == caller).map (·.talk)

/-- A store and the jobs that use it. -/
structure World (B : Backend) where
  store : B.State
  threads : List Thread := []
  /-- All exchanges so far, oldest first. -/
  history : List Event := []

/-- What may happen next. -/
inductive Move (B : Backend) where
  | start (job : Job)
  /-- A job's question is answered; `say` speaks for all collaborators but the store. -/
  | answer (caller : Nat) (say : (q : Request) → q.Answer)
  | trouble (t : B.Trouble)

namespace World

variable {B : Backend}

/-- The exchanges of one job. -/
def transcript (w : World B) (caller : Nat) : List Talk :=
  talksOf w.history caller

/-- The ids drawn so far. -/
def drawn (w : World B) : List UInt64 :=
  w.history.filterMap fun e => e.talk.drawn?

/-- The exchange draws no id that was drawn before. -/
def Fresh (w : World B) (x : Talk) : Prop :=
  ∀ id, x.drawn? = some id → id ∉ w.drawn

instance (w : World B) (x : Talk) : Decidable (w.Fresh x) :=
  decidable_of_iff (x.drawn?.all fun id => id ∉ w.drawn) (by
    unfold Fresh
    cases x.drawn? <;> simp)

/-- The answer to a question, and the store after it. -/
def reply (w : World B) (say : (q : Request) → q.Answer) : (q : Request) → q.Answer × B.State
  | .store call => B.answer w.store call
  | q => (say q, w.store)

/-- The world after a move.  A move that is not possible changes nothing. -/
def perform (w : World B) : Move B → World B
  | .start job => { w with threads := w.threads ++ [⟨job, job.program.run⟩] }
  | .trouble t => { w with store := B.trouble w.store t }
  | .answer caller say =>
    match w.threads[caller]? with
    | some ⟨job, .ask q next⟩ =>
      if w.Fresh ⟨q, (w.reply say q).1⟩ then
        { store := (w.reply say q).2
          threads := w.threads.set caller ⟨job, next (w.reply say q).1⟩
          history := w.history ++ [⟨caller, job, ⟨q, (w.reply say q).1⟩⟩] }
      else w
    | _ => w

/-- The world after some moves. -/
def after (w : World B) (moves : List (Move B)) : World B :=
  moves.foldl perform w

/-- A store that no job has used yet. -/
def opened (store : B.State) : World B where
  store := store

/-! ### One move -/

/-- What one move can do. -/
inductive Step (w : World B) : World B → Prop
  | idle : Step w w
  | started (job : Job) : Step w { w with threads := w.threads ++ [⟨job, job.program.run⟩] }
  | troubled (t : B.Trouble) : Step w { w with store := B.trouble w.store t }
  | answered {caller : Nat} {job : Job} {q : Request}
    {next : q.Answer → Program Collaborators (Except Failure job.task.Result)}
    (say : (q : Request) → q.Answer) (waiting : w.threads[caller]? = some ⟨job, .ask q next⟩)
    (fresh : w.Fresh ⟨q, (w.reply say q).1⟩) :
    Step w
      { store := (w.reply say q).2
        threads := w.threads.set caller ⟨job, next (w.reply say q).1⟩
        history := w.history ++ [⟨caller, job, ⟨q, (w.reply say q).1⟩⟩] }

/-- Every move is a step. -/
lemma step_perform (w : World B) (m : Move B) : w.Step (w.perform m) := by
  cases m with
  | start job => exact .started job
  | trouble t => exact .troubled t
  | answer caller say =>
    simp only [perform]
    split
    · rename_i job q next waiting
      split
      · rename_i fresh
        exact .answered say waiting fresh
      · exact .idle
    · exact .idle

/-- What one move can do where nothing is known of the ids, so that one may be drawn again. -/
inductive LooseStep (w : World B) : World B → Prop
  | idle : LooseStep w w
  | started (job : Job) : LooseStep w { w with threads := w.threads ++ [⟨job, job.program.run⟩] }
  | troubled (t : B.Trouble) : LooseStep w { w with store := B.trouble w.store t }
  | answered {caller : Nat} {job : Job} {q : Request}
    {next : q.Answer → Program Collaborators (Except Failure job.task.Result)}
    (say : (q : Request) → q.Answer) (waiting : w.threads[caller]? = some ⟨job, .ask q next⟩) :
    LooseStep w
      { store := (w.reply say q).2
        threads := w.threads.set caller ⟨job, next (w.reply say q).1⟩
        history := w.history ++ [⟨caller, job, ⟨q, (w.reply say q).1⟩⟩] }

lemma Step.loose {w w' : World B} (step : w.Step w') : w.LooseStep w' := by
  cases step with
  | idle => exact .idle
  | started job => exact .started job
  | troubled t => exact .troubled t
  | answered say waiting fresh => exact .answered say waiting

lemma after_cons (w : World B) (m : Move B) (moves : List (Move B)) :
    w.after (m :: moves) = (w.perform m).after moves :=
  rfl

lemma after_append (w : World B) (moves more : List (Move B)) :
    w.after (moves ++ more) = (w.after moves).after more :=
  List.foldl_append

/-- One more move is one more step. -/
lemma step_concat (w : World B) (moves : List (Move B)) (m : Move B) :
    (w.after moves).Step (w.after (moves ++ [m])) := by
  rw [after_append]
  exact step_perform _ m

/-- What holds at the start and is kept by every step holds after any moves. -/
lemma after_induction {P : World B → Prop} {w : World B} (start : P w)
    (step : ∀ moves w', P (w.after moves) → (w.after moves).Step w' → P w')
    (moves : List (Move B)) : P (w.after moves) := by
  induction moves using List.reverseRecOn with
  | nil => exact start
  | append_singleton moves m ih =>
    exact step moves _ ih (step_concat w moves m)

/-- A place in a longer history is the new end or a place in the history before. -/
lemma eq_concat_cases {history before later : List Event} {x e : Event}
    (h : history ++ [x] = before ++ e :: later) :
    (before = history ∧ e = x ∧ later = []) ∨
      ∃ later', later = later' ++ [x] ∧ history = before ++ e :: later' := by
  rcases List.eq_nil_or_concat later with rfl | ⟨later', y, rfl⟩
  · obtain ⟨h₁, h₂⟩ := List.append_inj' h rfl
    cases h₂
    exact .inl ⟨h₁.symm, rfl, rfl⟩
  · rw [List.concat_eq_append, ← List.cons_append, ← List.append_assoc] at h
    obtain ⟨h₁, h₂⟩ := List.append_inj' h rfl
    cases h₂
    exact .inr ⟨later', List.concat_eq_append, h₁⟩

/-- A step adds one exchange at most. -/
lemma LooseStep.history {w w' : World B} (step : w.LooseStep w') :
    w'.history = w.history ∨ ∃ e, w'.history = w.history ++ [e] := by
  cases step with
  | idle | started | troubled => exact .inl rfl
  | answered => exact .inr ⟨_, rfl⟩

/-- What was exchanged stays exchanged. -/
lemma history_prefix_after (w : World B) (moves : List (Move B)) :
    w.history <+: (w.after moves).history := by
  refine after_induction (P := fun w' => w.history <+: w'.history) (List.prefix_refl _)
    (fun moves w' earlier step => ?_) moves
  rcases step.loose.history with same | ⟨e, more⟩
  · rwa [same]
  · rw [more]
    exact earlier.trans (List.prefix_append _ _)

/-- Only an answer to a job adds an exchange, and it is one of this job. -/
lemma exists_say {w : World B} {m : Move B} {e : Event}
    (more : (w.perform m).history = w.history ++ [e]) : ∃ say, m = .answer e.caller say := by
  cases m with
  | start job => simp [perform] at more
  | trouble t => simp [perform] at more
  | answer caller say =>
    simp only [perform] at more
    split at more
    · split at more
      · cases List.append_cancel_left more
        exact ⟨say, rfl⟩
      · simp at more
    · simp at more

/-- The moment at which an exchange took place. -/
lemma exists_moment {w : World B} (blank : w.history = []) {moves : List (Move B)}
    {before later : List Event} {e : Event} (split : (w.after moves).history = before ++ e :: later) :
    ∃ earlier m rest, moves = earlier ++ m :: rest ∧ (w.after earlier).history = before ∧
      (w.after (earlier ++ [m])).history = before ++ [e] := by
  induction moves using List.reverseRecOn generalizing later with
  | nil => simp [after, blank] at split
  | append_singleton moves m ih =>
    rcases (step_concat w moves m).loose.history with same | ⟨x, more⟩
    · obtain ⟨earlier, m', rest, rfl, h⟩ := ih (same ▸ split)
      exact ⟨earlier, m', rest ++ [m], by simp, h⟩
    · rcases eq_concat_cases (more ▸ split) with ⟨rfl, rfl, rfl⟩ | ⟨later', -, split'⟩
      · exact ⟨moves, m, [], rfl, rfl, more⟩
      · obtain ⟨earlier, m', rest, rfl, h⟩ := ih split'
        exact ⟨earlier, m', rest ++ [m], by simp, h⟩

/-- The moment at which the store was called: the answer is the one that it had then. -/
lemma exists_moment_of_call {w : World B} (blank : w.history = []) {moves : List (Move B)}
    {before later : List Event} {caller : Nat} {job : Job} {call : StoreCall} {answer : call.Answer}
    (split : (w.after moves).history = before ++ ⟨caller, job, ⟨.store call, answer⟩⟩ :: later) :
    ∃ earlier m rest, moves = earlier ++ m :: rest ∧ (w.after earlier).history = before ∧
      (B.answer (w.after earlier).store call).1 = answer := by
  obtain ⟨earlier, m, rest, all, here, next⟩ := exists_moment blank split
  refine ⟨earlier, m, rest, all, here, ?_⟩
  have step := step_concat w earlier m
  rw [← here] at next
  generalize w.after (earlier ++ [m]) = w' at step next
  cases step with
  | idle | started | troubled => simp at next
  | answered say waiting fresh =>
    obtain ⟨-, same⟩ := List.append_inj' next rfl
    cases same
    rfl

/-! ### Jobs keep to their part -/

lemma talksOf_append (history later : List Event) (caller : Nat) :
    talksOf (history ++ later) caller = talksOf history caller ++ talksOf later caller := by
  simp [talksOf]

lemma mem_talksOf {history : List Event} {caller : Nat} {x : Talk} :
    x ∈ talksOf history caller ↔ ∃ e ∈ history, e.caller = caller ∧ e.talk = x := by
  simp [talksOf, and_assoc]

/-- A completed write is a question for that write. -/
lemma question_of_effect? {x : Talk} {call : StoreCall} (h : x.effect? = some call) :
    x.question = .store call ∧ call.isWrite = true := by
  obtain ⟨q, answer⟩ := x
  cases q with
  | store c =>
    simp only [Exchange.effect?] at h
    split at h
    · cases h
      exact ⟨rfl, by simp_all⟩
    · cases h
  | _ => cases h

/-- What is left of each job's program obeys a rule, given the job's own exchanges. -/
def Obey (mayAsk : Job → List Talk → Request → Prop)
    (mayEnd : (j : Job) → List Talk → Except Failure j.task.Result → Prop) (w : World B) : Prop :=
  ∀ caller (t : Thread), w.threads[caller]? = some t →
    t.rest.Obeys (mayAsk t.job) (mayEnd t.job) (w.transcript caller)

/-- Every exchange is that of a job. -/
def Owned (w : World B) : Prop :=
  ∀ e ∈ w.history, ∃ t, w.threads[e.caller]? = some t ∧ t.job = e.job

/-- Nobody has asked anything under the number of a job that has not started. -/
lemma Owned.transcript_eq_nil {w : World B} (h : w.Owned) {caller : Nat}
    (late : w.threads.length ≤ caller) : w.transcript caller = [] := by
  refine List.eq_nil_iff_forall_not_mem.2 fun x hx => ?_
  obtain ⟨e, he, rfl, -⟩ := mem_talksOf.1 hx
  obtain ⟨t, ht, -⟩ := h e he
  have := (List.getElem?_eq_some_iff.1 ht).1
  omega

/-- One step keeps to a rule that every program obeys. -/
lemma Obey.step {mayAsk : Job → List Talk → Request → Prop}
    {mayEnd : (j : Job) → List Talk → Except Failure j.task.Result → Prop}
    (each : ∀ j : Job, Operating.Obeys (mayAsk j) (mayEnd j) j.program []) {w w' : World B}
    (h : w.Obey mayAsk mayEnd) (owned : w.Owned) (step : w.LooseStep w') :
    w'.Obey mayAsk mayEnd := by
  cases step with
  | idle | troubled t => exact h
  | started job =>
    intro caller t ht
    rcases Nat.lt_or_ge caller w.threads.length with early | late
    · rw [List.getElem?_append_left early] at ht
      exact h caller t ht
    · rw [List.getElem?_append_right late] at ht
      obtain rfl := List.mem_singleton.1 (List.mem_of_getElem? ht)
      exact owned.transcript_eq_nil late ▸ each job
  | @answered caller job q next say waiting =>
    intro i t ht
    simp only [transcript, talksOf_append]
    by_cases hi : i = caller
    · subst hi
      rw [List.getElem?_set_self (List.getElem?_eq_some_iff.1 waiting).1] at ht
      cases ht
      simpa [talksOf, transcript] using (h i _ waiting).2 (w.reply say q).1
    · rw [List.getElem?_set_ne (Ne.symm hi)] at ht
      simpa [talksOf, transcript, Ne.symm hi] using h i t ht

/-- Every job keeps to its part, given its own exchanges; every exchange is that of a job; and
every job that wrote had had the exchanges that come before such a write. -/
structure Kept (w : World B) : Prop where
  obeys : ∀ caller (t : Thread), w.threads[caller]? = some t →
    t.rest.Obeys t.job.MayAsk t.job.MayEnd (w.transcript caller)
  owned : ∀ e ∈ w.history, ∃ t, w.threads[e.caller]? = some t ∧ t.job = e.job
  mayWrite : ∀ before e later call, w.history = before ++ e :: later →
    e.talk.effect? = some call → e.job.MayWrite (talksOf before e.caller) call

/-- One step keeps the jobs to their part. -/
lemma Kept.step {w w' : World B} (h : w.Kept) (step : w.LooseStep w') : w'.Kept := by
  have obey : w'.Obey Job.MayAsk Job.MayEnd := Obey.step Job.obeys h.obeys h.owned step
  cases step with
  | idle => exact h
  | troubled t => exact ⟨obey, h.owned, h.mayWrite⟩
  | started job =>
    refine ⟨obey, fun e he => ?_, h.mayWrite⟩
    obtain ⟨t, ht, same⟩ := h.owned e he
    have early := (List.getElem?_eq_some_iff.1 ht).1
    exact ⟨t, by rwa [List.getElem?_append_left early], same⟩
  | @answered caller job q next say waiting =>
    have bound := (List.getElem?_eq_some_iff.1 waiting).1
    refine ⟨obey, fun e he => ?_, fun before e later call split wrote => ?_⟩
    · have owned : ∃ t, w.threads[e.caller]? = some t ∧ t.job = e.job := by
        rcases List.mem_append.1 he with he | he
        · exact h.owned e he
        · obtain rfl := List.mem_singleton.1 he
          exact ⟨_, waiting, rfl⟩
      obtain ⟨t, ht, same⟩ := owned
      by_cases hi : e.caller = caller
      · rw [hi] at ht ⊢
        cases ht.symm.trans waiting
        exact ⟨_, List.getElem?_set_self bound, same⟩
      · exact ⟨t, by rwa [List.getElem?_set_ne (Ne.symm hi)], same⟩
    · rcases eq_concat_cases split with ⟨rfl, rfl, rfl⟩ | ⟨later', -, split⟩
      · obtain ⟨asked, writes⟩ := question_of_effect? wrote
        exact (h.obeys caller _ waiting).1 call asked writes
      · exact h.mayWrite before e later' call split wrote

/-- **Jobs keep to their part** in every order of their questions, whatever their store and
their other collaborators answer. -/
theorem kept_after (store : B.State) (moves : List (Move B)) :
    ((opened store).after moves).Kept := by
  refine after_induction ⟨?_, ?_, ?_⟩ (fun _ _ kept step => kept.step step.loose) moves <;>
    simp [opened]

/-- A rule that every program obeys by itself holds of all jobs in every order of their
questions. -/
lemma obey_after {mayAsk : Job → List Talk → Request → Prop}
    {mayEnd : (j : Job) → List Talk → Except Failure j.task.Result → Prop}
    (each : ∀ j : Job, Operating.Obeys (mayAsk j) (mayEnd j) j.program []) (store : B.State)
    (moves : List (Move B)) : ((opened store).after moves).Obey mayAsk mayEnd := by
  refine after_induction ?_ (fun earlier _ h step =>
    h.step each (kept_after store earlier).owned step.loose) moves
  simp [Obey, opened]

/-- What a job had exchanged by the time it ended. -/
lemma Kept.mayEnd {w : World B} (h : w.Kept) {caller : Nat} {job : Job}
    {r : Except Failure job.task.Result} (ended : w.threads[caller]? = some ⟨job, .done r⟩) :
    job.MayEnd (w.transcript caller) r :=
  h.obeys caller _ ended

/-- A job that writes has not written before. -/
lemma Kept.pairwise_caller_ne {w : World B} (h : w.Kept) :
    w.history.Pairwise fun e e' =>
      e.talk.effect? ≠ none → e'.talk.effect? ≠ none → e.caller ≠ e'.caller := by
  refine List.pairwise_iff_getElem.2 fun i j hi hj hij first second same => ?_
  have split : w.history = w.history.take j ++ w.history[j] :: w.history.drop (j + 1) := by simp
  obtain ⟨call, wrote⟩ := Option.ne_none_iff_exists'.1 second
  refine first ((h.mayWrite _ _ _ call split wrote).effect?_eq_none _ ?_)
  refine mem_talksOf.2 ⟨w.history[i], ?_, same, rfl⟩
  exact List.mem_take_iff_getElem.2 ⟨i, by omega, rfl⟩

/-- The writes of a job are one. -/
lemma Kept.eq_of_effects {w : World B} (h : w.Kept) {e e' : Event} (he : e ∈ w.history)
    (he' : e' ∈ w.history) (first : e.talk.effect? ≠ none) (second : e'.talk.effect? ≠ none)
    (same : e.caller = e'.caller) : e = e' := by
  have : Std.Symm fun e e' : Event =>
      e.talk.effect? ≠ none → e'.talk.effect? ≠ none → e.caller ≠ e'.caller :=
    ⟨fun _ _ apart second first => (apart first second).symm⟩
  by_contra ne
  exact h.pairwise_caller_ne.forall he he' ne first second same

/-! ### No id twice -/

/-- One step draws no id that was drawn before. -/
lemma nodup_drawn_step {w w' : World B} (h : w.drawn.Nodup) (step : w.Step w') :
    w'.drawn.Nodup := by
  cases step with
  | idle | started | troubled => exact h
  | answered say waiting fresh =>
    simp only [drawn, List.filterMap_append]
    refine List.nodup_append.2 ⟨h, ?_, fun a ha b hb => ?_⟩
    · simp only [List.filterMap_cons, List.filterMap_nil]
      split <;> simp
    · rintro rfl
      simp only [List.filterMap_cons, List.filterMap_nil] at hb
      split at hb
      · cases hb
      · rename_i drawn
        obtain rfl := List.mem_singleton.1 hb
        exact fresh _ drawn ha

/-- No id is drawn twice. -/
lemma nodup_drawn_after (store : B.State) (moves : List (Move B)) :
    ((opened store).after moves).drawn.Nodup :=
  after_induction (P := fun w => w.drawn.Nodup) (by simp [opened, drawn])
    (fun _ _ h step => nodup_drawn_step h step) moves

/-! ### Jobs that are served one after the other -/

/-- The job that was started last is at a program, when some ids have been drawn. -/
structure Attends (w : World B) (store : B.State) (others : List Thread) (ids : List UInt64)
    (job : Job) (rest : Program Collaborators (Except Failure job.task.Result)) : Prop where
  store : w.store = store
  threads : w.threads = others ++ [⟨job, rest⟩]
  drawn : w.drawn = ids

namespace Attends

variable {w : World B} {store store' : B.State} {others : List Thread} {ids : List UInt64}
  {job : Job} {rest : Program Collaborators (Except Failure job.task.Result)} {q : Request}
  {c : StoreCall}

/-- The first job of all. -/
lemma first (idle : w.threads = []) (unused : w.drawn = []) (job : Job) :
    (w.perform (.start job)).Attends w.store [] [] job job.program.run :=
  ⟨rfl, by rw [perform, idle], unused⟩

lemma start (h : w.Attends store others ids job rest) (job' : Job) :
    (w.perform (.start job')).Attends store (others ++ [⟨job, rest⟩]) ids job' job'.program.run :=
  ⟨h.store, by rw [perform, h.threads], h.drawn⟩

lemma trouble (h : w.Attends store others ids job rest) (t : B.Trouble) :
    (w.perform (.trouble t)).Attends (B.trouble store t) others ids job rest :=
  ⟨by rw [perform, h.store], h.threads, h.drawn⟩

/-- Its question is answered. -/
lemma answer {say : (q : Request) → q.Answer} {x : q.Answer}
    {next : q.Answer → Program Collaborators (Except Failure job.task.Result)}
    (h : w.Attends store others ids job (.ask q next)) (replied : w.reply say q = (x, store'))
    (fresh : ∀ id, Exchange.drawn? ⟨q, x⟩ = some id → id ∉ ids) :
    (w.perform (.answer others.length say)).Attends store' others
      (ids ++ (Exchange.drawn? ⟨q, x⟩).toList) job (next x) := by
  have waiting : w.threads[others.length]? = some ⟨job, .ask q next⟩ := by
    rw [h.threads, List.getElem?_concat_length]
  have unused : w.Fresh ⟨q, x⟩ := by
    rw [Fresh, h.drawn]
    exact fresh
  have answered : w.perform (.answer others.length say) =
      ⟨store', w.threads.set others.length ⟨job, next x⟩,
        w.history ++ [⟨others.length, job, ⟨q, x⟩⟩]⟩ := by
    rw [perform, waiting]
    dsimp only
    rw [replied, if_pos unused]
  rw [answered]
  refine ⟨rfl, ?_, ?_⟩
  · rw [h.threads, List.set_append_right _ _ (Nat.le_refl _), Nat.sub_self, List.set_cons_zero]
  · rw [← h.drawn, World.drawn, World.drawn, List.filterMap_append]
    cases drawn : Exchange.drawn? ⟨q, x⟩ <;> simp [drawn]

/-- The store answers its call. -/
lemma call (say : (q : Request) → q.Answer) {x : c.Answer}
    {next : c.Answer → Program Collaborators (Except Failure job.task.Result)}
    (h : w.Attends store others ids job (.ask (.store c) next))
    (answered : B.answer store c = (x, store')) :
    (w.perform (.answer others.length say)).Attends store' others ids job (next x) := by
  have replied : w.reply say (.store c) = (x, store') := by
    rw [← answered, ← h.store]
    rfl
  have after := h.answer replied fun _ drawn => nomatch drawn
  rwa [show Exchange.drawn? ⟨.store c, x⟩ = none from rfl, Option.toList_none, List.append_nil]
    at after

/-- It draws an id. -/
lemma draw (say : (q : Request) → q.Answer) {id : UInt64}
    {next : UInt64 → Program Collaborators (Except Failure job.task.Result)}
    (h : w.Attends store others ids job (.ask .drawId next)) (drawn : say .drawId = id)
    (fresh : id ∉ ids) :
    (w.perform (.answer others.length say)).Attends store others (ids ++ [id]) job (next id) := by
  have replied : w.reply say .drawId = (id, store) := by
    rw [← drawn, ← h.store]
    rfl
  refine h.answer replied fun id' same => ?_
  cases same
  exact fresh

/-- It asks something else. -/
lemma ask (say : (q : Request) → q.Answer)
    {next : q.Answer → Program Collaborators (Except Failure job.task.Result)}
    (h : w.Attends store others ids job (.ask q next)) (other : ∀ c, q ≠ .store c)
    (undrawn : Exchange.drawn? ⟨q, say q⟩ = none) :
    (w.perform (.answer others.length say)).Attends store others ids job (next (say q)) := by
  have replied : w.reply say q = (say q, store) := by
    rw [← h.store]
    cases q with
    | store c => exact absurd rfl (other c)
    | _ => rfl
  have after := h.answer replied fun id drawn => by
    rw [undrawn] at drawn
    cases drawn
  rwa [undrawn, Option.toList_none, List.append_nil] at after

end Attends

end World

end SchemaLedger
