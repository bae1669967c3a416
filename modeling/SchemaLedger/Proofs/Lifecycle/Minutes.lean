import SchemaLedger.Proofs.Lifecycle.Serving
import SchemaLedger.Proofs.Store.Memory

/-!
Jobs served by a store in memory, one at a time.

* `MemoryStore.Works`: a store whose writes are not made to fail, with its tables.
* `Staff.converse`: a program is answered to its end, by the store and by the staff, and the
  exchanges are written down; `Staff.minutes` does so for some jobs, one after the other.
* `Staff.Ensures`: what a program comes to, with one rule for each step that the operations share,
  in front of what follows the step.
-/

namespace SchemaLedger

/-- The store holds the tables, and its writes are not made to fail. -/
structure MemoryStore.Works (s : MemoryStore) (tables : Tables) : Prop where
  tables : s.tables = tables
  failing : s.failing = none

/-- A store that works answers from its tables. -/
lemma MemoryStore.Works.answer {s : MemoryStore} {tables : Tables} (h : s.Works tables)
    (c : StoreCall) :
    (s.answer c).1 = (tables.answer c).1 ∧ (s.answer c).2.Works (tables.answer c).2 := by
  obtain ⟨rfl, failing⟩ := h
  simp only [MemoryStore.answer, failing]
  exact ⟨trivial, rfl, rfl⟩

/-- What is written down of a job: its result, and what was asked and answered. -/
structure Minutes where
  job : Job
  result : Except Failure job.task.Result
  talks : List Talk

namespace Staff

variable {staff : Staff} {α β : Type}

/-- The staff permits whatever it is asked to permit. -/
def IsPermissive (staff : Staff) : Prop :=
  ∀ t actor scope operation, (staff.answer t (.permit actor scope operation)).1 = Except.ok ()

/-- A question is answered by a store in memory or by the staff. -/
def onMemory (staff : Staff) : (q : Request) → MemoryStore × staff.State →
    q.Answer × (MemoryStore × staff.State) :=
  staff.beside MemoryStore.answer

/-- What a program comes to, and what was asked and answered by then. -/
def converse (staff : Staff) : Program Collaborators α → List Talk → MemoryStore × staff.State →
    α × List Talk × (MemoryStore × staff.State)
  | .done a, past, y => (a, past, y)
  | .ask q next, past, y =>
    staff.converse (next (staff.onMemory q y).1) (past ++ [⟨q, (staff.onMemory q y).1⟩])
      (staff.onMemory q y).2

/-- The minutes of some jobs, each of which is served when the one before has ended. -/
def minutes (staff : Staff) : List Job → MemoryStore × staff.State → List Minutes
  | [], _ => []
  | j :: jobs, y =>
    ⟨j, (staff.converse j.program.run [] y).1, (staff.converse j.program.run [] y).2.1⟩ ::
      staff.minutes jobs (staff.converse j.program.run [] y).2.2

/-- An operation comes to this, after what was said before. -/
def Ensures (staff : Staff)
    (post : Except Failure α → List Talk → MemoryStore × staff.State → Prop) (x : Operating α)
    (past : List Talk) (y : MemoryStore × staff.State) : Prop :=
  post (staff.converse x.run past y).1 (staff.converse x.run past y).2.1
    (staff.converse x.run past y).2.2

/-! ### One rule for each step -/

variable {post : Except Failure β → List Talk → MemoryStore × staff.State → Prop}
  {past : List Talk} {s : MemoryStore} {t : staff.State} {tables : Tables}

lemma ensures_pure {b : β} {y : MemoryStore × staff.State} (h : post (.ok b) past y) :
    staff.Ensures post (pure b) past y :=
  h

lemma ensures_throw {e : Failure} {y : MemoryStore × staff.State} (h : post (.error e) past y) :
    staff.Ensures post (throw e) past y :=
  h

/-- A result that is known already. -/
lemma ensures_lift_bind {ε : Type} {told : ε → Failure} {r : Except ε α} {f : α → Operating β}
    {y : MemoryStore × staff.State} (ok : ∀ a, r = .ok a → staff.Ensures post (f a) past y)
    (error : ∀ e, r = .error e → post (.error (told e)) past y) :
    staff.Ensures post (Operating.lift told r >>= f) past y := by
  cases r with
  | ok a => exact ok a rfl
  | error e => exact error e rfl

/-- A question that the store or the staff answers. -/
lemma ensures_ask_bind {q : Request} {f : q.Answer → Operating β} {x : q.Answer}
    {y y' : MemoryStore × staff.State} (said : staff.onMemory q y = (x, y'))
    (h : staff.Ensures post (f x) (past ++ [⟨q, x⟩]) y') :
    staff.Ensures post (Operating.ask q >>= f) past y := by
  obtain rfl : (staff.onMemory q y).1 = x := by rw [said]
  obtain rfl : (staff.onMemory q y).2 = y' := by rw [said]
  exact h

/-- A question to the staff, which may say anything. -/
lemma ensures_ask_staff_bind {q : Request} (other : ∀ c, q ≠ .store c) {f : q.Answer → Operating β}
    (h : ∀ x t', staff.Ensures post (f x) (past ++ [⟨q, x⟩]) (s, t')) :
    staff.Ensures post (Operating.ask q >>= f) past (s, t) :=
  ensures_ask_bind (beside_other _ other s t) (h _ _)

/-- Permission is given. -/
lemma ensures_authorize_bind (permissive : staff.IsPermissive) {actor scope : String}
    {operation : Operation} {f : Unit → Operating β}
    (h : ∀ t', staff.Ensures post (f ())
      (past ++ [⟨.permit actor scope operation, Except.ok ()⟩]) (s, t')) :
    staff.Ensures post (Registry.authorize actor scope operation >>= f) past (s, t) := by
  let t' := (staff.answer t (.permit actor scope operation)).2
  have said : staff.onMemory (.permit actor scope operation) (s, t) = (Except.ok (), (s, t')) :=
    Prod.ext (permissive t actor scope operation) rfl
  unfold Registry.authorize
  rw [bind_assoc]
  exact ensures_ask_bind said (h t')

/-- An operation starts: its name has the parts that it needs, and permission is given. -/
lemma ensures_enter_bind (permissive : staff.IsPermissive) {actor scope : String}
    {operation : Operation} {name : SchemaName} {parts : List NamePart} {f : Operating β}
    (valid : name.check parts = .ok ()) (h : ∀ past t', staff.Ensures post f past (s, t')) :
    staff.Ensures post
      (Operating.lift id (name.check parts) >>= fun _ =>
        Registry.authorize actor scope operation >>= fun _ => f) past (s, t) := by
  refine ensures_lift_bind (fun _ _ => ?_) fun e refused => ?_
  · exact ensures_authorize_bind permissive fun t' => h _ t'
  · rw [valid] at refused
    cases refused

/-- The store answers. -/
lemma ensures_consult_bind (works : s.Works tables) {call : StoreCall} {x : call.Answer}
    {after : Tables} {f : call.Result → Operating β} (answered : tables.answer call = (x, after))
    (ok : ∀ s' a, s'.Works after → x = .ok a →
      staff.Ensures post (f a) (past ++ [⟨.store call, x⟩]) (s', t))
    (error : ∀ s' e, s'.Works after → x = .error e →
      post (.error (.ofStore e)) (past ++ [⟨.store call, x⟩]) (s', t)) :
    staff.Ensures post (Registry.consult call >>= f) past (s, t) := by
  obtain ⟨same, works'⟩ := works.answer call
  rw [answered] at same works'
  have said : staff.onMemory (.store call) (s, t) = (x, ((s.answer call).2, t)) :=
    Prod.ext same rfl
  unfold Registry.consult
  rw [bind_assoc]
  refine ensures_ask_bind said ?_
  exact ensures_lift_bind (fun a ha => ok _ a works' ha) fun e he => error _ e works' he

/-- A stored schema is read; without one the operation ends. -/
lemma ensures_load_bind (works : s.Works tables) {r : Registry} {name : SchemaName}
    {f : Aggregate → Operating β}
    (found : ∀ s' a talk, s'.Works tables → tables.schemas.get? name.fullName = some a →
      staff.Ensures post (f a) (past ++ [talk]) (s', t))
    (absent : ∀ s' talk, s'.Works tables → tables.schemas.get? name.fullName = none →
      post (.error (.notFound name.fullName)) (past ++ [talk]) (s', t)) :
    staff.Ensures post (r.load name >>= f) past (s, t) := by
  unfold Registry.load
  rw [bind_assoc]
  refine ensures_consult_bind works rfl (fun s' stored works' same => ?_)
    fun s' e works' failed => nomatch failed
  obtain rfl : tables.schemas.get? name.fullName = stored := Except.ok.inj same
  cases stored : tables.schemas.get? name.fullName with
  | some a => exact found s' a _ works' stored
  | none => exact absent s' _ works' stored

/-- Without uploads a schema is stored as it is. -/
lemma ensures_attach_bind {r : Registry} (off : r.settings.uploadEnabled = false) {a : Aggregate}
    {f : Aggregate → Operating β} {y : MemoryStore × staff.State}
    (h : staff.Ensures post (f a) past y) : staff.Ensures post (r.attach a >>= f) past y := by
  unfold Registry.attach
  rw [if_pos (by simp [off])]
  exact h

end Staff

end SchemaLedger
