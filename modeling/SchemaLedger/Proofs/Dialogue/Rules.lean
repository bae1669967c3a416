import Mathlib.Tactic
import SchemaLedger.Registry

/-!
What a program may ask and how it may end, whatever it is answered.

* `Program.Obeys mayAsk mayEnd p past`: every question that `p` asks is allowed after the
  exchanges before it, and so is the result with which it ends.  The collaborators are left
  open, so this is a statement about all runs at once, and what other programs do between
  two questions plays no part in it.
* `Program.obeys_bind` and `Operating.obeys_bind`: a sequence of programs obeys if its first
  part ends only where the rest obeys.
* One rule for each step that the operations share, in front of what follows the step:
  `obeys_authorize_bind`, `obeys_consult_bind`, `obeys_load_bind` and `obeys_compile_bind`.
-/

namespace SchemaLedger

/-- A question and its answer. -/
structure Exchange (I : Interface) where
  question : I.Ask
  answer : I.Answer question

/-- An exchange of the registry with one of its collaborators. -/
abbrev Talk := Exchange Collaborators

namespace Program

variable {I : Interface} {α β : Type} {mayAsk : List (Exchange I) → I.Ask → Prop}

/-- Whatever is answered, the program asks only what it may ask and ends only as it may end;
both may depend on the exchanges before. -/
def Obeys (mayAsk : List (Exchange I) → I.Ask → Prop) (mayEnd : List (Exchange I) → α → Prop) :
    Program I α → List (Exchange I) → Prop
  | .done a, past => mayEnd past a
  | .ask q next, past =>
    mayAsk past q ∧ ∀ r, (next r).Obeys mayAsk mayEnd (past ++ [⟨q, r⟩])

/-- A sequence obeys if its first part ends only where the second part obeys. -/
lemma obeys_bind {mayEnd : List (Exchange I) → β → Prop} (p : Program I α)
    (f : α → Program I β) (past : List (Exchange I)) :
    (p.bind f).Obeys mayAsk mayEnd past ↔
      p.Obeys mayAsk (fun past a => (f a).Obeys mayAsk mayEnd past) past := by
  induction p generalizing past with
  | done a => rfl
  | ask q next ih => simp only [bind_ask, Obeys, ih]

/-- What a program may end with can be weakened. -/
lemma Obeys.mono {mayEnd mayEnd' : List (Exchange I) → α → Prop}
    (weaker : ∀ past a, mayEnd past a → mayEnd' past a) {p : Program I α}
    {past : List (Exchange I)} (h : p.Obeys mayAsk mayEnd past) : p.Obeys mayAsk mayEnd' past := by
  induction p generalizing past with
  | done a => exact weaker past a h
  | ask q next ih => exact ⟨h.1, fun r => ih r (h.2 r)⟩

/-- Where everything is allowed, every program obeys. -/
lemma obeys_of_forall {mayEnd : List (Exchange I) → α → Prop} (asks : ∀ past q, mayAsk past q)
    (ends : ∀ past a, mayEnd past a) (p : Program I α) (past : List (Exchange I)) :
    p.Obeys mayAsk mayEnd past := by
  induction p generalizing past with
  | done a => exact ends past a
  | ask q next ih => exact ⟨asks past q, fun r => ih r _⟩

end Program

namespace Operating

variable {α β ε : Type} {mayAsk : List Talk → Request → Prop}
  {mayEnd : List Talk → Except Failure β → Prop} {past : List Talk}

/-- Whatever is answered, the operation asks and ends only as it may. -/
def Obeys (mayAsk : List Talk → Request → Prop)
    (mayEnd : List Talk → Except Failure α → Prop) (x : Operating α) (past : List Talk) : Prop :=
  Program.Obeys mayAsk mayEnd x.run past

lemma obeys_pure {b : β} (h : mayEnd past (.ok b)) : Obeys mayAsk mayEnd (pure b) past :=
  h

lemma obeys_throw {e : Failure} (h : mayEnd past (.error e)) :
    Obeys mayAsk mayEnd (throw e) past :=
  h

/-- A failure of the first part ends the whole; otherwise the second part goes on. -/
lemma obeys_bind {x : Operating α} {f : α → Operating β}
    (h : Obeys mayAsk
      (fun past r =>
        (∀ a, r = .ok a → Obeys mayAsk mayEnd (f a) past) ∧
          ∀ e, r = .error e → mayEnd past (.error e)) x past) :
    Obeys mayAsk mayEnd (x >>= f) past := by
  refine (Program.obeys_bind _ _ _).2 (Program.Obeys.mono (fun past r hr => ?_) h)
  cases r with
  | ok a => exact hr.1 a rfl
  | error e => exact hr.2 e rfl

/-- A question that is always answered. -/
lemma obeys_ask_bind {q : Request} {f : q.Answer → Operating β} (allowed : mayAsk past q)
    (h : ∀ r, Obeys mayAsk mayEnd (f r) (past ++ [⟨q, r⟩])) :
    Obeys mayAsk mayEnd (ask q >>= f) past :=
  obeys_bind ⟨allowed, fun r => ⟨fun a ha => by cases ha; exact h r, fun e he => nomatch he⟩⟩

/-- A result that is known already. -/
lemma obeys_lift_bind {told : ε → Failure} {r : Except ε α} {f : α → Operating β}
    (ok : ∀ a, r = .ok a → Obeys mayAsk mayEnd (f a) past)
    (error : ∀ e, r = .error e → mayEnd past (.error (told e))) :
    Obeys mayAsk mayEnd (lift told r >>= f) past := by
  cases r with
  | ok a => exact ok a rfl
  | error e => exact error e rfl

/-- A result that is known already, at the end. -/
lemma obeys_lift {told : ε → Failure} {r : Except ε β} (ok : ∀ b, r = .ok b → mayEnd past (.ok b))
    (error : ∀ e, r = .error e → mayEnd past (.error (told e))) :
    Obeys mayAsk mayEnd (lift told r) past := by
  cases r with
  | ok b => exact ok b rfl
  | error e => exact error e rfl

end Operating

namespace Registry

open Operating

variable {β : Type} {mayAsk : List Talk → Request → Prop}
  {mayEnd : List Talk → Except Failure β → Prop} {past : List Talk}

/-- Permission is asked for once; a denial ends the operation. -/
lemma obeys_authorize_bind {actor scope : String} {operation : Operation}
    {f : Unit → Operating β} (allowed : mayAsk past (.permit actor scope operation))
    (granted : Obeys mayAsk mayEnd (f ())
      (past ++ [⟨.permit actor scope operation, Except.ok ()⟩]))
    (denied : ∀ d, mayEnd (past ++ [⟨.permit actor scope operation, Except.error d⟩])
      (.error (.denied d))) :
    Obeys mayAsk mayEnd (authorize actor scope operation >>= f) past := by
  refine obeys_bind (obeys_ask_bind allowed fun r => obeys_lift (fun u h => ?_) fun d h => ?_)
  · cases h
    exact ⟨fun _ _ => granted, fun e h => nomatch h⟩
  · cases h
    exact ⟨fun _ h => (nomatch h), fun e h => by cases h; exact denied d⟩

/-- The store is asked once; its failure ends the operation. -/
lemma obeys_consult_bind {call : StoreCall} {f : call.Result → Operating β}
    (allowed : mayAsk past (.store call))
    (answered : ∀ x, Obeys mayAsk mayEnd (f x) (past ++ [⟨.store call, Except.ok x⟩]))
    (failed : ∀ e, mayEnd (past ++ [⟨.store call, Except.error e⟩]) (.error (.ofStore e))) :
    Obeys mayAsk mayEnd (consult call >>= f) past := by
  refine obeys_bind (obeys_ask_bind allowed fun r => obeys_lift (fun x h => ?_) fun e h => ?_)
  · cases h
    exact ⟨fun y h => by cases h; exact answered x, fun e h => nomatch h⟩
  · cases h
    exact ⟨fun _ h => (nomatch h), fun e h => by cases h; exact failed _⟩

/-- A stored schema is read once; without one the operation ends. -/
lemma obeys_load_bind {r : Registry} {name : SchemaName} {f : Aggregate → Operating β}
    (allowed : mayAsk past (.store (.fetch name r.settings.cacheEnabled)))
    (found : ∀ a, Obeys mayAsk mayEnd (f a)
      (past ++ [⟨.store (.fetch name r.settings.cacheEnabled), Except.ok (some a)⟩]))
    (absent : mayEnd
      (past ++ [⟨.store (.fetch name r.settings.cacheEnabled), Except.ok none⟩])
      (.error (.notFound name.fullName)))
    (failed : ∀ e, mayEnd
      (past ++ [⟨.store (.fetch name r.settings.cacheEnabled), Except.error e⟩])
      (.error (.ofStore e))) :
    Obeys mayAsk mayEnd (r.load name >>= f) past := by
  refine obeys_bind (obeys_consult_bind allowed (fun x => ?_)
    fun e => ⟨fun _ h => (nomatch h), fun e' h => by cases h; exact failed e⟩)
  cases x with
  | some a => exact ⟨fun _ h => by cases h; exact found a, fun e h => nomatch h⟩
  | none => exact ⟨fun _ h => (nomatch h), fun e h => by cases h; exact absent⟩

/-- The compiler is asked once, if there is one, and only an artifact of the latest version is
accepted. -/
lemma obeys_compile_bind {r : Registry} {a : Aggregate} {f : Artifact → Operating β}
    (allowed : mayAsk past (.compile a))
    (compiled : ∀ d, d.recordVersion = a.lastVersion →
      Obeys mayAsk mayEnd (f d) (past ++ [⟨.compile a, Except.ok d⟩]))
    (unavailable : mayEnd past (.error .uploadUnavailable))
    (refused : ∀ (x : Except CompileError Artifact) e,
      mayEnd (past ++ [⟨.compile a, x⟩]) (.error e)) :
    Obeys mayAsk mayEnd (r.compile a >>= f) past := by
  refine obeys_bind ?_
  simp only [Registry.compile]
  split
  · refine obeys_ask_bind allowed fun x => obeys_lift_bind (fun d h => ?_) fun e h => ?_
    · cases h
      split
      · exact ⟨fun _ h => by cases h; exact compiled d ‹_›, fun e h => nomatch h⟩
      · exact ⟨fun _ h => (nomatch h), fun e h => by cases h; exact refused _ _⟩
    · cases h
      exact ⟨fun _ h => (nomatch h), fun e h => by cases h; exact refused _ _⟩
  · exact ⟨fun _ h => (nomatch h), fun e h => by cases h; exact unavailable⟩

end Registry

end SchemaLedger
