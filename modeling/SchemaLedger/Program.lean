/-!
Programs that ask questions.

A `Program I α` computes an `α` and asks questions of an interface `I` on the way; who answers
them, and what happens between two questions, is left open.

* `Program.run` answers the questions in a monad, one after the other.
* `Program.translate` answers each question by a program over another interface that carries a
  state along, so that one system is built on top of another.
-/

namespace SchemaLedger

/-- Questions, and for each of them the type of its answers. -/
structure Interface where
  Ask : Type
  Answer : Ask → Type

/-- A computation that asks questions of an interface. -/
inductive Program (I : Interface) (α : Type) : Type where
  | done (a : α)
  | ask (q : I.Ask) (next : I.Answer q → Program I α)

namespace Program

variable {I J : Interface} {α β σ : Type}

/-- Continues with the result of a program. -/
def bind (p : Program I α) (f : α → Program I β) : Program I β :=
  match p with
  | .done a => f a
  | .ask q next => .ask q fun r => (next r).bind f

instance : Monad (Program I) where
  pure := .done
  bind := bind

/-- The program that asks one question. -/
def query (q : I.Ask) : Program I (I.Answer q) :=
  .ask q .done

/-- Answers the questions one after the other. -/
def run {m : Type → Type} [Monad m] (answer : (q : I.Ask) → m (I.Answer q)) :
    Program I α → m α
  | .done a => pure a
  | .ask q next => do
    let r ← answer q
    (next r).run answer

/-- Answers each question by a program over another interface, which may change a state. -/
def translate (answer : (q : I.Ask) → σ → Program J (I.Answer q × σ)) :
    Program I α → σ → Program J (α × σ)
  | .done a, s => .done (a, s)
  | .ask q next, s => (answer q s).bind fun (r, s) => (next r).translate answer s

@[simp] theorem bind_done (a : α) (f : α → Program I β) : (done a).bind f = f a := rfl

@[simp] theorem bind_ask (q : I.Ask) (next : I.Answer q → Program I α) (f : α → Program I β) :
    (ask q next).bind f = .ask q fun r => (next r).bind f := rfl

theorem bind_pure (p : Program I α) : p.bind .done = p := by
  induction p with
  | done a => rfl
  | ask q next ih => simp [ih]

theorem bind_assoc {γ : Type} (p : Program I α) (f : α → Program I β) (g : β → Program I γ) :
    (p.bind f).bind g = p.bind fun a => (f a).bind g := by
  induction p with
  | done a => rfl
  | ask q next ih => simp [ih]

instance : LawfulMonad (Program I) :=
  LawfulMonad.mk' (Program I) bind_pure (fun _ _ => rfl) bind_assoc

end Program

end SchemaLedger
