/-!
Permission to act.

An actor may perform an operation within a scope, which is a tenant or a subject; a refusal
names all three.
-/

namespace SchemaLedger

/-- The operations that need permission. -/
inductive Operation where
  | register
  | update
  | delete
  | get
  deriving DecidableEq, Repr

namespace Operation

/-- The operation's name. -/
def label : Operation → String
  | .register => "register"
  | .update => "update"
  | .delete => "delete"
  | .get => "get"

/-- All operations. -/
def all : List Operation := [.register, .update, .delete, .get]

theorem label_find (o : Operation) : all.find? (·.label == o.label) = some o := by
  cases o <;> rfl

end Operation

/-- The refusal of an operation. -/
structure Denial where
  actor : String
  scope : String
  operation : Operation
  deriving DecidableEq, Repr

/-- A refusal as access control words it. -/
def Denial.message (d : Denial) : String :=
  d.actor ++ " is not allowed to " ++ d.operation.label ++ " in '" ++ d.scope ++ "'"

end SchemaLedger
