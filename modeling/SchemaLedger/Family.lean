/-!
The two classifications fixed when a schema is registered: the family of its texts and the
policy for changes between adjacent versions.

* `Family.ofText?` and `Policy.ofText?` read a name in any case; a policy may use hyphens.
* `label` is the stored spelling, and `label_find` says that no two values share one.
-/

namespace SchemaLedger

/-- What kind of schema text a schema holds. -/
inductive Family where
  | avro
  | json
  | protobuf
  | text
  deriving DecidableEq, Repr

namespace Family

/-- The stored spelling. -/
def label : Family → String
  | .avro => "avro"
  | .json => "json"
  | .protobuf => "protobuf"
  | .text => "text"

/-- All families. -/
def all : List Family := [.avro, .json, .protobuf, .text]

theorem label_find (f : Family) : all.find? (·.label == f.label) = some f := by
  cases f <;> rfl

/-- The text in which a name is looked up: letters of the Latin alphabet are lowered. -/
def fold (s : String) : String :=
  s.map Char.toLower

/-- A family by its name in any case, or by the short name `proto`. -/
def ofText? (s : String) : Option Family :=
  if fold s = "proto" then some .protobuf else all.find? (·.label == fold s)

end Family

/-- Which changes a new version may make. -/
inductive Policy where
  | backward
  | backwardTransitive
  | forward
  | forwardTransitive
  | full
  | fullTransitive
  | none
  deriving DecidableEq, Repr

namespace Policy

/-- The stored spelling. -/
def label : Policy → String
  | .backward => "BACKWARD"
  | .backwardTransitive => "BACKWARD_TRANSITIVE"
  | .forward => "FORWARD"
  | .forwardTransitive => "FORWARD_TRANSITIVE"
  | .full => "FULL"
  | .fullTransitive => "FULL_TRANSITIVE"
  | .none => "NONE"

/-- All policies. -/
def all : List Policy :=
  [.backward, .backwardTransitive, .forward, .forwardTransitive, .full, .fullTransitive, .none]

theorem label_find (p : Policy) : all.find? (·.label == p.label) = some p := by
  cases p <;> rfl

/-- The text in which a name is looked up: letters of the Latin alphabet are raised, and a
hyphen counts as an underscore. -/
def fold (s : String) : String :=
  s.map fun c => if c = '-' then '_' else c.toUpper

/-- A policy by its name in any case. -/
def ofText? (s : String) : Option Policy :=
  all.find? (·.label == fold s)

end Policy

end SchemaLedger
