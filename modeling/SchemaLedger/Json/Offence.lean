import SchemaLedger.Text.Shown

/-!
What can be wrong with a JSON text that should describe a value of a known shape.

* `Offence` names the first fault met in reading order.
* `Offence.message?` is its wording, for those faults that have one.
-/

namespace SchemaLedger.Json

/-- What stands where something else was expected. -/
inductive Found where
  | null
  | flag (b : Bool)
  | integer (n : Int)
  /-- A number with a fraction or an exponent, or outside the integers of 64 bits. -/
  | real (text : String)
  | text (s : String)
  | sequence
  | map
  deriving DecidableEq, Repr

/-- The fault that ends the reading of a text. -/
inductive Offence where
  /-- The text is no JSON, or goes on after the value. -/
  | malformed
  /-- The text stops before the value is complete. -/
  | truncated
  | missingField (key : String)
  | duplicateField (key : String)
  | unknownVariant (name : String) (known : List String)
  | wrongType (found : Found) (expected : String)
  | outOfRange (number : Int) (expected : String)
  /-- A record given as a sequence lacks the field at `index`. -/
  | tooShort (index : Nat) (record : String) (fields : Nat)
  | unreadableTime
  deriving DecidableEq, Repr

/-- The three kinds of faults. -/
inductive Category where
  | malformed
  | truncated
  | mismatch
  deriving DecidableEq, Repr

/-- A text that is complete and well-formed can still describe something else. -/
def Offence.category : Offence → Category
  | .malformed => .malformed
  | .truncated => .truncated
  | _ => .mismatch

/-- What was found, in words. -/
def Found.describe : Found → String
  | .null => "null"
  | .flag b => "boolean \x60" ++ (if b then "true" else "false") ++ "\x60"
  | .integer n => "integer \x60" ++ toString n ++ "\x60"
  | .real digits => "floating point \x60" ++ digits ++ "\x60"
  | .text s => "string " ++ Text.shown s
  | .sequence => "sequence"
  | .map => "map"

/-- Names in backquotes: one alone, two joined by `or`, more as a list to choose from. -/
def alternatives (names : List String) : String :=
  match names.map fun n => "\x60" ++ n ++ "\x60" with
  | [] => "there are no variants"
  | [a] => a
  | [a, b] => a ++ " or " ++ b
  | many => "one of " ++ ", ".intercalate many

/-- The wording of a fault. -/
def Offence.message? : Offence → Option String
  | .malformed => none
  | .truncated => none
  | .unreadableTime => none
  | .missingField key => some ("missing field \x60" ++ key ++ "\x60")
  | .duplicateField key => some ("duplicate field \x60" ++ key ++ "\x60")
  | .unknownVariant name known =>
    some ("unknown variant \x60" ++ name ++ "\x60, expected " ++ alternatives known)
  | .wrongType found expected =>
    some ("invalid type: " ++ found.describe ++ ", expected " ++ expected)
  | .outOfRange number expected =>
    some ("invalid value: integer \x60" ++ toString number ++ "\x60, expected " ++ expected)
  | .tooShort index record fields =>
    some ("invalid length " ++ toString index ++ ", expected struct " ++ record ++ " with " ++
      toString fields ++ (if fields = 1 then " element" else " elements"))

end SchemaLedger.Json
