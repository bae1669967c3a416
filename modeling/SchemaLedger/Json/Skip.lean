import SchemaLedger.Json.Number
import SchemaLedger.Json.Quoted

/-!
White space, fixed words, and values that do not matter.

* `skip` passes over one value of any shape and depth. It checks brackets, commas and colons,
  but not the range of numbers or the pairing of surrogates.
-/

namespace SchemaLedger.Json

/-- The four characters that may stand between the parts of a text. -/
def isBlank (c : Char) : Bool :=
  c == ' ' || c == '\t' || c == '\n' || c == '\r'

/-- The text without leading white space. -/
def dropBlank (cs : List Char) : List Char :=
  cs.dropWhile isBlank

/-- The text after a fixed word. -/
def word : List Char → List Char → Except Offence (List Char)
  | [], cs => .ok cs
  | _ :: _, [] => .error .truncated
  | w :: ws, c :: cs => if c = w then word ws cs else .error .malformed

/-- The text after a colon. -/
def colon (cs : List Char) : Except Offence (List Char) :=
  match dropBlank cs with
  | ':' :: cs => .ok cs
  | [] => .error .truncated
  | _ => .error .malformed

/-- The two kinds of brackets. -/
inductive Bracket where
  | sequence
  | map
  deriving DecidableEq, Repr

/-- The character that closes a bracket. -/
def Bracket.closer : Bracket → Char
  | .sequence => ']'
  | .map => '}'

/-- Passes over what precedes a value inside a bracket: in a map, a key and a colon. -/
def Bracket.skipKey : Bracket → List Char → Except Offence (List Char)
  | .sequence, cs => .ok cs
  | .map, cs =>
    match dropBlank cs with
    | '"' :: cs => do colon (← Quoted.skip cs)
    | [] => .error .truncated
    | _ => .error .malformed

/-- After a value, closes brackets until a comma asks for another value inside one of them;
the brackets that are then still open, or none if all are closed. -/
def afterValue : List Bracket → List Char → Except Offence (Option (List Bracket) × List Char)
  | [], cs => .ok (none, cs)
  | b :: opened, cs =>
    match dropBlank cs with
    | [] => .error .truncated
    | ',' :: cs => do .ok (some (b :: opened), ← b.skipKey cs)
    | c :: cs => if c = b.closer then afterValue opened cs else .error .malformed

/-- Passes over the start of a bracket, as far as its first value if it has one. -/
def enter (b : Bracket) (opened : List Bracket) (cs : List Char) :
    Except Offence (Option (List Bracket) × List Char) :=
  match dropBlank cs with
  | [] => .error .truncated
  | c :: rest =>
    if c = b.closer then afterValue opened rest
    else do .ok (some (b :: opened), ← b.skipKey (c :: rest))

/-- Passes over the start of a value inside the given brackets. -/
def skipStart (opened : List Bracket) (cs : List Char) :
    Except Offence (Option (List Bracket) × List Char) :=
  match dropBlank cs with
  | [] => .error .truncated
  | '[' :: cs => enter .sequence opened cs
  | '{' :: cs => enter .map opened cs
  | '"' :: cs => do afterValue opened (← Quoted.skip cs)
  | 'n' :: cs => do afterValue opened (← word ['u', 'l', 'l'] cs)
  | 't' :: cs => do afterValue opened (← word ['r', 'u', 'e'] cs)
  | 'f' :: cs => do afterValue opened (← word ['a', 'l', 's', 'e'] cs)
  | c :: cs =>
    if c = '-' ∨ c.isDigit then do afterValue opened (← Number.skip (c :: cs))
    else .error .malformed

/-- Passes over at most `fuel` starts of values. -/
def skipOpen : Nat → List Bracket → List Char → Except Offence (List Char)
  | 0, _, _ => .error .truncated
  | fuel + 1, opened, cs => do
    match ← skipStart opened cs with
    | (none, cs) => .ok cs
    | (some opened, cs) => skipOpen fuel opened cs

/-- Passes over one value. -/
def skip (cs : List Char) : Except Offence (List Char) :=
  skipOpen (cs.length + 1) [] cs

end SchemaLedger.Json
