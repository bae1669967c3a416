import SchemaLedger.Decimal.Notation
import SchemaLedger.Json.Offence

/-!
Numbers in a JSON text.

* `Number.read` tells integers of 64 bits, which are exact, from all other numbers, which are
  only ever quoted in messages. Minus zero is one of the others.
* Of a number with more digits than 64 bits hold the further digits only count as places, and
  a magnitude beyond the range of doubles is a fault of the text.
* `Number.skip` passes over a number that does not matter.
-/

namespace SchemaLedger.Json

/-- A number as it is found in a text. -/
inductive Number where
  | integer (n : Int)
  | real (text : String)
  deriving DecidableEq, Repr

namespace Number

/-- What a message says was found. -/
def found : Number → Found
  | .integer n => .integer n
  | .real digits => .real digits

/-- The largest integer of 64 bits. -/
def wordMax : Nat := Word.limit 64 - 1

/-- The largest exponent that is taken into account. -/
def exponentMax : Nat := Word.limit 31 - 1

/-- Appends digits to a number while it stays within 64 bits; the digits left over. -/
def accumulate (n : Nat) : List Char → Nat × List Char
  | [] => (n, [])
  | d :: ds =>
    let next := 10 * n + Text.digitValue d
    if wordMax < next then (n, d :: ds) else accumulate next ds

/-- Divides by the largest tabulated power of ten until the exponent is tabulated itself. -/
def scaleDown : Nat → Float → Nat → Float
  | 0, _, _ => 0.0
  | fuel + 1, x, e =>
    if e ≤ 308 then x / Float.ofScientific 1 false e
    else scaleDown fuel (x / Float.ofScientific 1 false 308) (e - 308)

/-- The double that a significand and a decimal exponent are read as, if it is finite. The
fourth division by 10³⁰⁸ leaves nothing of a number of 64 bits. -/
def magnitude? (significand : Nat) (exponent : Int) : Option Float :=
  let x := Float.ofNat significand
  if exponent < 0 then some (scaleDown 4 x exponent.natAbs)
  else if significand = 0 then some 0.0
  else if 308 < exponent then none
  else
    let y := x * Float.ofScientific 1 false exponent.toNat
    if y.isInf then none else some y

/-- A number that is no integer. -/
def ofParts (negative : Bool) (significand : Nat) (exponent : Int) (cs : List Char) :
    Except Offence (Number × List Char) :=
  match magnitude? significand exponent with
  | none => .error .malformed
  | some x => .ok (.real (Decimal.message.render (if negative then -x else x)), cs)

/-- The sign of an exponent; `true` for minus. -/
def exponentSign : List Char → Bool × List Char
  | '+' :: cs => (false, cs)
  | '-' :: cs => (true, cs)
  | cs => (false, cs)

/-- What follows the letter of an exponent. -/
def exponent (negative : Bool) (significand : Nat) (start : Int) (cs : List Char) :
    Except Offence (Number × List Char) :=
  let (down, cs) := exponentSign cs
  let (ds, cs') := Text.spanDigits cs
  if ds.isEmpty then .error (if cs.isEmpty then .truncated else .malformed)
  else
    let e := Text.valueOf ds
    if exponentMax < e then
      if significand ≠ 0 ∧ ¬down then .error .malformed else ofParts negative 0 0 cs'
    else ofParts negative significand (if down then start - e else start + e) cs'

/-- The end of a number that is no integer: an exponent, or nothing. -/
def finish (negative : Bool) (significand : Nat) (start : Int) (cs : List Char) :
    Except Offence (Number × List Char) :=
  match cs with
  | 'e' :: cs | 'E' :: cs => exponent negative significand start cs
  | cs => ofParts negative significand start cs

/-- What follows a decimal point. -/
def fraction (negative : Bool) (significand : Nat) (start : Int) (cs : List Char) :
    Except Offence (Number × List Char) :=
  let (ds, cs) := Text.spanDigits cs
  if ds.isEmpty then .error (if cs.isEmpty then .truncated else .malformed)
  else
    let (significand, left) := accumulate significand ds
    finish negative significand (start - (ds.length - left.length : Nat)) cs

/-- An integer by its sign and magnitude. Below the integers of 64 bits, and at minus zero, it
is another number. -/
def ofInteger (negative : Bool) (n : Nat) (cs : List Char) : Except Offence (Number × List Char) :=
  if negative then
    if n = 0 ∨ Word.limit 63 < n then ofParts true n 0 cs else .ok (.integer (-n), cs)
  else .ok (.integer n, cs)

/-- What follows the digits before a decimal point. -/
def afterDigits (negative : Bool) (ds : List Char) (cs : List Char) :
    Except Offence (Number × List Char) :=
  let (n, left) := accumulate 0 ds
  match cs with
  | '.' :: cs => fraction negative n left.length cs
  | cs =>
    match cs with
    | 'e' :: _ | 'E' :: _ => finish negative n left.length cs
    | _ => if left.isEmpty then ofInteger negative n cs else ofParts negative n left.length cs

/-- A number after its sign. -/
def unsigned (negative : Bool) (cs : List Char) : Except Offence (Number × List Char) :=
  let (ds, rest) := Text.spanDigits cs
  match ds with
  | [] => .error (if cs.isEmpty then .truncated else .malformed)
  | '0' :: _ :: _ => .error .malformed
  | ds => afterDigits negative ds rest

/-- A number. -/
def read : List Char → Except Offence (Number × List Char)
  | '-' :: cs => unsigned true cs
  | cs => unsigned false cs

/-- Passes over the exponent of a number. -/
def skipExponent (cs : List Char) : Except Offence (List Char) :=
  let (ds, cs) := Text.spanDigits (exponentSign cs).2
  if ds.isEmpty then .error .malformed else .ok cs

/-- Passes over a number after its integer digits. -/
def skipTail : List Char → Except Offence (List Char)
  | '.' :: cs =>
    let (ds, cs) := Text.spanDigits cs
    if ds.isEmpty then .error .malformed
    else
      match cs with
      | 'e' :: cs | 'E' :: cs => skipExponent cs
      | cs => .ok cs
  | 'e' :: cs | 'E' :: cs => skipExponent cs
  | cs => .ok cs

/-- Passes over a number after its sign. -/
def skipUnsigned (cs : List Char) : Except Offence (List Char) :=
  let (ds, rest) := Text.spanDigits cs
  match ds with
  | [] | '0' :: _ :: _ => .error .malformed
  | _ => skipTail rest

/-- Passes over a number. -/
def skip : List Char → Except Offence (List Char)
  | '-' :: cs => skipUnsigned cs
  | cs => skipUnsigned cs

end Number

end SchemaLedger.Json
