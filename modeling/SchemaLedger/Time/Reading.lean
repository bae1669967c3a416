import SchemaLedger.Text.Blank
import SchemaLedger.Time.Instant

/-!
Reading a point of time from text.

The accepted texts are wider than the stored ones (`Instant.render`): numbers may lack leading
zeros, white space may stand between the parts, the fraction may have any number of digits,
and the time may be given for another offset from universal time, which is then taken off.

* `Instant.ofText?` is `some` of the instant denoted, or `none` for any other text.
-/

namespace SchemaLedger

namespace Instant.Reading

/-- Up to `most` digits, of which at least one must be there. -/
def number? (most : Nat) (cs : List Char) : Option (Nat × List Char) :=
  let ds := (cs.take most).takeWhile Char.isDigit
  if ds.isEmpty then none else some (Text.valueOf ds, cs.drop ds.length)

/-- A number after optional white space. -/
def field? (most : Nat) (cs : List Char) : Option (Nat × List Char) :=
  number? most (Text.dropSpace cs)

/-- The year: at most four digits, or a sign and any number of digits. -/
def year? (cs : List Char) : Option (Int × List Char) :=
  match Text.dropSpace cs with
  | '-' :: cs => (number? cs.length cs).map fun (n, cs) => (-(n : Int), cs)
  | '+' :: cs => (number? cs.length cs).map fun (n, cs) => ((n : Int), cs)
  | cs => (number? 4 cs).map fun (n, cs) => ((n : Int), cs)

/-- The given character, after optional white space. -/
def mark? (c : Char) (cs : List Char) : Option (List Char) :=
  match Text.dropSpace cs with
  | d :: cs => if d = c then some cs else none
  | [] => none

/-- The character between date and time. -/
def separator? : List Char → Option (List Char)
  | 'T' :: cs => some cs
  | 't' :: cs => some cs
  | ' ' :: cs => some cs
  | _ => none

/-- The fraction of a second in nanoseconds; digits beyond the ninth are dropped. -/
def fraction? : List Char → Option (Nat × List Char)
  | '.' :: cs =>
    let (ds, rest) := Text.spanDigits cs
    let kept := ds.take 9
    if ds.isEmpty then none
    else some (Text.valueOf kept * Text.tens (9 - kept.length), rest)
  | cs => some (0, cs)

/-- Exactly two digits. -/
def pair? : List Char → Option (Nat × List Char)
  | a :: b :: cs =>
    if a.isDigit && b.isDigit then some (Text.valueOf [a, b], cs) else none
  | _ => none

/-- Hours and minutes of an offset, with colons or white space between them, in minutes. -/
def offsetMinutes? (cs : List Char) : Option (Nat × List Char) := do
  let (hours, cs) ← pair? cs
  let (minutes, cs) ← pair? (cs.dropWhile fun c => c == ':' || Text.isSpace c)
  if minutes < 60 ∧ hours < 24 then some (60 * hours + minutes, cs) else none

/-- The offset from universal time in minutes: `Z`, `UTC`, or a sign, hours and minutes. -/
def offset? (cs : List Char) : Option (Int × List Char) :=
  match Text.dropSpace cs with
  | 'Z' :: cs | 'z' :: cs => some (0, cs)
  | '+' :: cs => (offsetMinutes? cs).map fun (n, cs) => ((n : Int), cs)
  | '-' :: cs | '−' :: cs => (offsetMinutes? cs).map fun (n, cs) => (-(n : Int), cs)
  | u :: t :: c :: cs =>
    if [u, t, c].map Char.toUpper = ['U', 'T', 'C'] then some (0, cs) else none
  | _ => none

/-- The minute of a day that lies `offset` minutes before the given one, with the day it
falls on. -/
def shift? (date : Date) (minute : Nat) (offset : Int) : Option (Date × Nat) :=
  let m := (minute : Int) - offset
  if m < 0 then date.previous?.map (·, (m + 1440).toNat)
  else if 1440 ≤ m then date.next?.map (·, (m - 1440).toNat)
  else some (date, m.toNat)

/-- A second and its nanoseconds; second 60 is the leap second. -/
def leap (second nano : Nat) : Nat × Nat :=
  if second = 60 then (59, nano + 1000000000) else (second, nano)

end Instant.Reading

open Instant.Reading in
/-- The instant that a text denotes. -/
def Instant.ofText? (cs : List Char) : Option Instant := do
  let (year, cs) ← year? cs
  let cs ← mark? '-' cs
  let (month, cs) ← field? 2 cs
  let cs ← mark? '-' cs
  let (day, cs) ← field? 2 cs
  let cs ← separator? cs
  let (hour, cs) ← field? 2 cs
  let cs ← mark? ':' cs
  let (minute, cs) ← field? 2 cs
  let cs ← mark? ':' cs
  let (second, cs) ← field? 2 cs
  let (nano, cs) ← fraction? cs
  let (offset, cs) ← offset? cs
  guard (Text.dropSpace cs).isEmpty
  guard (hour < 24 ∧ minute < 60 ∧ second ≤ 60)
  let date ← Date.ofParts? year month day
  let (date, minute) ← shift? date (60 * hour + minute) offset
  let (second, nano) := leap second nano
  ofParts? date (minute / 60) (minute % 60) second nano

end SchemaLedger
