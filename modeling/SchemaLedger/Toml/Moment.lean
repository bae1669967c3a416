import SchemaLedger.Settings.Setting
import SchemaLedger.Text.Digits
import SchemaLedger.Time.Date

/-!
Dates and times of day in a settings file.

Settings do not reckon with moments, so what counts is the text in its one usual form: a capital
`T` in the middle and no more digits in the fraction than it needs.

* `moment?` reads a date, a time of day, or both with or without an offset, where a settings
  file has one as a value.
* `statedMoment?` reads a text that is a moment as a whole. It is more lenient: an hour may
  be 24, a date alone may have an offset, and offsets of up to 24 hours may be given in any
  number of minutes below 100.
-/

namespace SchemaLedger.Toml

/-- A number in exactly the given count of digits. -/
def fixed? (count : Nat) (cs : List Char) : Option (Nat × List Char) :=
  let ds := cs.take count
  if ds.length = count ∧ ds.all Char.isDigit then some (Text.valueOf ds, cs.drop count) else none

/-- What follows a character. -/
def after? (c : Char) : List Char → Option (List Char)
  | d :: cs => if c = d then some cs else none
  | [] => none

/-- A date in its usual form. -/
def date? (cs : List Char) : Option (List Char × List Char) := do
  let (year, cs) ← fixed? 4 cs
  let cs ← after? '-' cs
  let (month, cs) ← fixed? 2 cs
  let cs ← after? '-' cs
  let (day, cs) ← fixed? 2 cs
  let _ ← Date.ofParts? year month day
  some (Text.padded 4 year ++ '-' :: Text.padded 2 month ++ '-' :: Text.padded 2 day, cs)

/-- The fraction of a second, cut off after nine digits, without zeros at its end. -/
def fraction? : List Char → Option (List Char × List Char)
  | '.' :: cs =>
    let (ds, rest) := Text.spanDigits cs
    let kept := ((ds.take 9).reverse.dropWhile (· == '0')).reverse
    if ds.isEmpty then none else some (if kept.isEmpty then [] else '.' :: kept, rest)
  | cs => some ([], cs)

/-- A time of day in its usual form, with an hour up to the given one. -/
def clock? (lastHour : Nat) (cs : List Char) : Option (List Char × List Char) := do
  let (hour, cs) ← fixed? 2 cs
  let cs ← after? ':' cs
  let (minute, cs) ← fixed? 2 cs
  let cs ← after? ':' cs
  let (second, cs) ← fixed? 2 cs
  let (fraction, cs) ← fraction? cs
  if lastHour < hour ∨ 59 < minute ∨ 60 < second then none
  else
    some (Text.padded 2 hour ++ ':' :: Text.padded 2 minute ++ ':' :: Text.padded 2 second ++
      fraction, cs)

/-- An offset from universal time in its usual form, if its hours and minutes are allowed;
nothing where there is none. -/
def offset? (allows : Nat → Nat → Bool) : List Char → Option (List Char × List Char)
  | 'Z' :: cs | 'z' :: cs => some (['Z'], cs)
  | c :: cs =>
    if c = '+' ∨ c = '-' then do
      let (hour, cs) ← fixed? 2 cs
      let cs ← after? ':' cs
      let (minute, cs) ← fixed? 2 cs
      let total := 60 * hour + minute
      if allows hour minute then
        let sign := if c = '-' ∧ 0 < total then '-' else '+'
        some (sign :: Text.padded 2 (total / 60) ++ ':' :: Text.padded 2 (total % 60), cs)
      else none
    else some ([], c :: cs)
  | [] => some ([], [])

/-- A date and a time of day, after the date and what stands between the two. -/
def afterDate? (date cs : List Char) : Option (Setting × List Char) := do
  let (clock, cs) ← clock? 23 cs
  let (offset, cs) ← offset? (fun hour minute => hour ≤ 23 && minute ≤ 59) cs
  some (.moment (String.ofList (date ++ 'T' :: clock ++ offset)), cs)

/-- A date, a time of day, or both. -/
def moment? (cs : List Char) : Option (Setting × List Char) :=
  match fixed? 2 cs with
  | some (_, ':' :: _) => do
    let (clock, cs) ← clock? 23 cs
    some (.moment (String.ofList clock), cs)
  | _ => do
    let (date, cs) ← date? cs
    match cs with
    | 'T' :: cs | 't' :: cs => afterDate? date cs
    | ' ' :: c :: cs =>
      if c.isDigit then afterDate? date (c :: cs)
      else some (.moment (String.ofList date), ' ' :: c :: cs)
    | cs => some (.moment (String.ofList date), cs)

/-- The text goes on like a time and not like a number. -/
def isMoment (cs : List Char) : Bool :=
  match fixed? 2 cs, fixed? 4 cs with
  | some (_, ':' :: _), _ => true
  | _, some (_, '-' :: _) => true
  | _, _ => false

/-- A date that a text states, with a time of day and an offset if there are any. -/
def statedDate? (cs : List Char) : Option (List Char) := do
  let (date, cs) ← date? cs
  let (clock, cs) ← match cs with
    | c :: rest =>
      if c = 'T' ∨ c = 't' ∨ c = ' ' then
        (clock? 24 rest).map fun (clock, cs) => ('T' :: clock, cs)
      else some ([], c :: rest)
    | [] => some ([], [])
  let (offset, cs) ← offset? (fun hour minute => 60 * hour + minute ≤ 1440) cs
  if cs.isEmpty then some (date ++ clock ++ offset) else none

/-- The moment that a text states. -/
def statedMoment? (cs : List Char) : Option (List Char) :=
  if (cs.drop 2).head? = some ':' then
    match clock? 24 cs with
    | some (clock, []) => some clock
    | _ => none
  else statedDate? cs

end SchemaLedger.Toml
