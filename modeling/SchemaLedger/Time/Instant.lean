import SchemaLedger.Text.Digits
import SchemaLedger.Time.Date

/-!
Points of universal time.

* `Instant` is a day and a time of day with nanoseconds. A leap second is the second 59 with a
  thousand million nanoseconds or more.
* Instants are ordered by time (`Instant.isBefore`).
* `Instant.render` is the stored text: years outside 0 to 9999 carry a sign, and the fraction
  has 0, 3, 6 or 9 digits, the fewest that are exact.
-/

namespace SchemaLedger

/-- A point of universal time. -/
structure Instant where
  date : Date
  hour : Nat
  minute : Nat
  second : Nat
  nano : Nat
  hour_lt : hour < 24 := by decide
  minute_lt : minute < 60 := by decide
  second_lt : second < 60 := by decide
  /-- Only the last second of a minute can be a leap second. -/
  nano_lt : nano < 1000000000 ∨ (second = 59 ∧ nano < 2000000000) := by decide
  deriving DecidableEq, Repr

namespace Instant

/-- The instant with the given parts, if each is in its range. -/
def ofParts? (date : Date) (hour minute second nano : Nat) : Option Instant :=
  if h : hour < 24 ∧ minute < 60 ∧ second < 60 ∧
      (nano < 1000000000 ∨ (second = 59 ∧ nano < 2000000000)) then
    some ⟨date, hour, minute, second, nano, h.1, h.2.1, h.2.2.1, h.2.2.2⟩
  else none

/-- The parts of an instant from the largest to the smallest. -/
def parts (t : Instant) : List Int :=
  [t.date.year, t.date.month, t.date.day, t.hour, t.minute, t.second, t.nano]

/-- The first pair of numbers that differ decides; the shorter list comes first otherwise. -/
def precedes : List Int → List Int → Bool
  | a :: as, b :: bs => decide (a < b) || (a == b && precedes as bs)
  | [], b => !b.isEmpty
  | _ :: _, [] => false

/-- Earlier comes first: the first part that differs decides. -/
def isBefore (a b : Instant) : Bool :=
  precedes a.parts b.parts

/-- `a` is not later than `b`. -/
instance : LE Instant := ⟨fun a b => b.isBefore a = false⟩

instance (a b : Instant) : Decidable (a ≤ b) :=
  inferInstanceAs (Decidable (b.isBefore a = false))

/-- Milliseconds since the first moment of 1970. -/
def unixMillis (t : Instant) : Int :=
  (((t.date.dayNumber - 719162) * 24 + t.hour) * 60 + t.minute) * 60000 +
    t.second * 1000 + t.nano / 1000000

/-- The instant that lies the given time after the first moment of 1970. -/
def ofUnix? (seconds : Int) (nano : Nat) : Option Instant := do
  let date ← Date.ofDayNumber? (seconds / 86400 + 719162)
  let s := (seconds % 86400).toNat
  ofParts? date (s / 3600) (s / 60 % 60) (s % 60) nano

/-- The year in four digits, or with its sign and at least four. -/
def renderYear (year : Int) : List Char :=
  if 0 ≤ year ∧ year ≤ 9999 then Text.padded 4 year.toNat
  else (if 0 ≤ year then '+' else '-') :: Text.padded 4 year.natAbs

/-- The fraction of a second in 0, 3, 6 or 9 digits. -/
def renderFraction (nano : Nat) : List Char :=
  if nano = 0 then []
  else if nano % 1000000 = 0 then '.' :: Text.padded 3 (nano / 1000000)
  else if nano % 1000 = 0 then '.' :: Text.padded 6 (nano / 1000)
  else '.' :: Text.padded 9 nano

/-- The stored text of an instant. -/
def render (t : Instant) : List Char :=
  let leap := 1000000000 ≤ t.nano
  let second := if leap then 60 else t.second
  let nano := if leap then t.nano - 1000000000 else t.nano
  renderYear t.date.year ++ '-' :: Text.padded 2 t.date.month ++
    '-' :: Text.padded 2 t.date.day ++ 'T' :: Text.padded 2 t.hour ++
    ':' :: Text.padded 2 t.minute ++ ':' :: Text.padded 2 second ++
    renderFraction nano ++ ['Z']

end Instant

end SchemaLedger
