import SchemaLedger.Text.Digits

/-!
The shortest decimal that stands for a binary fraction.

A finite double is `m · 2^q`, and the reals that round to it form an interval around it, whose
ends belong to it exactly if `m` is even.

* `Binary.ofBits` reads `m` and `q` off the 64 bits.
* `Binary.shortest` is the decimal with the fewest digits inside the interval, and of those
  the nearest to the value. For each number of digits only the two neighbours of the value on
  that decimal grid are tested: if a point of the grid lies in the interval, one of them does.
* A `Tie` says which neighbour is taken when the value lies in the middle between them.
-/

namespace SchemaLedger.Decimal

/-- A decimal `significand · 10^exponent`. -/
structure Numeral where
  significand : Nat
  exponent : Int
  deriving DecidableEq, Repr

/-- A positive binary fraction `m · 2^q`; `narrow` says that the gap to the next smaller
double is half the gap to the next larger one. -/
structure Binary where
  m : Nat
  q : Int
  narrow : Bool
  deriving DecidableEq, Repr

/-- What becomes of a value in the middle between two decimals. -/
inductive Tie where
  /-- It goes to the decimal with the even last digit. -/
  | toEven
  /-- It goes away from zero. -/
  | away
  deriving DecidableEq, Repr

/-- The lower one of two neighbours is taken, of which it is `below` grid steps from zero and
the value `down` from it and `up` from the other one. -/
def Tie.takesLower (tie : Tie) (below down up : Nat) : Bool :=
  down < up || (down == up && tie == .toEven && below % 2 == 0)

namespace Binary

/-- The magnitude of the finite double with the given bits. -/
def ofBits (bits : Nat) : Binary :=
  let fraction := bits % Word.limit 52
  let exponent : Nat := bits / Word.limit 52 % Word.limit 11
  if exponent = 0 then ⟨fraction, -1074, false⟩
  else ⟨fraction + Word.limit 52, (exponent : Int) - 1075, fraction == 0 && 1 < exponent⟩

/-- Numerators of the lower end, the value and the upper end of the interval over the common
denominator in the last component. -/
def interval (b : Binary) : Nat × Nat × Nat × Nat :=
  let low := if b.narrow then 4 * b.m - 1 else 4 * b.m - 2
  let q := b.q - 2
  let scale := Word.limit q.toNat
  (low * scale, 4 * b.m * scale, (4 * b.m + 2) * scale, Word.limit (-q).toNat)

/-- The decimal exponent of the value's leading digit. -/
def leading (b : Binary) : Int :=
  let (_, value, _, den) := b.interval
  ((Text.digits (value * Text.tens 400 / den)).length : Int) - 401

/-- The decimal `c · 10^k` if it rounds to the value. -/
def admits (b : Binary) (k : Int) (c : Nat) : Bool :=
  let (low, _, high, den) := b.interval
  let point := c * Text.tens k.toNat * den
  let low := low * Text.tens (-k).toNat
  let high := high * Text.tens (-k).toNat
  if b.m % 2 = 0 then low ≤ point && point ≤ high else low < point && point < high

/-- The grid point of exponent `k` that rounds to the value and is nearest to it. -/
def onGrid? (b : Binary) (tie : Tie) (k : Int) : Option Numeral :=
  let (_, value, _, den) := b.interval
  let num := value * Text.tens (-k).toNat
  let unit := den * Text.tens k.toNat
  let below := num / unit
  let above := below + 1
  match b.admits k below, b.admits k above with
  | true, true =>
    let lower := tie.takesLower below (num - below * unit) (above * unit - num)
    some ⟨if lower then below else above, k⟩
  | true, false => some ⟨below, k⟩
  | false, true => some ⟨above, k⟩
  | false, false => none

/-- The first grid with a hit, from one digit on; seventeen digits always hit. -/
def shortest (b : Binary) (tie : Tie) : Numeral :=
  if b.m = 0 then ⟨0, 0⟩
  else
    let e := b.leading
    match (List.range 17).findSome? fun (n : Nat) => b.onGrid? tie (e - n) with
    | some d => d
    | none => ⟨0, 0⟩

end Binary

/-- The decimal without trailing zeros in its significand. -/
def Numeral.trim (d : Numeral) : Numeral :=
  let zeros := ((Text.digits d.significand).reverse.takeWhile (· == '0')).length
  if d.significand = 0 then ⟨0, 0⟩ else ⟨d.significand / Text.tens zeros, d.exponent + zeros⟩

end SchemaLedger.Decimal
