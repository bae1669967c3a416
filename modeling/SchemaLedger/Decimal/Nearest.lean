import SchemaLedger.Text.Digits

/-!
The double that a decimal is read as.

* `nearest` is the double nearest to `significand · 10^exponent`, and the one with the even
  significand if two are equally near. All of the arithmetic is on natural numbers.
* `ofText?` reads a whole text as a number, with or without a sign, a fraction and an exponent;
  the words for infinity and for no number at all count in any case.
-/

namespace SchemaLedger.Decimal

/-- The bits of infinity. -/
def infinityBits : Nat := 0x7ff0000000000000

/-- Infinity. -/
def infinity : Float :=
  Float.ofBits (UInt64.ofNat infinityBits)

/-- No number at all. -/
def notANumber : Float :=
  Float.ofBits 0x7ff8000000000000

/-- The bits of the double nearest to `num / den`, and those of infinity beyond all doubles. The
quotient is scaled to a significand of 53 bits, fewer only at the smallest exponent; a
significand that is rounded up to 54 bits carries into the exponent. -/
def nearestBits (num den : Nat) : Nat :=
  if num = 0 then 0
  else
    let scaled (q : Int) := (num * Word.limit (-q).toNat, den * Word.limit q.toNat)
    let guess := max (-1074) ((num.log2 : Int) - den.log2 - 53)
    let q := if (scaled guess).1 / (scaled guess).2 < Word.limit 53 then guess else guess + 1
    let (n, d) := scaled q
    let m := n / d
    let rest := 2 * (n % d)
    let rounded := if d < rest ∨ (rest = d ∧ m % 2 = 1) then m + 1 else m
    min ((q + 1074).toNat * Word.limit 52 + rounded) infinityBits

/-- No double is that large, nor is any but zero that small, in powers of ten. -/
def exponentBound : Int := 400

/-- The double nearest to `significand · 10^exponent`. -/
def nearest (significand : Nat) (exponent : Int) : Float :=
  let magnitude := exponent + (Text.digits significand).length
  let bits :=
    if significand = 0 ∨ magnitude < -exponentBound then 0
    else if exponentBound < magnitude then infinityBits
    else nearestBits (significand * Text.tens exponent.toNat) (Text.tens (-exponent).toNat)
  Float.ofBits (UInt64.ofNat bits)

/-- A sign, `true` for minus, and what follows it. -/
def sign : List Char → Bool × List Char
  | '-' :: cs => (true, cs)
  | '+' :: cs => (false, cs)
  | cs => (false, cs)

/-- An exponent that ends a text; none is zero. -/
def exponentOf? : List Char → Option Int
  | [] => some 0
  | c :: cs =>
    if c = 'e' ∨ c = 'E' then
      let (down, cs) := sign cs
      let (ds, rest) := Text.spanDigits cs
      if ds.isEmpty || !rest.isEmpty then none
      else some (if down then -(Text.valueOf ds) else Text.valueOf ds)
    else none

/-- A number without sign that ends a text. It has a digit before or after its point. -/
def magnitudeOf? (cs : List Char) : Option Float :=
  let (whole, cs) := Text.spanDigits cs
  let (fraction, cs) := match cs with
    | '.' :: cs => Text.spanDigits cs
    | cs => ([], cs)
  if whole.isEmpty && fraction.isEmpty then none
  else do
    let e ← exponentOf? cs
    some (nearest (Text.valueOf (whole ++ fraction)) (e - fraction.length))

/-- The number that a whole text denotes. -/
def ofText? (s : String) : Option Float := do
  let (negative, cs) := sign s.toList
  let word := String.ofList (cs.map Char.toLower)
  let x ←
    if word = "inf" ∨ word = "infinity" then some infinity
    else if word = "nan" then some notANumber
    else magnitudeOf? cs
  some (if negative then -x else x)

end SchemaLedger.Decimal
