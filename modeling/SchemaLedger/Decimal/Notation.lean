import SchemaLedger.Decimal.Shortest

/-!
Texts of floating-point numbers.

* `positional` writes every digit before and after the point and no exponent.
* `scientific` writes a mantissa and an exponent.
* `Style.render` joins the two with the sign and the texts of the special values. A message
  (`message`) is positional while the leading digit stands between 10⁻⁵ and 10¹⁵ and then keeps
  at least one digit after the point; a setting (`setting`) is always positional and has no
  digit after the point when it needs none. Of two decimals that are equally near, a message
  takes the one that ends in an even digit, and a setting the one farther from zero.
-/

namespace SchemaLedger.Decimal

/-- All digits, with a point where the decimal has a fractional part; `keepPoint` also writes
`.0` where it has none. -/
def positional (keepPoint : Bool) (d : Numeral) : List Char :=
  let ds := Text.digits d.significand
  if 0 ≤ d.exponent then
    ds ++ List.replicate d.exponent.toNat '0' ++ (if keepPoint then ['.', '0'] else [])
  else
    let places := (-d.exponent).toNat
    let ds := List.replicate (places + 1 - ds.length) '0' ++ ds
    ds.take (ds.length - places) ++ '.' :: ds.drop (ds.length - places)

/-- The power of ten of the leading digit. -/
def Numeral.magnitude (d : Numeral) : Int :=
  d.exponent + (Text.digits d.significand).length - 1

/-- One digit, the remaining digits after a point, and a signed exponent. -/
def scientific (d : Numeral) : List Char :=
  let ds := Text.digits d.significand
  let e := d.magnitude
  ds.take 1 ++ (if ds.length = 1 then [] else '.' :: ds.drop 1) ++
    ['e', if 0 ≤ e then '+' else '-'] ++ Text.digits e.natAbs

/-- The choices that a text of a number leaves open. -/
structure Style where
  /-- Magnitudes written positionally, both ends included; `none` means all. -/
  window : Option (Int × Int)
  /-- Whole numbers end in `.0`. -/
  keepPoint : Bool
  /-- Which of two equally short and equally near decimals is written. -/
  tie : Tie
  deriving Repr

/-- Numbers in messages about a text. -/
def message : Style := ⟨some (-5, 15), true, .toEven⟩

/-- Numbers that become the text of a setting. -/
def setting : Style := ⟨none, false, .away⟩

/-- The text of a number in a given style. -/
def Style.render (style : Style) (x : Float) : String :=
  let bits := x.toBits.toNat
  let negative := Word.limit 63 ≤ bits
  if x.isNaN then "NaN"
  else if x.isInf then (if negative then "-inf" else "inf")
  else
    let d := ((Binary.ofBits (bits % Word.limit 63)).shortest style.tie).trim
    let body := match style.window with
      | none => positional style.keepPoint d
      | some (low, high) =>
        if low ≤ d.magnitude ∧ d.magnitude ≤ high then positional style.keepPoint d
        else scientific d
    String.ofList (if negative then '-' :: body else body)

end SchemaLedger.Decimal
