import SchemaLedger.Decimal.Nearest
import SchemaLedger.Settings.Setting
import SchemaLedger.Text.Digits

/-!
Numbers and truth values in a settings file.

* `number?` reads an integer of 64 bits or a number with a fraction or an exponent. Digits may
  be grouped with underscores, and an integer may be given in another base.
* `flag?` reads one of the two words.
-/

namespace SchemaLedger.Toml

/-- The digits after the first, each of which may follow an underscore. -/
def moreDigits (isDigit : Char → Bool) : List Char → List Char × List Char
  | [] => ([], [])
  | [c] => if isDigit c then ([c], []) else ([], [c])
  | c :: d :: cs =>
    if isDigit c then
      let (ds, rest) := moreDigits isDigit (d :: cs)
      (c :: ds, rest)
    else if c = '_' ∧ isDigit d then
      let (ds, rest) := moreDigits isDigit cs
      (d :: ds, rest)
    else ([], c :: d :: cs)

/-- Digits, of which there must be one, and what follows them. -/
def digits? (isDigit : Char → Bool) : List Char → Option (List Char × List Char)
  | [] => none
  | c :: cs =>
    if isDigit c then
      let (ds, rest) := moreDigits isDigit cs
      some (c :: ds, rest)
    else none

/-- The number that digits of a base denote. -/
def valueIn (base : Nat) (ds : List Char) : Nat :=
  ds.foldl (fun n c => base * n + (Text.hexValue? c).getD 0) 0

/-- An integer, if 64 bits hold it. -/
def integer? (negative : Bool) (n : Nat) : Option Setting :=
  if negative then if n ≤ Word.limit 63 then some (.integer (-n)) else none
  else if n < Word.limit 63 then some (.integer n) else none

/-- An integer in a base other than ten, after the mark of its base. -/
def based? (base : Nat) (isDigit : Char → Bool) (cs : List Char) :
    Option (Setting × List Char) := do
  let (ds, cs) ← digits? isDigit cs
  some (← integer? false (valueIn base ds), cs)

/-- A real number. It must not be so large that only infinity comes near. -/
def real? (negative : Bool) (significand : Nat) (exponent : Int) : Option Setting :=
  let x := Decimal.nearest significand exponent
  if x.isInf && !negative then none else some (.real (if negative then -x else x))

/-- An exponent after its letter. -/
def exponent? (cs : List Char) : Option (Int × List Char) := do
  let (down, cs) := Decimal.sign cs
  let (ds, cs) ← digits? Char.isDigit cs
  some (if down then -(Text.valueOf ds) else Text.valueOf ds, cs)

/-- A number after the digits before its point. -/
def afterWhole? (negative : Bool) (whole cs : List Char) : Option (Setting × List Char) :=
  let ending (ds : List Char) (places : Nat) : List Char → Option (Setting × List Char)
    | 'e' :: cs | 'E' :: cs => do
      let (e, cs) ← exponent? cs
      some (← real? negative (Text.valueOf ds) (e - places), cs)
    | cs => do
      let x ← if places = 0 then integer? negative (Text.valueOf ds)
        else real? negative (Text.valueOf ds) (-places)
      some (x, cs)
  match cs with
  | '.' :: cs => do
    let (fraction, cs) ← digits? Char.isDigit cs
    ending (whole ++ fraction) fraction.length cs
  | cs => ending whole 0 cs

/-- A number after its sign: one of the two words, or digits without a leading zero. -/
def unsigned? (negative : Bool) (cs : List Char) : Option (Setting × List Char) :=
  match cs with
  | 'i' :: 'n' :: 'f' :: cs =>
    some (.real (if negative then -Decimal.infinity else Decimal.infinity), cs)
  | 'n' :: 'a' :: 'n' :: cs => some (.real Decimal.notANumber, cs)
  | cs => do
    let (whole, cs) ← digits? Char.isDigit cs
    if whole.head? = some '0' ∧ 1 < whole.length then none
    else afterWhole? negative whole cs

/-- A number. -/
def number? : List Char → Option (Setting × List Char)
  | '0' :: 'x' :: cs => based? 16 (fun c => (Text.hexValue? c).isSome) cs
  | '0' :: 'o' :: cs => based? 8 (fun c => '0' ≤ c && c ≤ '7') cs
  | '0' :: 'b' :: cs => based? 2 (fun c => c == '0' || c == '1') cs
  | cs =>
    let (negative, rest) := Decimal.sign cs
    unsigned? negative rest

/-- A truth value. -/
def flag? : List Char → Option (Setting × List Char)
  | 't' :: 'r' :: 'u' :: 'e' :: cs => some (.flag true, cs)
  | 'f' :: 'a' :: 'l' :: 's' :: 'e' :: cs => some (.flag false, cs)
  | _ => none

end SchemaLedger.Toml
