/-!
White space in names and times.

* `isSpace` is Unicode's property `White_Space`.
* `isBlank` holds of a text with nothing but such characters, the empty text included.
-/

namespace SchemaLedger.Text

/-- The characters with Unicode's property `White_Space`. -/
def isSpace (c : Char) : Bool :=
  let n := c.toNat
  (9 ≤ n && n ≤ 13) || n == 0x20 || n == 0x85 || n == 0xa0 || n == 0x1680 ||
    (0x2000 ≤ n && n ≤ 0x200a) || n == 0x2028 || n == 0x2029 || n == 0x202f ||
    n == 0x205f || n == 0x3000

/-- No character of the text is visible. -/
def isBlank (s : String) : Bool :=
  s.toList.all isSpace

/-- The text without its leading white space. -/
def dropSpace (cs : List Char) : List Char :=
  cs.dropWhile isSpace

end SchemaLedger.Text
