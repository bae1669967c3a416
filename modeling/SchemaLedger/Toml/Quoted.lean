import SchemaLedger.Text.Digits

/-!
Quoted texts in a settings file.

There are four styles: with or without escapes, on one line or over several lines. A style over
several lines has three quotes at each end, and a line break right after the opening quotes
does not count.

* `Style.read` reads a quoted text after its opening quotes.
* `quote` writes a text in the first style that needs no escapes, or else with escapes.
-/

namespace SchemaLedger.Toml

/-- A character that may stand in a text or a comment: no control character but the tabulator. -/
def isPlain (c : Char) : Bool :=
  c == '\t' || (0x20 ≤ c.toNat && c.toNat != 0x7f)

/-- A character that may stand between the words of a line. -/
def isBlank (c : Char) : Bool :=
  c == ' ' || c == '\t'

/-- The text after the blanks at its start. -/
def dropBlank (cs : List Char) : List Char :=
  cs.dropWhile isBlank

/-- The text after a line break, if it starts with one. -/
def lineBreak? : List Char → Option (List Char)
  | '\n' :: cs => some cs
  | '\r' :: '\n' :: cs => some cs
  | _ => none

/-- How a text is quoted. -/
structure Style where
  quote : Char
  escapes : Bool
  manyLines : Bool
  deriving DecidableEq, Repr

namespace Style

/-- With escapes, on one line. -/
def basic : Style := ⟨'"', true, false⟩

/-- Without escapes, on one line. -/
def literal : Style := ⟨'\'', false, false⟩

/-- With escapes, over several lines. -/
def basicLines : Style := ⟨'"', true, true⟩

/-- Without escapes, over several lines. -/
def literalLines : Style := ⟨'\'', false, true⟩

/-- The quotes at each end. -/
def fence (style : Style) : List Char :=
  List.replicate (if style.manyLines then 3 else 1) style.quote

end Style

/-! ### Reading -/

/-- The number in the given count of hexadecimal digits, and what follows them. -/
def hexNumber? : Nat → Nat → List Char → Option (Nat × List Char)
  | 0, n, cs => some (n, cs)
  | count + 1, n, c :: cs => do
    let d ← Text.hexValue? c
    hexNumber? count (16 * n + d) cs
  | _ + 1, _, [] => none

/-- The character with a number, if there is one. -/
def charOf? (n : Nat) : Option Char :=
  if n.isValidChar then some (Char.ofNat n) else none

/-- The character that is escaped after a backslash, and what follows it. -/
def escaped? : List Char → Option (Char × List Char)
  | 'b' :: cs => some ('\x08', cs)
  | 't' :: cs => some ('\t', cs)
  | 'n' :: cs => some ('\n', cs)
  | 'f' :: cs => some ('\x0c', cs)
  | 'r' :: cs => some ('\r', cs)
  | '"' :: cs => some ('"', cs)
  | '\\' :: cs => some ('\\', cs)
  | 'u' :: cs => do
    let (n, cs) ← hexNumber? 4 0 cs
    some (← charOf? n, cs)
  | 'U' :: cs => do
    let (n, cs) ← hexNumber? 8 0 cs
    some (← charOf? n, cs)
  | _ => none

/-- The text after blanks and line breaks, of which there are at most `fuel`. -/
def dropLines : Nat → List Char → List Char
  | 0, cs => cs
  | fuel + 1, cs =>
    match lineBreak? (dropBlank cs) with
    | some cs => dropLines fuel cs
    | none => dropBlank cs

/-- Part of a quoted text. -/
inductive Piece where
  /-- The text goes on after these characters. -/
  | more (s : List Char)
  /-- The text ends after these characters. -/
  | last (s : List Char)
  deriving DecidableEq, Repr

namespace Style

/-- The next piece of a text in front of a quote. In a text over several lines, one or two
quotes are part of the text, also in front of the three that end it. -/
def atQuote? (style : Style) (cs : List Char) : Option (Piece × List Char) :=
  if style.manyLines then
    let run := (cs.takeWhile (· == style.quote)).length
    let rest := cs.drop run
    if run < 3 then some (.more (List.replicate run style.quote), rest)
    else if run ≤ 5 then some (.last (List.replicate (run - 3) style.quote), rest)
    else none
  else some (.last [], cs.drop 1)

/-- The next piece of a text after a backslash. A backslash at the end of a line hides the
line break and all blanks after it. -/
def afterBackslash? (style : Style) (cs : List Char) : Option (Piece × List Char) :=
  match style.manyLines, lineBreak? (dropBlank cs) with
  | true, some rest => some (.more [], dropLines rest.length rest)
  | _, _ => do
    let (c, rest) ← escaped? cs
    some (.more [c], rest)

/-- The next piece of a text. -/
def next? (style : Style) : List Char → Option (Piece × List Char)
  | [] => none
  | c :: cs =>
    if c = style.quote then style.atQuote? (c :: cs)
    else if c = '\\' ∧ style.escapes then style.afterBackslash? cs
    else if isPlain c then some (.more [c], cs)
    else if style.manyLines then do
      let rest ← lineBreak? (c :: cs)
      some (.more ['\n'], rest)
    else none

/-- A text of at most `fuel` pieces up to the closing quotes. -/
def pieces? (style : Style) : Nat → List Char → Option (List Char × List Char)
  | 0, _ => none
  | fuel + 1, cs => do
    match ← style.next? cs with
    | (.last s, cs) => some (s, cs)
    | (.more s, cs) => do
      let (t, cs) ← style.pieces? fuel cs
      some (s ++ t, cs)

/-- A quoted text after its opening quotes, and what follows the closing ones. -/
def read (style : Style) (cs : List Char) : Option (List Char × List Char) :=
  let cs := if style.manyLines then (lineBreak? cs).getD cs else cs
  style.pieces? (cs.length + 1) cs

end Style

/-- A quoted text on one line. -/
def line? : List Char → Option (List Char × List Char)
  | '"' :: cs => Style.basic.read cs
  | '\'' :: cs => Style.literal.read cs
  | _ => none

/-- A quoted text. -/
def quoted? : List Char → Option (List Char × List Char)
  | '"' :: '"' :: '"' :: cs => Style.basicLines.read cs
  | '\'' :: '\'' :: '\'' :: cs => Style.literalLines.read cs
  | cs => line? cs

/-! ### Writing -/

/-- A control character that only an escape can stand for. -/
def isHidden (c : Char) : Bool :=
  !isPlain c && c != '\n'

/-- The longest run of a character in a text; `run` counts the ones just before it. -/
def longestRun (c : Char) : Nat → List Char → Nat
  | run, [] => run
  | run, d :: ds => if d = c then longestRun c (run + 1) ds else max run (longestRun c 0 ds)

/-- The first style that fits a text. -/
def styleOf (cs : List Char) : Style :=
  let hidden := cs.any isHidden
  let breaks := cs.contains '\n'
  let quotes := longestRun '"' 0 cs
  let apostrophes := longestRun '\'' 0 cs
  if !hidden && !cs.contains '\\' && quotes == 0 && !breaks then .basic
  else if !hidden && apostrophes == 0 && !breaks then .literal
  else if !hidden && !cs.contains '\\' && quotes ≤ 2 then .basicLines
  else if !hidden && apostrophes ≤ 2 then .literalLines
  else if breaks then .basicLines
  else .basic

/-- A character between quotes where escapes are possible. -/
def escape (style : Style) (c : Char) : List Char :=
  if c = '\n' then (if style.manyLines then ['\n'] else ['\\', 'n'])
  else if c = '\x08' then ['\\', 'b']
  else if c = '\t' then ['\\', 't']
  else if c = '\x0c' then ['\\', 'f']
  else if c = '\r' then ['\\', 'r']
  else if c = '\\' then ['\\', '\\']
  else if isPlain c then [c]
  else
    ['\\', 'u', '0', '0', (Text.hexDigit (c.toNat / 16)).toUpper,
      (Text.hexDigit (c.toNat % 16)).toUpper]

/-- The characters between quotes where escapes are possible. At most `limit` quotes in a row
stand for themselves; `run` counts the ones just before. -/
def escapeAll (style : Style) (limit : Nat) : Nat → List Char → List Char
  | _, [] => []
  | run, c :: cs =>
    if c = style.quote then
      if run < limit then c :: escapeAll style limit (run + 1) cs
      else '\\' :: c :: escapeAll style limit 0 cs
    else escape style c ++ escapeAll style limit 0 cs

/-- The characters between the quotes. -/
def Style.body (style : Style) (cs : List Char) : List Char :=
  if style.escapes then escapeAll style (if style.manyLines then 2 else 0) 0 cs else cs

/-- A text in quotes. -/
def quote (s : String) : List Char :=
  let cs := s.toList
  let style := styleOf cs
  style.fence ++ (if style.manyLines && cs.contains '\n' then ['\n'] else []) ++ style.body cs ++
    style.fence

end SchemaLedger.Toml
