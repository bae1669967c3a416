import SchemaLedger.Json.Offence

/-!
Texts in quotes.

* `encode` escapes the quote, the backslash and the control characters, and nothing else.
* `decode` reads a quoted text after its opening quote and accepts every escape that JSON
  knows; two escapes that form a surrogate pair make one character, and half of a pair is a
  fault.
* `skip` passes over a quoted text whose characters do not matter, so that half of a pair is
  no fault there.
-/

namespace SchemaLedger.Json.Quoted

/-- A character between the quotes. -/
def escape (c : Char) : List Char :=
  if c = '"' then ['\\', '"']
  else if c = '\\' then ['\\', '\\']
  else if c = '\x08' then ['\\', 'b']
  else if c = '\x0c' then ['\\', 'f']
  else if c = '\n' then ['\\', 'n']
  else if c = '\r' then ['\\', 'r']
  else if c = '\t' then ['\\', 't']
  else if c.toNat < 0x20 then
    ['\\', 'u', '0', '0', Text.hexDigit (c.toNat / 16), Text.hexDigit (c.toNat % 16)]
  else [c]

/-- A text in quotes. -/
def encode (s : String) : List Char :=
  '"' :: s.toList.flatMap escape ++ ['"']

/-- The character that a letter after a backslash stands for. -/
def named? (c : Char) : Option Char :=
  match c with
  | '"' => some '"'
  | '\\' => some '\\'
  | '/' => some '/'
  | 'b' => some '\x08'
  | 'f' => some '\x0c'
  | 'n' => some '\n'
  | 'r' => some '\r'
  | 't' => some '\t'
  | _ => none

/-- The number in four hexadecimal digits. Where fewer than four bytes are left the text is
too short, whatever they are. -/
def unit (cs : List Char) : Except Offence (Nat × List Char) :=
  match cs with
  | a :: b :: c :: d :: rest =>
    match Text.hexValue? a, Text.hexValue? b, Text.hexValue? c, Text.hexValue? d with
    | some a, some b, some c, some d => .ok (((a * 16 + b) * 16 + c) * 16 + d, rest)
    | _, _, _, _ => .error .malformed
  | _ => .error (if 4 ≤ cs.foldl (fun n c => n + c.utf8Size) 0 then .malformed else .truncated)

/-- The character that a unit denotes, together with the second half of a surrogate pair. -/
def character (n : Nat) (cs : List Char) : Except Offence (Char × List Char) :=
  if 0xdc00 ≤ n ∧ n ≤ 0xdfff then .error .malformed
  else if n < 0xd800 ∨ 0xdbff < n then .ok (Char.ofNat n, cs)
  else
    match cs with
    | [] | ['\\'] => .error .truncated
    | '\\' :: 'u' :: cs => do
      let (low, cs) ← unit cs
      if low < 0xdc00 ∨ 0xdfff < low then .error .malformed
      else .ok (Char.ofNat (0x10000 + (n - 0xd800) * 0x400 + (low - 0xdc00)), cs)
    | _ => .error .malformed

/-- What follows a backslash. -/
def escaped : List Char → Except Offence (Char × List Char)
  | [] => .error .truncated
  | 'u' :: cs => do
    let (n, cs) ← unit cs
    character n cs
  | c :: cs =>
    match named? c with
    | some d => .ok (d, cs)
    | none => .error .malformed

/-- The next character of a quoted text, or none at the closing quote. -/
def next : List Char → Except Offence (Option Char × List Char)
  | [] => .error .truncated
  | '"' :: cs => .ok (none, cs)
  | '\\' :: cs => do
    let (c, cs) ← escaped cs
    .ok (some c, cs)
  | c :: cs => if c.toNat < 0x20 then .error .malformed else .ok (some c, cs)

/-- The characters up to the closing quote, of which there are at most `fuel`. -/
def characters : Nat → List Char → Except Offence (List Char × List Char)
  | 0, _ => .error .truncated
  | fuel + 1, cs => do
    match ← next cs with
    | (none, cs) => .ok ([], cs)
    | (some c, cs) => do
      let (s, cs) ← characters fuel cs
      .ok (c :: s, cs)

/-- A quoted text after its opening quote, and what follows the closing one. -/
def decode (cs : List Char) : Except Offence (String × List Char) := do
  let (s, cs) ← characters (cs.length + 1) cs
  .ok (String.ofList s, cs)

/-- Passes over one character of a quoted text; `true` at the closing quote. -/
def skipNext : List Char → Except Offence (Bool × List Char)
  | [] => .error .truncated
  | '"' :: cs => .ok (true, cs)
  | ['\\'] => .error .truncated
  | '\\' :: 'u' :: cs => do
    let (_, cs) ← unit cs
    .ok (false, cs)
  | '\\' :: c :: cs => if (named? c).isSome then .ok (false, cs) else .error .malformed
  | c :: cs => if c.toNat < 0x20 then .error .malformed else .ok (false, cs)

/-- Passes over at most `fuel` characters and the closing quote. -/
def skipCharacters : Nat → List Char → Except Offence (List Char)
  | 0, _ => .error .truncated
  | fuel + 1, cs => do
    match ← skipNext cs with
    | (true, cs) => .ok cs
    | (false, cs) => skipCharacters fuel cs

/-- Passes over a quoted text after its opening quote. -/
def skip (cs : List Char) : Except Offence (List Char) :=
  skipCharacters (cs.length + 1) cs

end SchemaLedger.Json.Quoted
