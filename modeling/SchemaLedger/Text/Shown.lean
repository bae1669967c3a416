import SchemaLedger.Text.Digits
import SchemaLedger.Text.Visible

/-!
How a message quotes a text that somebody else wrote.

* `shown s` stands between double quotes; the quote itself, the backslash and every hidden
  character are escaped, so the message stays on one line and can be read off unambiguously.
-/

namespace SchemaLedger.Text

/-- One character as it stands between the quotes. -/
def shownChar (c : Char) : List Char :=
  if c = '\x00' then ['\\', '0']
  else if c = '\t' then ['\\', 't']
  else if c = '\r' then ['\\', 'r']
  else if c = '\n' then ['\\', 'n']
  else if c = '"' then ['\\', '"']
  else if c = '\\' then ['\\', '\\']
  else if isVisible c then [c]
  else ['\\', 'u', '{'] ++ hexadecimal c.toNat ++ ['}']

/-- The text in double quotes. -/
def shown (s : String) : String :=
  String.ofList (['"'] ++ s.toList.flatMap shownChar ++ ['"'])

end SchemaLedger.Text
