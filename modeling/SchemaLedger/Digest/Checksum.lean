import SchemaLedger.Digest.Sha256
import SchemaLedger.Text.Digits

/-!
Fingerprints of schema texts and compiled artifacts.

* `Checksum.ofBytes` and `Checksum.ofText` are the secure hash in lower-case hexadecimal.
* A stored checksum may be any text; `Checksum.verifies` compares it with the fingerprint of
  the content it claims to describe.
-/

namespace SchemaLedger

/-- The text of a checksum, as computed or as somebody claims it. -/
structure Checksum where
  text : String
  deriving DecidableEq, Repr

namespace Checksum

/-- Two hexadecimal digits for each byte. -/
def hex (bytes : List UInt8) : List Char :=
  bytes.flatMap fun b => [Text.hexDigit (b.toNat / 16), Text.hexDigit (b.toNat % 16)]

/-- The fingerprint of a sequence of bytes. -/
def ofBytes (bytes : ByteArray) : Checksum :=
  ⟨String.ofList (hex (Sha256.hash bytes.toList))⟩

/-- The fingerprint of a text in its UTF-8 form. -/
def ofText (content : String) : Checksum :=
  ofBytes content.toUTF8

/-- The checksum is the fingerprint of the content. -/
def verifies (c : Checksum) (content : String) : Bool :=
  c == ofText content

end Checksum

end SchemaLedger
