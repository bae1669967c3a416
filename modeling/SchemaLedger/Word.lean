/-!
Sizes of numbers that are held in words of some bits.
-/

namespace SchemaLedger.Word

/-- What the numbers of so many bits are below. -/
abbrev limit (bits : Nat) : Nat :=
  Nat.pow 2 bits

end SchemaLedger.Word
