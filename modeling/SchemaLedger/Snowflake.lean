import SchemaLedger.Registry
import SchemaLedger.Word

/-!
Sources of ids.

* `Snowflake.draw` makes an id of 64 bits from a count of milliseconds, the number of the
  registry that draws it and a number within the millisecond. The count never goes back: while
  the clock stands still or runs backwards the numbers go on, and once they are used up the
  next millisecond is borrowed.
* `Counter.draw` counts from 1.
-/

namespace SchemaLedger

/-- A source of ids that are unique among registries with different node numbers. -/
structure Snowflake where
  node : Nat
  /-- The millisecond of the latest id, counted from `Snowflake.epoch`. -/
  lastMilli : Nat := 0
  /-- The number of the latest id within its millisecond. -/
  sequence : Nat := 0
  deriving DecidableEq, Repr

namespace Snowflake

/-- The first millisecond counted, in milliseconds since 1970. -/
def epoch : Nat := 1600000000000

/-- The bits of the node number. -/
def nodeBits : Nat := 10

/-- The bits of the number within a millisecond. -/
def sequenceBits : Nat := 12

/-- The source of a node, unless its number has too many bits. -/
def ofNode (node : Nat) : Except Failure Snowflake :=
  if maxNodeId < node then .error (.nodeIdTooLarge node maxNodeId) else .ok { node := node }

/-- The milliseconds since the epoch; none before it. -/
def sinceEpoch (unixMillis : Int) : Nat :=
  unixMillis.toNat - epoch

/-- The millisecond and number of the next id. -/
def advance (s : Snowflake) (unixMillis : Int) : Snowflake :=
  let now := sinceEpoch unixMillis
  if s.lastMilli < now then { s with lastMilli := now, sequence := 0 }
  else
    let sequence := (s.sequence + 1) % Word.limit sequenceBits
    if sequence = 0 then { s with lastMilli := s.lastMilli + 1, sequence := 0 }
    else { s with sequence := sequence }

/-- The latest id: milliseconds, node and number next to each other. -/
def current (s : Snowflake) : UInt64 :=
  UInt64.ofNat (s.lastMilli <<< (nodeBits + sequenceBits) ||| s.node <<< sequenceBits ||| s.sequence)

/-- The next id at the given time of the clock, and the source after it. -/
def draw (s : Snowflake) (unixMillis : Int) : UInt64 × Snowflake :=
  let s := s.advance unixMillis
  (s.current, s)

end Snowflake

/-- A source of ids that counts. -/
structure Counter where
  last : UInt64 := 0
  deriving DecidableEq, Repr

/-- The next number, and the source after it. -/
def Counter.draw (c : Counter) : UInt64 × Counter :=
  (c.last + 1, ⟨c.last + 1⟩)

end SchemaLedger
