import ReadThrough.Store.Layout

/-!
# The machine that scripts run on

Four threads, and blocks of memory of no more bytes than a signed word holds. The sizes of shards
and tables are those that have been measured; the rules of the theory hold on any machine.
-/

namespace ReadThrough.Scenario

def blockLimit : Nat := 0x7fffffffffffffff

def shardBytes : Nat := 216

def referenceBytes : Nat := 8

/-- The control bytes that are read together, and the alignment of a table. -/
def controlGroup : Nat := 16

/-- The buckets of a table with room for `n` entries: a power of two of which an eighth
stays free. -/
def bucketsFor (n : Nat) : Nat :=
  if n < 4 then 4 else if n < 8 then 8 else 1 <<< bitsToHold (n * 8 / 7)

/-- The bytes of a table with room for `n` entries. A bucket has a key, a reference and a
control byte, and the control bytes end in another group. -/
def tableBytes (keyBytes n : Nat) : Nat :=
  let buckets := bucketsFor n
  buckets * (keyBytes + referenceBytes) + buckets + controlGroup

-- A table has to fit a block together with the bytes that are lost to its alignment.
instance : Machine where
  parallelism := 4
  holdsShards count := decide (count * shardBytes ≤ blockLimit)
  holdsTable keyBytes n := decide (tableBytes keyBytes n + (controlGroup - 1) ≤ blockLimit)

end ReadThrough.Scenario
