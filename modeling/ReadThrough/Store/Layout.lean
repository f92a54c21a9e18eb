import ReadThrough.Settings
import ReadThrough.Store.Basic

/-!
# Laying out a store

A request asks for a time to live and may ask for a number of shards, an estimated
size and a bound on the entries. The layout rounds the shards up to a power of two
and reserves room in each. All counts are 64-bit words. A count that does not fit a word
is a failure, and so is what does not fit the memory of the machine.
-/

namespace ReadThrough

/-- What a store is asked to be. -/
structure StoreRequest where
  timeToLive : Span
  shards : Option UInt64 := none
  estimatedSize : Option UInt64 := none
  maxEntries : Option UInt64 := none
  deriving DecidableEq

/-- Why no store can be laid out. -/
inductive LayoutError where
  | zeroTimeToLive
  | timeToLiveTooLarge
  | parallelismOverflow
  | shardCountOverflow
  | reservationOverflow
  | shardBlockOverflow
  | tableBlockOverflow
  deriving DecidableEq

def LayoutError.message : LayoutError → String
  | .zeroTimeToLive => "time to live must be greater than zero"
  | .timeToLiveTooLarge => "time to live is too large"
  | .parallelismOverflow => "attempt to multiply with overflow"
  | .shardCountOverflow => "attempt to add with overflow"
  | .reservationOverflow => "attempt to multiply with overflow"
  | .shardBlockOverflow => "capacity overflow"
  | .tableBlockOverflow => "Hash table capacity overflow"

/-- The measures of a store before it is built. -/
structure Layout where
  timeToLive : Span
  shardBits : Nat
  reservation : Nat
  capacity : Option Nat
  deriving DecidableEq

/-- The least exponent whose power of two is at least `n`. -/
def bitsToHold (n : Nat) : Nat := if n ≤ 1 then 0 else Nat.log2 (n - 1) + 1

/-- What stores are built on: so many threads, and memory that has room for so many shards in one
block, and for a table with room for `n` entries. -/
class Machine where
  parallelism : UInt64
  holdsShards (count : Nat) : Bool
  holdsTable (keyBytes n : Nat) : Bool

namespace StoreRequest

/-- Bound the entries; the bound is also the estimated size where none is given. -/
def withMaxEntries (r : StoreRequest) (n : UInt64) : StoreRequest :=
  { r with maxEntries := some n, estimatedSize := some (r.estimatedSize.getD n) }

variable [Machine]

/-- The shards that are asked for: four for each thread if nothing is said about them. -/
def wantedShards (r : StoreRequest) : Nat :=
  (r.shards.map UInt64.toNat).getD (Machine.parallelism.toNat * 4)

/-- The layout that a request comes to, for keys of this size. -/
def layout (r : StoreRequest) (now : Instant) (keyBytes : Nat) : Except LayoutError Layout :=
  if r.timeToLive.isZero then .error .zeroTimeToLive
  else if !isRepresentable (now + r.timeToLive.toNanos) then .error .timeToLiveTooLarge
  else
    let wanted := r.wantedShards
    let bits := bitsToHold wanted
    if UInt64.size ≤ wanted then .error .parallelismOverflow
    else if 64 ≤ bits then .error .shardCountOverflow
    else
      let estimated := (r.estimatedSize.getD 0).toNat
      let count := shardCount bits
      let reservation := if count < estimated then estimated / count * 2 else 0
      if UInt64.size ≤ reservation then .error .reservationOverflow
      else if !Machine.holdsShards count then .error .shardBlockOverflow
      else if !Machine.holdsTable keyBytes reservation then .error .tableBlockOverflow
      else .ok
        { timeToLive := r.timeToLive
          shardBits := bits
          reservation := reservation
          capacity := r.maxEntries.map UInt64.toNat }

end StoreRequest

/-- The store that settings ask for. -/
def Settings.request (s : Settings) : StoreRequest :=
  let r : StoreRequest := { timeToLive := s.timeToLive, shards := s.shards }
  match s.maxEntries with
  | some n => r.withMaxEntries n
  | none => r

/-- An empty store of these measures. -/
def Store.ofLayout {κ ν ε ω : Type} (l : Layout) (hash : κ → UInt64) : Store κ ν ε ω where
  hash := hash
  timeToLive := l.timeToLive
  capacity := l.capacity
  shardBits := l.shardBits
  shards := Vector.replicate _ .empty
  entries := .empty
  flights := .empty

theorem Store.shards_ofLayout {κ ν ε ω : Type} (l : Layout) (hash : κ → UInt64)
    (i : Fin (shardCount (Store.ofLayout l hash : Store κ ν ε ω).shardBits)) :
    (Store.ofLayout l hash : Store κ ν ε ω).shards.get i = .empty :=
  Vector.getElem_replicate _

theorem Store.shardOf_ofLayout {κ ν ε ω : Type} (l : Layout) (hash : κ → UInt64) (k : κ) :
    (Store.ofLayout l hash : Store κ ν ε ω).shardOf k = .empty :=
  Store.shards_ofLayout l hash _

end ReadThrough
