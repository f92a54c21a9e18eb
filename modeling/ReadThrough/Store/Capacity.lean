import ReadThrough.Store.Basic

/-!
# Storing, pruning and eviction

Storing an entry records its deadline, then drops what has expired in the shard of
its key, then evicts while the store is over its capacity: each time the entry with
the nearest deadline of all shards.
-/

namespace ReadThrough

/-- An item with the least instant. A priority queue does not promise which one that is on a tie. It
is the first here, and nothing that is proved depends on it: see `earliest_spec`. -/
def earliest {α : Type} : List (α × Instant) → Option (α × Instant)
  | [] => none
  | x :: xs =>
    match earliest xs with
    | none => some x
    | some y => if x.2 ≤ y.2 then some x else some y

namespace Shard

variable {κ ν ε ω : Type} [DecidableEq κ]

/-- Drop each record whose deadline has come, and the entry behind it if that has
expired. -/
def prune (s : Shard κ ν ε ω) (entries : Arena (Entry ν)) (now : Instant) : Shard κ ν ε ω :=
  let due := s.deadlines.keep fun _ t => decide (t ≤ now)
  let isSpent (k : κ) (r : Ref (Entry ν)) : Bool :=
    due.contains k && (entries.get? r).any (·.hasExpired now)
  { s with
    slots := s.slots.keep fun k r => !isSpent k r
    deadlines := s.deadlines.keep fun _ t => decide (now < t) }

def nextToExpire (s : Shard κ ν ε ω) : Option (κ × Instant) := earliest s.deadlines.toList

end Shard

namespace Store

variable {κ ν ε ω : Type} [DecidableEq κ]

def deadlineCount (s : Store κ ν ε ω) : Nat :=
  s.shards.toList.foldr (fun sh n => sh.deadlines.size + n) 0

/-- A key that expires next, and its shard. On a tie between shards the first of them is taken. -/
def victim (s : Store κ ν ε ω) : Option (Fin (shardCount s.shardBits) × κ) :=
  let heads := (List.finRange (shardCount s.shardBits)).filterMap fun i =>
    (s.shards[i].nextToExpire).map fun head => ((i, head.1), head.2)
  (earliest heads).map Prod.fst

def evict (s : Store κ ν ε ω) : Option (κ × Store κ ν ε ω) :=
  match s.victim with
  | none => none
  | some (i, k) =>
    let sh := s.shards[i]
    some (k,
      { s with
        shards := s.shards.set i
          { sh with slots := sh.slots.erase k, deadlines := sh.deadlines.erase k } })

def isOverCapacity (s : Store κ ν ε ω) : Bool :=
  match s.capacity with
  | some m => decide (m < s.size)
  | none => false

/-- Evict while over capacity, at most `bound` times; the evicted keys in order. -/
def shrink : (bound : Nat) → Store κ ν ε ω → List κ × Store κ ν ε ω
  | 0, s => ([], s)
  | bound + 1, s =>
    if s.isOverCapacity then
      match s.evict with
      | some (k, s') =>
        let r := shrink bound s'
        (k :: r.1, r.2)
      | none => ([], s)
    else ([], s)

/-- Evict until the store fits its capacity. Every eviction takes one deadline off the record,
so their number bounds it. -/
def fit (s : Store κ ν ε ω) : List κ × Store κ ν ε ω := s.shrink s.deadlineCount

def setSlot (s : Store κ ν ε ω) (k : κ) (r : Ref (Entry ν)) : Store κ ν ε ω :=
  s.modifyShard k fun sh => { sh with slots := sh.slots.put k r }

/-- Record when the entry just stored for `k` expires, then make room. -/
def recordDeadline (s : Store κ ν ε ω) (k : κ) (expires now : Instant) : List κ × Store κ ν ε ω :=
  (s.modifyShard k fun sh =>
    { sh with deadlines := sh.deadlines.put k expires }.prune s.entries now).fit

/-- What storing a value has done. -/
structure Stored (κ ν ε ω : Type) where
  store : Store κ ν ε ω
  entry : Ref (Entry ν)
  evicted : List κ

def addEntry (s : Store κ ν ε ω) (e : Entry ν) : Ref (Entry ν) × Store κ ν ε ω :=
  (s.entries.next, { s with entries := s.entries.add e })

/-- Why an entry has not been swapped for a new one. -/
inductive SwapFailure where
  | expiryOverflow
  | superseded
  deriving DecidableEq

/-- Swap `current` for a new entry holding `value`, unless something else is stored
for `k` by now. The new entry is made in any case, so that one that cannot be made is
what fails. -/
def swapIfSame (s : Store κ ν ε ω) (k : κ) (current : Ref (Entry ν)) (value : Option ν)
    (now : Instant) : Except SwapFailure (Stored κ ν ε ω) :=
  match Entry.fresh? value now s.timeToLive with
  | none => .error .expiryOverflow
  | some e =>
    if s.holds k current then
      let (r, s) := s.addEntry e
      let (evicted, s) := (s.setSlot k r).recordDeadline k e.expires now
      .ok ⟨s, r, evicted⟩
    else .error .superseded

end Store

end ReadThrough
