import ReadThrough.Freshness
import ReadThrough.Lease.Word

/-!
# Stored entries

An entry holds what the source answered for a key, possibly that there is nothing,
together with its life span. Only its access time and its lease ever change. Its expiry
is a point in time, so a value that comes too late for one cannot be stored.
-/

namespace ReadThrough

/-- What can be done to an entry once it has been made. -/
inductive EntryEvent where
  | schedule (t : Token)
  | start (t : Token)
  | release (t : Token)
  | touch (now : Instant)

/-- A loaded value with its times and its lease. The latest access is kept in nanoseconds from the
creation. -/
structure Entry (ν : Type) where
  value : Option ν
  created : Instant
  expires : Instant
  accessOffset : Nat
  lease : LeaseWord

namespace Entry

variable {ν : Type}

/-- Access offsets are kept in 64 bits and stay at the top once they reach it. -/
def maxOffset : Nat := UInt64.size - 1

/-- An entry that is created now, has not been read, and is idle. There is none whose expiry
would be no point in time. -/
def fresh? (value : Option ν) (created : Instant) (timeToLive : Span) : Option (Entry ν) :=
  (Instant.after? created timeToLive.toNanos).map fun expires =>
    { value := value
      created := created
      expires := expires
      accessOffset := 0
      lease := .idle }

theorem fresh?_eq_some_iff {value : Option ν} {created : Instant} {timeToLive : Span}
    {e : Entry ν} :
    fresh? value created timeToLive = some e ↔
      isRepresentable e.expires = true ∧
        e = ⟨value, created, created + timeToLive.toNanos, 0, .idle⟩ := by
  simp only [fresh?, Option.map_eq_some_iff, Instant.after?_eq_some_iff]
  constructor
  · rintro ⟨t, ⟨ht, rfl⟩, rfl⟩
    exact ⟨ht, rfl⟩
  · rintro ⟨ht, rfl⟩
    exact ⟨_, ⟨ht, rfl⟩, rfl⟩

def hasExpired (e : Entry ν) (now : Instant) : Bool := decide (e.expires ≤ now)

def accessTime (e : Entry ν) : Instant := e.created + e.accessOffset

/-- Record an access; the access time never moves back. -/
def recordAccess (e : Entry ν) (now : Instant) : Entry ν :=
  { e with accessOffset := max e.accessOffset (min (now - e.created) maxOffset) }

def lifetime (e : Entry ν) : Lifetime := ⟨e.accessTime, e.created, e.expires⟩

def stage (e : Entry ν) : Stage := e.lease.stage

def withLease (e : Entry ν) (w : LeaseWord) : Entry ν := { e with lease := w }

/-- The entry after an event. A lease that cannot be taken or started stays as it is. -/
def perform (e : Entry ν) : EntryEvent → Entry ν
  | .schedule t => e.withLease ((e.lease.schedule t).getD e.lease)
  | .start t => e.withLease ((e.lease.start t).getD e.lease)
  | .release t => e.withLease (e.lease.release t)
  | .touch now => e.recordAccess now

def answer? (e : Entry ν) : EntryEvent → Option Bool
  | .schedule t => some (e.lease.schedule t).isSome
  | .start t => some (e.lease.start t).isSome
  | .release _ => none
  | .touch _ => none

end Entry

end ReadThrough
