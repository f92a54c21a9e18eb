import ReadThrough.LogRecord
import ReadThrough.Span.Text

/-!
# What a cache reports

A notice names one thing that happened inside a cache; `record` gives its wording.
-/

namespace ReadThrough

/-- Something that happened inside a cache. -/
inductive Notice (ε : Type) where
  | setUp (scope : String) (timeToLive : Span)
  | loadFailed (error : ε)
  | evictedOverCapacity
  | changeOfUncached
  | removedAfterChange
  | renewalInFlight
  | renewalScheduled
  | staleRenewal
  | renewed
  | renewalSuperseded
  | renewedToNothing
  | renewalFailed (error : ε)
  deriving DecidableEq

def Notice.record (cache : String) : Notice String → LogRecord
  | .setUp scope timeToLive =>
    ⟨.debug, "cache repository initialized",
      [("cache", cache), ("scope", scope), ("time_to_live", timeToLive.text)]⟩
  | .loadFailed e => ⟨.debug, "load failed", [("cache", cache), ("error", e)]⟩
  | .evictedOverCapacity => ⟨.trace, "evicting entry over capacity", []⟩
  | .changeOfUncached =>
    ⟨.trace, "change notification for an entry that is not cached", [("cache", cache)]⟩
  | .removedAfterChange =>
    ⟨.debug, "entry removed after change notification", [("cache", cache)]⟩
  | .renewalInFlight => ⟨.trace, "refresh already in flight", [("cache", cache)]⟩
  | .renewalScheduled => ⟨.trace, "refresh scheduled", [("cache", cache)]⟩
  | .staleRenewal => ⟨.trace, "dropping refresh for a stale entry", [("cache", cache)]⟩
  | .renewed => ⟨.debug, "entry refreshed", [("cache", cache)]⟩
  | .renewalSuperseded =>
    ⟨.trace, "entry changed while refreshing, dropping the result", [("cache", cache)]⟩
  | .renewedToNothing =>
    ⟨.debug, "entry evicted, source no longer has a value", [("cache", cache)]⟩
  | .renewalFailed e =>
    ⟨.warn, "background refresh failed, keeping the current value",
      [("cache", cache), ("error", e)]⟩

end ReadThrough
