import ReadThrough.Span
import ReadThrough.Table

/-!
# Named settings

A catalogue knows the settings of each cache by its name. Settings are checked when
they are asked for: nothing is ever built from settings that the check refuses.
-/

namespace ReadThrough

/-- What is configured about one cache. -/
structure Settings where
  timeToLive : Span
  maxEntries : Option UInt64
  shards : Option UInt64
  deriving DecidableEq

/-- Why no cache can be set up under a name. -/
inductive SetupError where
  | unknownCache (name : String)
  | zeroTimeToLive (name : String)
  | timeToLiveTooLarge (name : String)
  | zeroCapacity (name : String)
  | zeroShards (name : String)
  | noExecutor
  deriving DecidableEq

namespace SetupError

def message : SetupError → String
  | .unknownCache name => "no cache named '" ++ name ++ "' is configured"
  | .zeroTimeToLive name => "cache '" ++ name ++ "': time to live must be greater than zero"
  | .timeToLiveTooLarge name =>
    "cache '" ++ name ++ "': time to live is too large to compute an expiry from"
  | .zeroCapacity name => "cache '" ++ name ++ "': max entries must be greater than zero"
  | .zeroShards name => "cache '" ++ name ++ "': shard count must be greater than zero"
  | .noExecutor => "no tokio runtime available to run background refreshes"

end SetupError

namespace Settings

/-- Five minutes to live, without a bound and with the usual number of shards. -/
def usual : Settings := ⟨Span.ofSeconds 300, none, none⟩

/-- Accept settings from which entries that expire after their creation can be stored. -/
def check (s : Settings) (name : String) (now : Instant) : Except SetupError Unit :=
  if s.timeToLive.isZero then .error (.zeroTimeToLive name)
  else if !isRepresentable (now + s.timeToLive.toNanos) then .error (.timeToLiveTooLarge name)
  else if s.maxEntries = some 0 then .error (.zeroCapacity name)
  else if s.shards = some 0 then .error (.zeroShards name)
  else .ok ()

end Settings

abbrev Catalogue := Table String Settings

namespace Catalogue

/-- Register caches in order; the last settings given for a name count. -/
def ofList (caches : List (String × Settings)) : Catalogue :=
  caches.foldl (fun t c => t.put c.1 c.2) Table.empty

/-- The names in ascending order of their code points. -/
def names (t : Catalogue) : List String := t.keys.mergeSort fun a b => decide (a ≤ b)

/-- The settings of a cache, once they have passed the check. -/
def settings (t : Catalogue) (name : String) (now : Instant) : Except SetupError Settings :=
  match t.get? name with
  | none => .error (.unknownCache name)
  | some s => (s.check name now).map fun _ => s

end Catalogue

end ReadThrough
