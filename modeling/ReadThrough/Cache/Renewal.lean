import ReadThrough.Cache.Basic

/-!
# Background renewals

A renewal runs when the executor gets to it. It starts its load only if its entry is
still stored, and puts the answer in place only if the entry is stored then too. Ending
in any way gives the lease of the entry back.
-/

namespace ReadThrough.Cache

/-- How a renewal ended. Its entry may be gone by the time that it starts (`stale`) or that an
answer comes (`superseded`, `alreadyGone`), and the new entry may expire beyond the last point in
time. -/
inductive RenewalEnd (ν ε : Type) where
  | stale
  | renewed (fresh : Ref (Entry ν))
  | superseded
  | removed
  | alreadyGone
  | failed (error : ε)
  | crashed (text : String)
  | expiryOverflow
  deriving DecidableEq

/-- What running a renewal has done. It has to go on unless it has ended. -/
structure RenewalRun (ι κ ν ε ω : Type) where
  cache : Cache ι κ ν ε ω
  ended : Option (RenewalEnd ν ε)
  notices : List (Notice ε)
  asked : Bool
  ran : Bool

variable {ι κ ν ε ω : Type} [DecidableEq κ]

/-- Forget a renewal that has ended and give its lease back. -/
def closeRenewal (c : Cache ι κ ν ε ω) (id : Nat) (r : Renewal κ ν) : Cache ι κ ν ε ω :=
  { c.releaseLease r.entry r.token with renewals := c.renewals.erase id }

def countRenewal (tally : Tally) : RenewalEnd ν ε → Tally
  | .renewed _ => { tally with renewalsCompleted := tally.renewalsCompleted + 1 }
  | .removed => { tally with renewalEvictions := tally.renewalEvictions + 1 }
  | .failed _ => { tally with renewalFailures := tally.renewalFailures + 1 }
  | _ => tally

def RenewalEnd.notices : RenewalEnd ν ε → List (Notice ε)
  | .stale => [.staleRenewal]
  | .renewed _ => [.renewed]
  | .superseded => [.renewalSuperseded]
  | .removed => [.renewedToNothing]
  | .alreadyGone => []
  | .failed e => [.renewalFailed e]
  | .crashed _ => []
  | .expiryOverflow => []

/-- End a renewal: count it, give the lease back, and report it. -/
def endRenewal (c : Cache ι κ ν ε ω) (id : Nat) (r : Renewal κ ν) (e : RenewalEnd ν ε) :
    Cache ι κ ν ε ω :=
  { c with tally := countRenewal c.tally e }.closeRenewal id r

/-- Apply the answer of the source to the entry that was to be renewed. -/
def applyAnswer (c : Cache ι κ ν ε ω) (r : Renewal κ ν) (value : Option ν) (now : Instant) :
    RenewalEnd ν ε × List κ × Cache ι κ ν ε ω :=
  match value with
  | some v =>
    match c.store.swapIfSame r.key r.entry (some v) now with
    | .ok stored => (.renewed stored.entry, stored.evicted, c.withStore stored.store)
    | .error .superseded => (.superseded, [], c)
    | .error .expiryOverflow => (.expiryOverflow, [], c)
  | none =>
    let (removed, store) := c.store.removeIfSame r.key r.entry
    if removed then (.removed, [], c.withStore store) else (.alreadyGone, [], c)

def runStarted (c : Cache ι κ ν ε ω) (id : Nat) (r : Renewal κ ν) (asked : Bool)
    (now : Instant) (reply : Reply ν ε) : RenewalRun ι κ ν ε ω :=
  let finish (c : Cache ι κ ν ε ω) (e : RenewalEnd ν ε) (evicted : List κ) :
      RenewalRun ι κ ν ε ω :=
    { cache := c.endRenewal id r e
      ended := some e
      notices := (evicted.map fun _ => .evictedOverCapacity) ++ e.notices
      asked := asked
      ran := true }
  match reply with
  | .pending =>
    { cache := { c with renewals := c.renewals.put id { r with running := true } }
      ended := none
      notices := []
      asked := asked
      ran := true }
  | .answered elapsed value =>
    let (e, evicted, c) := c.applyAnswer r value (now + elapsed)
    finish c e evicted
  | .failed _ error => finish c (.failed error) []
  | .crashed _ text => finish c (.crashed text) []

/-- The cache with the renewal's lease started, if its entry is still stored and the
lease is its own. -/
def startLease (c : Cache ι κ ν ε ω) (r : Renewal κ ν) : Option (Cache ι κ ν ε ω) :=
  if c.store.holds r.key r.entry then
    ((c.store.entryAt? r.entry).bind (·.lease.start r.token)).map (c.setLease r.entry)
  else none

def runRenewal (c : Cache ι κ ν ε ω) (id : Nat) (now : Instant) (reply : Reply ν ε) :
    Option (RenewalRun ι κ ν ε ω) :=
  (c.renewals.get? id).map fun r =>
    if r.running then c.runStarted id r false now reply
    else
      match c.startLease r with
      | some c => c.runStarted id r true now reply
      | none =>
        { cache := c.endRenewal id r .stale
          ended := some .stale
          notices := RenewalEnd.notices (.stale : RenewalEnd ν ε)
          asked := false
          ran := false }

end ReadThrough.Cache
