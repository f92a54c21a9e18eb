import ReadThrough.Cache.Notice
import ReadThrough.Store.Layout
import ReadThrough.Store.Session

/-!
# Read-through caches

A cache reads through its store: a call for a key that has no live entry loads it from
the source. Entries that are due are renewed in the background, each by at most one
renewal at a time. A renewal outstanding holds the lease of its entry from the moment
it is scheduled until it ends, however it ends.
-/

namespace ReadThrough

/-- How often a cache has done what. -/
structure Tally where
  gets : Nat := 0
  loads : Nat := 0
  loadFailures : Nat := 0
  renewalsScheduled : Nat := 0
  renewalsCompleted : Nat := 0
  renewalFailures : Nat := 0
  renewalEvictions : Nat := 0
  invalidations : Nat := 0
  deriving DecidableEq

/-- What a counter of 64 bits shows when it has counted `n`. -/
def wrapped (n : Nat) : Nat := n % UInt64.size

def Tally.shown (t : Tally) : Tally where
  gets := wrapped t.gets
  loads := wrapped t.loads
  loadFailures := wrapped t.loadFailures
  renewalsScheduled := wrapped t.renewalsScheduled
  renewalsCompleted := wrapped t.renewalsCompleted
  renewalFailures := wrapped t.renewalFailures
  renewalEvictions := wrapped t.renewalEvictions
  invalidations := wrapped t.invalidations

/-- A background renewal of one entry, which holds the entry's lease under a token. It is running
once it has started its load. -/
structure Renewal (κ ν : Type) where
  key : κ
  entry : Ref (Entry ν)
  token : Token
  running : Bool
  deriving DecidableEq

/-- What background renewals are run by. One that has stopped takes them and drops them. -/
inductive Executor where
  | missing
  | running
  | stopped
  deriving DecidableEq

/-- A cache of one kind of value, with the calls and the renewals under way. -/
structure Cache (ι κ ν ε ω : Type) where
  name : String
  scope : String
  session : Session ι κ ν ε ω
  policy : Policy
  tokens : TokenCounter
  executor : Executor
  tally : Tally
  renewals : Table Nat (Renewal κ ν)
  nextRenewal : Nat

/-- Why a cache cannot be set up: the settings are refused, or they pass their check and still no
store can be laid out for them. -/
inductive SetUpFailure where
  | refused (cause : SetupError)
  | unbuildable (cause : LayoutError)
  deriving DecidableEq

namespace Cache

variable {ι κ ν ε ω : Type}

/-- A cache over a store, with nothing under way. -/
def ofStore (name scope : String) (policy : Policy) (executor : Executor)
    (s : Store κ ν ε ω) : Cache ι κ ν ε ω where
  name := name
  scope := scope
  session := .ofStore s
  policy := policy
  tokens := .start
  executor := executor
  tally := {}
  renewals := .empty
  nextRenewal := 0

/-- Set up the cache configured under `name` for the values of one scope. -/
def setUp [Machine] (catalogue : Catalogue) (name scope : String) (policy : Policy)
    (executor : Executor) (hash : κ → UInt64) (keyBytes : Nat) (now : Instant) :
    Except SetUpFailure (Cache ι κ ν ε ω) :=
  match catalogue.settings name now with
  | .error e => .error (.refused e)
  | .ok settings =>
    if executor = .missing then .error (.refused .noExecutor)
    else
      match settings.request.layout now keyBytes with
      | .error e => .error (.unbuildable e)
      | .ok layout => .ok (.ofStore name scope policy executor (.ofLayout layout hash))

def store (c : Cache ι κ ν ε ω) : Store κ ν ε ω := c.session.store

def withStore (c : Cache ι κ ν ε ω) (s : Store κ ν ε ω) : Cache ι κ ν ε ω :=
  { c with session := { c.session with store := s } }

def setUpNotice (c : Cache ι κ ν ε ω) : Notice ε := .setUp c.scope c.store.timeToLive

/-- The policy's decision about an entry, now. -/
def decision (c : Cache ι κ ν ε ω) (r : Ref (Entry ν)) (now : Instant) : Decision :=
  match c.store.entryAt? r with
  | some e => c.policy.decides now e.lifetime
  | none => .keep

def setLease (c : Cache ι κ ν ε ω) (r : Ref (Entry ν)) (w : LeaseWord) : Cache ι κ ν ε ω :=
  c.withStore (c.store.modifyEntry r (·.withLease w))

/-- Give back the lease that `t` holds on an entry, if it does. -/
def releaseLease (c : Cache ι κ ν ε ω) (r : Ref (Entry ν)) (t : Token) : Cache ι κ ν ε ω :=
  c.withStore (c.store.modifyEntry r fun e => e.withLease (e.lease.release t))

/-- What trying to schedule a renewal, or hearing of a change, has done. A renewal counts as spawned
if the executor has taken it. -/
structure Scheduling (ι κ ν ε ω : Type) where
  cache : Cache ι κ ν ε ω
  notice : Notice ε
  spawned : Option Nat

/-- Schedule a renewal of an entry, unless one is under way. A token is spent on the
attempt in any case. A stopped executor drops the renewal at once, which gives the
lease back. -/
def schedule (c : Cache ι κ ν ε ω) (k : κ) (r : Ref (Entry ν)) : Scheduling ι κ ν ε ω :=
  let (token, tokens) := c.tokens.next
  let c := { c with tokens := tokens }
  match (c.store.entryAt? r).bind (·.lease.schedule token) with
  | none => ⟨c, .renewalInFlight, none⟩
  | some w =>
    let c := c.setLease r w
    let c := { c with
      tally := { c.tally with renewalsScheduled := c.tally.renewalsScheduled + 1 } }
    if c.executor = .running then
      let renewals := c.renewals.put c.nextRenewal ⟨k, r, token, false⟩
      ⟨{ c with renewals := renewals, nextRenewal := c.nextRenewal + 1 }, .renewalScheduled,
        some c.nextRenewal⟩
    else ⟨c.releaseLease r token, .renewalScheduled, none⟩

variable [DecidableEq κ]

/-- Drop the entry of a key; whether there was one, live or expired. -/
def discard (c : Cache ι κ ν ε ω) (k : κ) : Bool × Cache ι κ ν ε ω :=
  let (removed, store) := c.store.remove k
  (removed.isSome, c.withStore store)

def clear (c : Cache ι κ ν ε ω) : Cache ι κ ν ε ω := c.withStore c.store.clear

/-- How far the renewal of a key's live entry is. -/
def stage? (c : Cache ι κ ν ε ω) (k : κ) (now : Instant) : Option Stage :=
  ((c.store.live? k now).bind c.store.entryAt?).map (·.stage)

end Cache

end ReadThrough
