import ReadThrough.Cache.Basic

/-!
# Reading through a cache

A get is a call on the cache's store that loads from the source. Once it resolves to an
entry that is due, a renewal of that entry is scheduled and the entry's value is
answered all the same. If the policy cannot decide about the entry, the get crashes, and
the entry stays. A get that is no longer pending is over.
-/

namespace ReadThrough.Cache

/-- What polling a get has done. It is undecided if it has crashed because the policy could not
decide about its entry. -/
structure Served (ι κ ν ε ω : Type) where
  cache : Cache ι κ ν ε ω
  outcome : Option (Outcome ν ε ω)
  undecided : Bool
  woken : List ω
  notices : List (Notice ε)
  spawned : Option Nat
  asked : Bool
  ran : Bool

variable {ι κ ν ε ω : Type} [DecidableEq ι] [DecidableEq κ] [DecidableEq ω]

def countLoad (tally : Tally) (report : PollReport κ ν ε ω) : Tally :=
  let tally := if report.asked then { tally with loads := tally.loads + 1 } else tally
  match report.outcome with
  | some (.loadFailed _ _) => { tally with loadFailures := tally.loadFailures + 1 }
  | _ => tally

def noticesOf (report : PollReport κ ν ε ω) : List (Notice ε) :=
  let failure := match report.outcome with
    | some (.loadFailed _ e) => [.loadFailed e]
    | _ => []
  failure ++ report.evicted.map fun _ => .evictedOverCapacity

def dropCall (c : Cache ι κ ν ε ω) (id : ι) : List ω × Cache ι κ ν ε ω :=
  let (woken, session) := c.session.drop id
  (woken, { c with session := session })

/-- A get has come to an end with this outcome of its poll. -/
def isOver : Option (Outcome ν ε ω) → Bool
  | none => false
  | some .pending => false
  | some _ => true

def endCall (c : Cache ι κ ν ε ω) (id : ι) (outcome : Option (Outcome ν ε ω)) :
    List ω × Cache ι κ ν ε ω :=
  if isOver outcome then c.dropCall id else ([], c)

/-- What looking after the entry that a get has resolved to has done. -/
structure Upkeep (ι κ ν ε ω : Type) where
  cache : Cache ι κ ν ε ω
  notices : List (Notice ε) := []
  spawned : Option Nat := none
  undecided : Bool := false

/-- Schedule a renewal of what a get has resolved to, if that is due. -/
def renewIfDue (c : Cache ι κ ν ε ω) (k : κ) (outcome : Option (Outcome ν ε ω))
    (now : Instant) : Upkeep ι κ ν ε ω :=
  match outcome.bind (·.resolved?) with
  | none => { cache := c }
  | some r =>
    match c.decision r now with
    | .keep => { cache := c }
    | .renew =>
      let s := c.schedule k r
      { cache := s.cache, notices := [s.notice], spawned := s.spawned }
    | .overflow => { cache := c, undecided := true }

/-- Poll a call of a get. The source is asked lazily, so that a crash of the source when
asked is one of the load itself. -/
def pollCall (c : Cache ι κ ν ε ω) (id : ι) (call : Call κ ε ω) (now : Instant) (waker : ω)
    (reply : Reply ν ε) : Served ι κ ν ε ω :=
  let (report, session) := c.session.pollCall id call now waker ⟨none, reply⟩
  let c := { c with session := session, tally := countLoad c.tally report }
  let later := if report.ran then now + reply.elapsed else now
  let upkeep := c.renewIfDue call.key report.outcome later
  let (woken, c) := upkeep.cache.endCall id report.outcome
  { cache := c
    outcome := report.outcome
    undecided := upkeep.undecided
    woken := report.woken ++ woken
    notices := noticesOf report ++ upkeep.notices
    spawned := upkeep.spawned
    asked := report.asked
    ran := report.ran }

/-- Begin a get, in place of a former one of the same name, and poll it once. -/
def get (c : Cache ι κ ν ε ω) (id : ι) (k : κ) (now : Instant) (waker : ω)
    (reply : Reply ν ε) : Served ι κ ν ε ω :=
  let (woken, c) := c.dropCall id
  let c := { c with tally := { c.tally with gets := c.tally.gets + 1 } }
  let served := c.pollCall id (.start k) now waker reply
  { served with woken := woken ++ served.woken }

def poll (c : Cache ι κ ν ε ω) (id : ι) (now : Instant) (waker : ω) (reply : Reply ν ε) :
    Option (Served ι κ ν ε ω) :=
  (c.session.calls.get? id).map fun call => c.pollCall id call now waker reply

end ReadThrough.Cache
