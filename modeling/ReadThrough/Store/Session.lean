import ReadThrough.Store.Call

/-!
# A store and its callers

A session is a store together with the calls that are under way on it, each under a
name. A call that ends in a crash is dropped on the spot; any other call stays until
it is dropped, and may be polled again after it has answered.
-/

namespace ReadThrough

/-- A store with the calls under way on it. -/
structure Session (ι κ ν ε ω : Type) where
  store : Store κ ν ε ω
  calls : Table ι (Call κ ε ω)

/-- What a poll has shown to the outside. -/
structure PollReport (κ ν ε ω : Type) where
  outcome : Option (Outcome ν ε ω)
  woken : List ω
  evicted : List κ
  asked : Bool
  ran : Bool
  deriving DecidableEq

namespace Session

variable {ι κ ν ε ω : Type}

def ofStore (s : Store κ ν ε ω) : Session ι κ ν ε ω := ⟨s, .empty⟩

variable [DecidableEq ι] [DecidableEq κ] [DecidableEq ω]

def drop (s : Session ι κ ν ε ω) (id : ι) : List ω × Session ι κ ν ε ω :=
  match s.calls.get? id with
  | some c =>
    let (woken, store) := s.store.abandon c
    (woken, ⟨store, s.calls.erase id⟩)
  | none => ([], s)

def start (s : Session ι κ ν ε ω) (id : ι) (key : κ) : List ω × Session ι κ ν ε ω :=
  let (woken, s) := s.drop id
  (woken, { s with calls := s.calls.put id (.start key) })

/-- Poll a call and keep it under this name, whatever comes of that. -/
def pollKept (s : Session ι κ ν ε ω) (id : ι) (c : Call κ ε ω) (now : Instant) (waker : ω)
    (source : Source ν ε) : PollReport κ ν ε ω × Session ι κ ν ε ω :=
  let p := s.store.poll c now waker source
  ({ outcome := p.outcome, woken := p.woken, evicted := p.evicted,
     asked := p.asked, ran := p.ran }, ⟨p.store, s.calls.put id p.call⟩)

/-- Poll a call and keep it under this name, unless it crashes. -/
def pollCall (s : Session ι κ ν ε ω) (id : ι) (c : Call κ ε ω) (now : Instant) (waker : ω)
    (source : Source ν ε) : PollReport κ ν ε ω × Session ι κ ν ε ω :=
  let (report, s) := s.pollKept id c now waker source
  let (dropped, s) := if report.outcome.any (·.isCrash) then s.drop id else ([], s)
  ({ report with woken := report.woken ++ dropped }, s)

def poll (s : Session ι κ ν ε ω) (id : ι) (now : Instant) (waker : ω) (source : Source ν ε) :
    Option (PollReport κ ν ε ω × Session ι κ ν ε ω) :=
  (s.calls.get? id).map fun c => s.pollCall id c now waker source

def mapStore (s : Session ι κ ν ε ω) (f : Store κ ν ε ω → Store κ ν ε ω) :
    Session ι κ ν ε ω :=
  { s with store := f s.store }

/-- The call of this name is loading, so the next poll of it runs its load on. -/
def isLoading (s : Session ι κ ν ε ω) (id : ι) : Bool :=
  match (s.calls.get? id).map Call.phase with
  | some (.loading _) => true
  | _ => false

end Session

end ReadThrough
