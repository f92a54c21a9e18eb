import ReadThrough.Store.Capacity

/-!
# Calls for a key

A call looks its key up, waits for the flight that somebody else leads, or leads a
flight of its own by running the source. It makes progress only when it is polled. A
poll goes through phases until it can answer or has to wait; between looking up,
waiting and loading it never needs more than three passes.

What the source does is an argument of each poll, and time is too, so that nothing
here depends on how a source or a clock comes about.
-/

namespace ReadThrough

/-- What running a load once comes to, and how much time it takes. -/
inductive Reply (ν ε : Type) where
  | pending
  | answered (elapsed : Nat) (value : Option ν)
  | failed (elapsed : Nat) (error : ε)
  | crashed (elapsed : Nat) (text : String)
  deriving DecidableEq

def Reply.elapsed {ν ε : Type} : Reply ν ε → Nat
  | .pending => 0
  | .answered d _ => d
  | .failed d _ => d
  | .crashed d _ => d

/-- How the source behaves during one poll: the text it crashes with when a load is asked of it, if
it does, and what the load does when it is run. -/
structure Source (ν ε : Type) where
  refusal : Option String
  reply : Reply ν ε
  deriving DecidableEq

/-- How far a call has come. An armed call has not yet asked the source for a load. -/
inductive Phase (ε ω : Type) where
  | lookup (armed : Bool)
  | waiting (armed : Bool) (flight : Ref (Flight ε ω))
  | loading (flight : Ref (Flight ε ω))
  | finished
  deriving DecidableEq

/-- A caller's request for a key. -/
structure Call (κ ε ω : Type) where
  key : κ
  phase : Phase ε ω
  deriving DecidableEq

def Call.start {κ ε ω : Type} (key : κ) : Call κ ε ω := ⟨key, .lookup true⟩

/-- How a poll ends. A call is `exhausted` that has returned the result of a load before, and
`unarmed` if it would have to load but has asked the source before. -/
inductive Outcome (ν ε ω : Type) where
  | pending
  | hit (entry : Ref (Entry ν))
  | loaded (entry : Ref (Entry ν))
  | loadFailed (flight : Ref (Flight ε ω)) (error : ε)
  | sharedFailure (flight : Ref (Flight ε ω)) (error : ε)
  | crashed (text : String)
  | expiryOverflow
  | exhausted
  | unarmed
  deriving DecidableEq

namespace Outcome

variable {ν ε ω : Type}

def isCrash : Outcome ν ε ω → Bool
  | .crashed _ => true
  | .expiryOverflow => true
  | .exhausted => true
  | .unarmed => true
  | _ => false

/-- The entry that a call resolves to. -/
def resolved? : Outcome ν ε ω → Option (Ref (Entry ν))
  | .hit r => some r
  | .loaded r => some r
  | _ => none

end Outcome

/-- What polling a call has done so far. Without an outcome it has to go on. Wakers and evicted keys
are in order. -/
structure Progress (κ ν ε ω : Type) where
  store : Store κ ν ε ω
  call : Call κ ε ω
  outcome : Option (Outcome ν ε ω) := none
  woken : List ω := []
  evicted : List κ := []
  asked : Bool := false
  ran : Bool := false

namespace Store

variable {κ ν ε ω : Type} [DecidableEq κ] [DecidableEq ω]

/-- Look the key up: answer with a live entry, join the flight registered for the key,
or register one and ask the source for a load. -/
def lookUp (s : Store κ ν ε ω) (k : κ) (armed : Bool) (now : Instant) (source : Source ν ε) :
    Progress κ ν ε ω :=
  match s.live? k now with
  | some r =>
    { store := s.modifyEntry r (·.recordAccess now)
      call := ⟨k, .lookup armed⟩
      outcome := some (.hit r) }
  | none =>
    match s.flight? k with
    | some f => { store := s, call := ⟨k, .waiting armed f⟩ }
    | none =>
      let (f, s) := s.register k
      if armed then
        match source.refusal with
        | none => { store := s, call := ⟨k, .loading f⟩, asked := true }
        | some text =>
          { store := s, call := ⟨k, .lookup false⟩, outcome := some (.crashed text), asked := true }
      else { store := s, call := ⟨k, .lookup false⟩, outcome := some .unarmed }

/-- Wait for a flight: share its failure, or look up again once it has landed. -/
def await (s : Store κ ν ε ω) (k : κ) (armed : Bool) (f : Ref (Flight ε ω)) (waker : ω) :
    Progress κ ν ε ω :=
  let (landing, flight) := (s.flight f).poll waker
  let s := { s with flights := s.flights.modify f fun _ => flight }
  match landing with
  | none => { store := s, call := ⟨k, .waiting armed f⟩, outcome := some .pending }
  | some (.failed e) =>
    { store := s, call := ⟨k, .finished⟩, outcome := some (.sharedFailure f e) }
  | some .loaded => { store := s, call := ⟨k, .lookup armed⟩ }
  | some .abandoned => { store := s, call := ⟨k, .lookup armed⟩ }

/-- Store what the source answered, take the flight off the register, land it, and make
room: in this order, so that no caller can miss both the entry and the flight. If no entry
can be made nothing has changed, and the call goes on leading the flight until it is given
up. -/
def landValue (s : Store κ ν ε ω) (k : κ) (f : Ref (Flight ε ω)) (value : Option ν)
    (now : Instant) : Progress κ ν ε ω :=
  match Entry.fresh? value now s.timeToLive with
  | none =>
    { store := s, call := ⟨k, .loading f⟩, outcome := some .expiryOverflow, ran := true }
  | some e =>
    let (r, s) := s.addEntry e
    let (woken, s) := ((s.setSlot k r).retire k f).land f .loaded
    let (evicted, s) := s.recordDeadline k e.expires now
    { store := s, call := ⟨k, .finished⟩, outcome := some (.loaded r),
      woken := woken, evicted := evicted, ran := true }

/-- End a flight without a value. -/
def concludeFlight (s : Store κ ν ε ω) (k : κ) (f : Ref (Flight ε ω)) (landing : Landing ε) :
    List ω × Store κ ν ε ω :=
  (s.retire k f).land f landing

def runLoad (s : Store κ ν ε ω) (k : κ) (f : Ref (Flight ε ω)) (now : Instant)
    (reply : Reply ν ε) : Progress κ ν ε ω :=
  match reply with
  | .pending => { store := s, call := ⟨k, .loading f⟩, outcome := some .pending, ran := true }
  | .answered elapsed value => s.landValue k f value (now + elapsed)
  | .failed _ e =>
    let (woken, s) := s.concludeFlight k f (.failed e)
    { store := s, call := ⟨k, .finished⟩, outcome := some (.loadFailed f e),
      woken := woken, ran := true }
  | .crashed _ text =>
    { store := s, call := ⟨k, .loading f⟩, outcome := some (.crashed text), ran := true }

/-- One pass of a poll, by the phase of the call. -/
def pass (s : Store κ ν ε ω) (c : Call κ ε ω) (now : Instant) (waker : ω)
    (source : Source ν ε) : Progress κ ν ε ω :=
  match c.phase with
  | .lookup armed => s.lookUp c.key armed now source
  | .waiting armed f => s.await c.key armed f waker
  | .loading f => s.runLoad c.key f now source.reply
  | .finished => { store := s, call := c, outcome := some .exhausted }

/-- Make passes until there is an outcome, at most `bound` of them. -/
def passes (bound : Nat) (s : Store κ ν ε ω) (c : Call κ ε ω) (now : Instant) (waker : ω)
    (source : Source ν ε) : Progress κ ν ε ω :=
  match bound with
  | 0 => { store := s, call := c }
  | bound + 1 =>
    let p := s.pass c now waker source
    match p.outcome with
    | some _ => p
    | none =>
      let q := passes bound p.store p.call now waker source
      { q with
        woken := p.woken ++ q.woken
        evicted := p.evicted ++ q.evicted
        asked := p.asked || q.asked
        ran := p.ran || q.ran }

/-- The passes that a poll may take: waiting, looking up, and loading. -/
def passBound : Nat := 3

def poll (s : Store κ ν ε ω) (c : Call κ ε ω) (now : Instant) (waker : ω)
    (source : Source ν ε) : Progress κ ν ε ω :=
  s.passes passBound c now waker source

/-- Give a call up. The flight of a call that is loading is abandoned, and those who wait
for it are woken to take over. -/
def abandon (s : Store κ ν ε ω) (c : Call κ ε ω) : List ω × Store κ ν ε ω :=
  match c.phase with
  | .loading f => s.concludeFlight c.key f .abandoned
  | _ => ([], s)

end Store

end ReadThrough
