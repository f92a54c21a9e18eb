/-!
# Loads in flight

A flight is one load of a key, shared by the caller that runs it and by all who wait
for it. It lands once. Until then it keeps the wakers of its waiters, each once and
in the order in which they first came; the landing hands them out to be fired.
-/

namespace ReadThrough

/-- How a flight ended: with a value that has been stored, with a failure that all waiters see, or
given up by the caller who ran the load, so that a waiter has to take over. -/
inductive Landing (ε : Type) where
  | loaded
  | failed (error : ε)
  | abandoned
  deriving DecidableEq

/-- A load in progress, or one that has ended. -/
structure Flight (ε : Type) (ω : Type) where
  landing : Option (Landing ε)
  waiting : List ω
  deriving DecidableEq

namespace Flight

variable {ε ω : Type}

def started : Flight ε ω := ⟨none, []⟩

instance : Inhabited (Flight ε ω) := ⟨started⟩

def hasLanded (f : Flight ε ω) : Bool := f.landing.isSome

/-- Ask for the landing, leaving a waker behind while there is none. -/
def poll [DecidableEq ω] (f : Flight ε ω) (waker : ω) : Option (Landing ε) × Flight ε ω :=
  match f.landing with
  | some landing => (some landing, f)
  | none =>
    if waker ∈ f.waiting then (none, f)
    else (none, { f with waiting := f.waiting ++ [waker] })

/-- Land, and hand out the wakers to fire. Only the first landing counts. -/
def land (f : Flight ε ω) (landing : Landing ε) : List ω × Flight ε ω :=
  match f.landing with
  | some _ => ([], f)
  | none => (f.waiting, ⟨some landing, []⟩)

end Flight

end ReadThrough
