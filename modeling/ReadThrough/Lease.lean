import ReadThrough.Lease.Word

/-!
# The lease of an entry

What a lease word stands for: nobody holds the entry, or the holder of one token has
its renewal scheduled or running. Only an idle lease can be taken, and only by its
own token is a lease started or given back.
-/

namespace ReadThrough

/-- Who renews an entry, and how far they are. -/
inductive Lease where
  | idle
  | scheduled (token : Token)
  | running (token : Token)
  deriving DecidableEq

namespace Lease

def word : Lease → LeaseWord
  | .idle => .idle
  | .scheduled t => .pack t .scheduled
  | .running t => .pack t .running

def stage : Lease → Stage
  | .idle => .idle
  | .scheduled _ => .scheduled
  | .running _ => .running

def schedule (l : Lease) (t : Token) : Option Lease :=
  match l with
  | .idle => some (.scheduled t)
  | _ => none

def start (l : Lease) (t : Token) : Option Lease :=
  if l = .scheduled t then some (.running t) else none

def release (l : Lease) (t : Token) : Lease :=
  if l = .scheduled t ∨ l = .running t then .idle else l

end Lease

end ReadThrough
