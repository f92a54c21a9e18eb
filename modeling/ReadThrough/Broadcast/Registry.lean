/-!
# Registered subscribers

A registry keeps subscribers in the order of their registration, as often as they were
registered, without keeping any of them alive. Whether a subscriber is still alive, and
which scope it listens to, is told by a function `scopeOf`, with `none` for the dead.
The dead stay in the list until a search for a scope comes across one; no answer about
the living depends on that.
-/

namespace ReadThrough

/-- Subscribers in order of registration, some of them possibly dead. -/
structure Registry (ρ : Type) where
  registered : List ρ
  deriving DecidableEq

namespace Registry

variable {ρ : Type}

def empty : Registry ρ := ⟨[]⟩

instance : Inhabited (Registry ρ) := ⟨empty⟩

def register (r : Registry ρ) (s : ρ) : Registry ρ := ⟨r.registered ++ [s]⟩

/-- The subscribers alive. -/
def living (r : Registry ρ) (scopeOf : ρ → Option String) : List ρ :=
  r.registered.filter fun s => (scopeOf s).isSome

def dropDead (r : Registry ρ) (scopeOf : ρ → Option String) : Registry ρ := ⟨r.living scopeOf⟩

/-- The living subscribers of a scope. If the search meets a dead one, all of them are
dropped from the registry. -/
def subscribersTo (r : Registry ρ) (scopeOf : ρ → Option String) (scope : String) :
    List ρ × Registry ρ :=
  let found := r.registered.filter fun s => decide (scopeOf s = some scope)
  if r.registered.any fun s => (scopeOf s).isNone then (found, r.dropDead scopeOf) else (found, r)

/-- The number of registrations of living subscribers. -/
def size (r : Registry ρ) (scopeOf : ρ → Option String) : Nat := (r.living scopeOf).length

def isEmpty (r : Registry ρ) (scopeOf : ρ → Option String) : Bool := r.size scopeOf == 0

/-- The scopes of the living, each once, in ascending order of their code points. -/
def livingScopes (r : Registry ρ) (scopeOf : ρ → Option String) : List String :=
  ((r.registered.filterMap scopeOf).mergeSort fun a b => decide (a ≤ b)).eraseReps

end Registry

end ReadThrough
