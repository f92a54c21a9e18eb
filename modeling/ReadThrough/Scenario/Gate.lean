import ReadThrough.Table

/-!
# Gates

A gate is a latch with a name, closed until it is opened once and for all. It keeps
those who wait for it, each once and in the order in which they came.
-/

namespace ReadThrough.Scenario

structure Gate (ω : Type) where
  isOpen : Bool
  waiting : List ω
  deriving DecidableEq

def Gate.closed {ω : Type} : Gate ω := ⟨false, []⟩

abbrev Gates (ω : Type) := Table String (Gate ω)

namespace Gates

variable {ω : Type}

def isOpen (g : Gates ω) (name : String) : Bool := (g.getD name .closed).isOpen

/-- Open a gate for good, and hand out those who waited for it. -/
def unlatch (g : Gates ω) (name : String) : List ω × Gates ω :=
  ((g.getD name .closed).waiting, g.put name ⟨true, []⟩)

def wait [DecidableEq ω] (g : Gates ω) (name : String) (who : ω) : Gates ω :=
  let gate := g.getD name .closed
  if who ∈ gate.waiting then g else g.put name { gate with waiting := gate.waiting ++ [who] }

end Gates

end ReadThrough.Scenario
