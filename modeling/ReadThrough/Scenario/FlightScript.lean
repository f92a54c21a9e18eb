import ReadThrough.Flight
import ReadThrough.Scenario.Run
import ReadThrough.Table

/-!
# Scripts over flights

A script polls and lands flights by name. A flight starts when it is first named.
-/

namespace ReadThrough.Scenario

inductive FlightStep where
  | poll (flight waker : String)
  | land (flight : String) (landing : Landing String)

inductive FlightAnswer where
  | nothing
  | pending
  | landed (landing : Landing String)

/-- The answer of a step and the wakers it fires. -/
structure FlightReport where
  answer : FlightAnswer
  woken : List String

abbrev FlightRun := Table String (Flight String String)

namespace FlightRun

def step (s : FlightRun) : FlightStep → FlightReport × FlightRun
  | .poll name waker =>
    let (landing, f) := (s.getD name .started).poll waker
    let answer := match landing with
      | none => .pending
      | some l => .landed l
    (⟨answer, []⟩, s.put name f)
  | .land name landing =>
    let (woken, f) := (s.getD name .started).land landing
    (⟨.nothing, woken⟩, s.put name f)

def run (steps : List FlightStep) : List FlightReport := (runSteps step Table.empty steps).1

end FlightRun

end ReadThrough.Scenario
