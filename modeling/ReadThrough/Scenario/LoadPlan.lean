import ReadThrough.Scenario.CallId
import ReadThrough.Scenario.Gate
import ReadThrough.Store.Call

/-!
# Planned loads

A plan says what the source does for one load: crash when it is asked, or else pass
some gates, take some time, and end in one of four ways. A load under way remembers
the gates it still has to pass.
-/

namespace ReadThrough.Scenario

/-- How a planned load ends. -/
inductive Ending where
  | crash (text : String)
  | fail (text : String)
  | value (v : Option String)
  | usual
  deriving DecidableEq

structure LoadPlan where
  refusal : Option String := none
  gates : List String := []
  takes : Nat := 0
  ending : Ending := .usual
  deriving DecidableEq

instance : Inhabited LoadPlan := ⟨{}⟩

def usualValue (key : String) (number : Nat) : String := key ++ "#" ++ toString number

/-- A load under way. -/
structure PlannedLoad where
  gates : List String
  takes : Nat
  ending : Ending
  usual : String
  deriving DecidableEq

instance : Inhabited PlannedLoad := ⟨⟨[], 0, .usual, ""⟩⟩

def LoadPlan.begin (p : LoadPlan) (key : String) (number : Nat) : PlannedLoad :=
  ⟨p.gates, p.takes, p.ending, usualValue key number⟩

namespace PlannedLoad

/-- What the load comes to once it has passed its gates. One that would last beyond the
last point in time crashes before it has taken any. -/
def finish (l : PlannedLoad) (now : Instant) : Reply String String :=
  match Instant.after? now l.takes with
  | none => .crashed 0 timeOverflowText
  | some _ =>
    match l.ending with
    | .crash text => .crashed l.takes text
    | .fail text => .failed l.takes text
    | .value v => .answered l.takes v
    | .usual => .answered l.takes (some l.usual)

/-- Run a load: pass the gates that are open, wait at the first that is not. -/
def run {ω : Type} [DecidableEq ω] (l : PlannedLoad) (gates : Gates ω) (now : Instant)
    (who : ω) : Reply String String × PlannedLoad × Gates ω :=
  match l.gates.dropWhile fun g => gates.isOpen g with
  | [] => (l.finish now, { l with gates := [] }, gates)
  | g :: rest => (.pending, { l with gates := g :: rest }, gates.wait g who)

end PlannedLoad

end ReadThrough.Scenario
