/-!
# Scripted runs

A script is a list of steps. Running it threads a state through the steps and keeps
one report for each.
-/

namespace ReadThrough.Scenario

variable {σ α β : Type}

def runSteps (step : σ → α → β × σ) : σ → List α → List β × σ
  | s, [] => ([], s)
  | s, x :: xs =>
    let (report, s) := step s x
    let (reports, s) := runSteps step s xs
    (report :: reports, s)

end ReadThrough.Scenario
