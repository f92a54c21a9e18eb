/-!
# What scripts share

Names for calls, the wording of the crashes that no source asks for, and ranges of
integers.
-/

namespace ReadThrough.Scenario

/-- The name of a call: one given by the script, or one that lasts for a single poll. -/
inductive CallId where
  | named (name : String)
  | transient
  deriving DecidableEq

def exhaustedText : String := "GetOrLoad polled after completion"

def unarmedText : String := "init is none"

def timeOverflowText : String := "overflow when adding duration to instant"

/-- The integers from `first` up to, but not including, `stop`. -/
def integersFrom (first stop : Int) : List Int :=
  (List.range (stop - first).toNat).map fun (i : Nat) => first + (i : Int)

end ReadThrough.Scenario
