/-!
# Delivering a change

A change is delivered to one subscriber after the other. A subscriber that refuses it
or crashes over it does not keep the rest from hearing of it; only those that accept it
are counted.
-/

namespace ReadThrough

/-- How a subscriber takes a change. -/
inductive Verdict where
  | accepted
  | refused (error : String)
  | crashed
  deriving DecidableEq

variable {σ ρ : Type}

/-- Tell each subscriber in turn, threading the state that they share. -/
def deliver (tell : σ → ρ → Verdict × σ) : List ρ → σ → List (ρ × Verdict) × σ
  | [], s => ([], s)
  | x :: xs, s =>
    let (verdict, s) := tell s x
    let (rest, s) := deliver tell xs s
    ((x, verdict) :: rest, s)

def accepted (verdicts : List (ρ × Verdict)) : Nat :=
  verdicts.countP fun v => decide (v.2 = .accepted)

theorem snd_deliver (tell : σ → ρ → Verdict × σ) (xs : List ρ) (s : σ) :
    (deliver tell xs s).2 = xs.foldl (fun s x => (tell s x).2) s := by
  induction xs generalizing s with
  | nil => rfl
  | cons x xs ih => exact ih (tell s x).2

end ReadThrough
