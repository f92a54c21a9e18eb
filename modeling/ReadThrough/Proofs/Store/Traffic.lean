import ReadThrough.Proofs.Store.Frame
import ReadThrough.Proofs.Store.Pass

/-!
# What a pass does to the flights

Seen from the flights alone, a pass has six effects: it leaves them as they are, it leaves a waker
with one, it starts one that the call leads or one that nobody leads, or it lands the one that the
call leads. Giving a call up has no others. Whatever is to be shown of flights, of their wakers and
of those who lead them is shown of these effects.
-/

namespace ReadThrough

variable {κ ν ε ω : Type}

namespace Phase

/-- The flight that a call in this phase leads. -/
def led? : Phase ε ω → Option (Ref (Flight ε ω))
  | .loading f => some f
  | _ => none

/-- The flight that a call in this phase waits for. -/
def awaited? : Phase ε ω → Option (Ref (Flight ε ω))
  | .waiting _ f => some f
  | _ => none

/-- Whether a call in this phase has asked the source in vain, and cannot ask again. -/
def isSpent : Phase ε ω → Bool
  | .lookup armed => !armed
  | .waiting armed _ => !armed
  | _ => false

@[simp] theorem led?_eq_some_iff {p : Phase ε ω} {f : Ref (Flight ε ω)} :
    p.led? = some f ↔ p = .loading f := by
  cases p <;> simp [led?]

end Phase

namespace Store

variable [DecidableEq κ]

section Conclusion

variable (s : Store κ ν ε ω) (k : κ) (f : Ref (Flight ε ω)) (l : Landing ε)

theorem flights_retire : (s.retire k f).flights = s.flights := by
  unfold retire
  split <;> rfl

theorem entries_retire : (s.retire k f).entries = s.entries := by
  unfold retire
  split <;> rfl

theorem flight_retire (g : Ref (Flight ε ω)) : (s.retire k f).flight g = s.flight g := by
  rw [flight, flights_retire, flight]

theorem flight?_concludeFlight (j : κ) :
    (s.concludeFlight k f l).2.flight? j =
      if j = k then (s.flight? k).filter (fun g => decide (g ≠ f)) else s.flight? j :=
  flight?_retire s k j f

theorem flights_concludeFlight :
    (s.concludeFlight k f l).2.flights
      = s.flights.modify f fun _ => ((s.flight f).land l).2 := by
  have h : (s.concludeFlight k f l).2.flights
      = (s.retire k f).flights.modify f fun _ => (((s.retire k f).flight f).land l).2 := rfl
  rw [h, flights_retire, flight_retire]

theorem woken_concludeFlight : (s.concludeFlight k f l).1 = ((s.flight f).land l).1 := by
  rw [← flight_retire s k f f]
  rfl

theorem entries_concludeFlight : (s.concludeFlight k f l).2.entries = s.entries :=
  entries_retire s k f

variable {s} {s' : Store κ ν ε ω}

theorem SameFlights.concludeFlight (h : s.SameFlights s') :
    (s.concludeFlight k f l).2.SameFlights (s'.concludeFlight k f l).2 := by
  constructor
  · rw [flights_concludeFlight, flights_concludeFlight, h.flights_eq, h.flight_eq]
  · intro j
    rw [flight?_concludeFlight, flight?_concludeFlight, h.flight?_eq, h.flight?_eq]

theorem SameFlights.woken_concludeFlight (h : s.SameFlights s') :
    (s'.concludeFlight k f l).1 = (s.concludeFlight k f l).1 := by
  rw [Store.woken_concludeFlight, Store.woken_concludeFlight, h.flight_eq]

end Conclusion

theorem sameFlights_place (s : Store κ ν ε ω) (k : κ) (e : Entry ν) :
    s.SameFlights (s.place k e) :=
  (sameFlights_addEntry s e).trans (sameCells_setSlot _ k _).toSameFlights

/-- Apart from slots and deadlines, landing a value concludes the flight that has brought it. -/
theorem sameFlights_landed (s : Store κ ν ε ω) (k : κ) (f : Ref (Flight ε ω)) (e : Entry ν)
    (now : Instant) :
    (s.concludeFlight k f .loaded).2.SameFlights
      ((s.placeAndLand k f e).2.recordDeadline k e.expires now).2 :=
  ((sameFlights_place s k e).concludeFlight k f .loaded).trans
    (sameCells_recordDeadline _ k _ now).toSameFlights

theorem sameFlights_swapIfSame {s : Store κ ν ε ω} {k : κ} {current : Ref (Entry ν)}
    {value : Option ν} {now : Instant} {stored : Stored κ ν ε ω}
    (h : s.swapIfSame k current value now = .ok stored) : s.SameFlights stored.store := by
  unfold swapIfSame at h
  split at h
  · cases h
  · rename_i e _
    split at h
    · cases h
      exact (sameFlights_place s k e).trans
        (sameCells_recordDeadline _ k _ now).toSameFlights
    · cases h

variable [DecidableEq ω]

/-- What a pass of a call, or giving it up, does to the flights of `s`: the store and the call
afterwards, the wakers fired, and whether the source was asked. A flight that is started without
anybody leading it is stranded. -/
inductive Traffic (s : Store κ ν ε ω) (c : Call κ ε ω) (waker : Option ω)
    (refusal : Option String) :
    Store κ ν ε ω → Option (Call κ ε ω) → List ω → Bool → Prop where
  | stays {s' : Store κ ν ε ω} {c' : Call κ ε ω} (same : s.SameFlights s')
      (key : c'.key = c.key) (led : c'.phase.led? = c.phase.led?)
      (awaited : ∀ f, c'.phase.awaited? = some f →
        c.phase.awaited? = some f ∨ s.flight? c.key = some f)
      (spent : c'.phase.isSpent = true → c.phase.isSpent = true) :
      Traffic s c waker refusal s' (some c') [] false
  | leaves (led : c.phase.led? = none) : Traffic s c waker refusal s none [] false
  | joins {f : Ref (Flight ε ω)} {w : ω} (left : waker = some w)
      (awaited : c.phase.awaited? = some f) (aloft : (s.flight f).landing = none) :
      Traffic s c waker refusal (s.joinFlight f w) (some c) [] false
  | leads (vacant : s.flight? c.key = none) (led : c.phase.led? = none)
      (accepted : refusal = none) :
      Traffic s c waker refusal (s.register c.key).2
        (some ⟨c.key, .loading (s.register c.key).1⟩) [] true
  | strands {asked : Bool} (vacant : s.flight? c.key = none) (led : c.phase.led? = none)
      (why : asked = true ∧ refusal.isSome = true ∨ asked = false ∧ c.phase.isSpent = true) :
      Traffic s c waker refusal (s.register c.key).2 (some ⟨c.key, .lookup false⟩) [] asked
  | concludes {f : Ref (Flight ε ω)} {l : Landing ε} {s' : Store κ ν ε ω}
      {o : Option (Call κ ε ω)} (led : c.phase.led? = some f)
      (same : (s.concludeFlight c.key f l).2.SameFlights s')
      (ended : ∀ c' ∈ o, c' = ⟨c.key, .finished⟩) :
      Traffic s c waker refusal s' o (s.concludeFlight c.key f l).1 false

variable {s : Store κ ν ε ω} {now : Instant} {waker : ω} {source : Source ν ε}

/-- The effect of each of the cases of a pass. -/
theorem Pass.traffic {c : Call κ ε ω} {p : Progress κ ν ε ω}
    (h : Pass s now waker source c p) :
    Traffic s c (some waker) source.refusal p.store (some p.call) p.woken p.asked := by
  cases h with
  | hit => exact .stays (sameFlights_modifyEntry s _ _) rfl rfl (fun _ h => .inl h) id
  | join _ registered =>
    refine .stays (.refl s) rfl rfl (fun f h => .inr ?_) id
    cases h
    exact registered
  | lead _ vacant accepted => exact .leads vacant rfl accepted
  | refuse _ vacant refused => exact .strands vacant rfl (.inl ⟨rfl, by simp [refused]⟩)
  | unarmed _ vacant => exact .strands vacant rfl (.inr ⟨rfl, rfl⟩)
  | wait aloft => exact .joins rfl rfl aloft
  | share => exact .stays (.refl s) rfl rfl (fun _ h => nomatch h) (fun h => nomatch h)
  | retry => exact .stays (.refl s) rfl rfl (fun _ h => nomatch h) id
  | park => exact .stays (.refl s) rfl rfl (fun _ h => .inl h) id
  | @land k f d v e reply fresh =>
    have hwoken : (s.placeAndLand k f e).1 = (s.concludeFlight k f .loaded).1 :=
      (sameFlights_place s k e).woken_concludeFlight k f .loaded
    simp only [hwoken]
    exact .concludes rfl (sameFlights_landed s k f e _) (by simp)
  | overflow => exact .stays (.refl s) rfl rfl (fun _ h => .inl h) id
  | fail => exact .concludes rfl (.refl _) (by simp)
  | crash => exact .stays (.refl s) rfl rfl (fun _ h => .inl h) id
  | exhaust => exact .stays (.refl s) rfl rfl (fun _ h => .inl h) id

theorem traffic_abandon (s : Store κ ν ε ω) (c : Call κ ε ω) :
    Traffic s c none none (s.abandon c).2 none (s.abandon c).1 false := by
  obtain ⟨k, phase⟩ := c
  cases phase with
  | loading f => exact .concludes (f := f) (l := .abandoned) rfl (.refl _) (by simp)
  | lookup armed => exact .leaves rfl
  | waiting armed f => exact .leaves rfl
  | finished => exact .leaves rfl

end Store

end ReadThrough
