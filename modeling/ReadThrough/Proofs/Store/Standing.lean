import ReadThrough.Proofs.Store.Traffic

/-!
# How flights stand

A flight that has been started is aloft until it lands, and it lands once. Two stores whose flights
stand in the same way and are registered for the same keys may still differ in the wakers that
their flights keep.
-/

namespace ReadThrough.Store

variable {κ ν ε ω : Type}

/-- How a flight stands: whether it has been started, and how it has landed. -/
def standing? (s : Store κ ν ε ω) (f : Ref (Flight ε ω)) : Option (Option (Landing ε)) :=
  (s.flights.get? f).map (·.landing)

/-- The flight has been started and has not landed. -/
def IsAloft (s : Store κ ν ε ω) (f : Ref (Flight ε ω)) : Prop := s.standing? f = some none

/-- The flight has landed. -/
def IsDown (s : Store κ ν ε ω) (f : Ref (Flight ε ω)) : Prop := ∃ l, s.standing? f = some (some l)

variable {s : Store κ ν ε ω} {f : Ref (Flight ε ω)}

theorem IsAloft.not_isDown (h : s.IsAloft f) : ¬ s.IsDown f := by
  rintro ⟨l, hl⟩
  rw [IsAloft, hl] at h
  cases h

theorem IsAloft.flight_eq (h : s.IsAloft f) : ∃ fl, s.flights.get? f = some fl ∧
    fl.landing = none ∧ s.flight f = fl := by
  obtain ⟨fl, hget, hl⟩ := Option.map_eq_some_iff.mp h
  exact ⟨fl, hget, hl, by rw [flight, hget]; rfl⟩

theorem IsAloft.landing_eq (h : s.IsAloft f) : (s.flight f).landing = none := by
  obtain ⟨fl, _, hl, heq⟩ := h.flight_eq
  rw [heq, hl]

theorem IsAloft.ne_next (h : s.IsAloft f) : f ≠ s.flights.next := by
  rintro rfl
  rw [IsAloft, standing?, Arena.get?_next] at h
  cases h

theorem IsDown.ne_next (h : s.IsDown f) : f ≠ s.flights.next := by
  rintro rfl
  obtain ⟨l, hl⟩ := h
  rw [standing?, Arena.get?_next] at hl
  cases hl

theorem standing?_joinFlight [DecidableEq ω] (s : Store κ ν ε ω)
    (f g : Ref (Flight ε ω)) (waker : ω) :
    (s.joinFlight f waker).standing? g = s.standing? g := by
  have hpoll : ((s.flight f).poll waker).2.landing = (s.flight f).landing := by
    unfold Flight.poll
    split
    · rfl
    · split <;> rfl
  have hget : (s.joinFlight f waker).flights.get? g =
      if g = f then (s.flights.get? g).map (fun _ => ((s.flight f).poll waker).2)
      else s.flights.get? g := Arena.get?_modify _ _ _ _
  rw [standing?, standing?, hget]
  split
  · rename_i hg
    subst hg
    cases h : s.flights.get? g with
    | none => rfl
    | some fl =>
      have hfl : s.flight g = fl := by rw [flight, h]; rfl
      rw [Option.map_some, Option.map_some, Option.map_some, hpoll, hfl]
  · rfl

variable [DecidableEq κ]

theorem standing?_register (s : Store κ ν ε ω) (k : κ) (f : Ref (Flight ε ω)) :
    (s.register k).2.standing? f =
      if f = s.flights.next then some none else s.standing? f := by
  have hget : (s.register k).2.flights.get? f
      = if f = s.flights.next then some .started else s.flights.get? f := Arena.get?_add _ _ _
  rw [standing?, hget]
  split <;> rfl

theorem IsAloft.standing?_concludeFlight (h : s.IsAloft f) (k : κ) (l : Landing ε)
    (g : Ref (Flight ε ω)) :
    (s.concludeFlight k f l).2.standing? g = if g = f then some (some l) else s.standing? g := by
  obtain ⟨fl, hget, hl, heq⟩ := h.flight_eq
  have hland : ((s.flight f).land l).2.landing = some l := by rw [heq, Flight.land, hl]
  rw [standing?, flights_concludeFlight, Arena.get?_modify]
  split
  · rename_i hg
    rw [hg, hget]
    exact congrArg some hland
  · rfl

section Register

variable {k j : κ}

theorem flight?_register_self (s : Store κ ν ε ω) (k : κ) :
    (s.register k).2.flight? k = some s.flights.next := by
  rw [flight?_register, if_pos rfl]
  rfl

theorem flight?_register_of_eq_some (vacant : s.flight? k = none) (h : s.flight? j = some f) :
    (s.register k).2.flight? j = some f := by
  rw [flight?_register, if_neg, h]
  rintro rfl
  rw [vacant] at h
  cases h

theorem flight?_register_cases (h : (s.register k).2.flight? j = some f) :
    j = k ∧ f = s.flights.next ∨ s.flight? j = some f := by
  rw [flight?_register] at h
  split at h
  · rename_i hj
    cases h
    exact .inl ⟨hj, rfl⟩
  · exact .inr h

theorem flight?_concluded_iff (registered : s.flight? k = some f) {l : Landing ε}
    {g : Ref (Flight ε ω)} :
    (s.concludeFlight k f l).2.flight? j = some g ↔ j ≠ k ∧ s.flight? j = some g := by
  rw [flight?_concludeFlight, registered]
  by_cases hj : j = k <;> simp [hj, Option.filter]

end Register

/-- Flights that stand in the same way, registered for the same keys. -/
structure SameStanding (s s' : Store κ ν ε ω) : Prop where
  standing?_eq : ∀ f, s'.standing? f = s.standing? f
  flight?_eq : ∀ k, s'.flight? k = s.flight? k

theorem SameFlights.sameStanding {s s' : Store κ ν ε ω} (h : s.SameFlights s') :
    s.SameStanding s' where
  standing?_eq f := by rw [standing?, standing?, h.flights_eq]
  flight?_eq := h.flight?_eq

theorem sameStanding_joinFlight [DecidableEq ω] (s : Store κ ν ε ω) (f : Ref (Flight ε ω))
    (waker : ω) : s.SameStanding (s.joinFlight f waker) where
  standing?_eq g := standing?_joinFlight s f g waker
  flight?_eq _ := rfl

end ReadThrough.Store
