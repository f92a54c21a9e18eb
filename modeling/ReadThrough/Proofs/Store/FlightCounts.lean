import ReadThrough.Proofs.Store.Landings

/-!
# How many flights there have been

Flights stay in the store when they have landed. So their number is the number of loads that have
been started, and the number of those that have landed with an error is the number of loads that
have failed. A poll starts at most one flight, and fails at most one.
-/

namespace ReadThrough

namespace Arena

variable {α : Type} {a : Arena α} {r : Ref α} {x : α}

def count (a : Arena α) (p : α → Bool) : Nat := a.cells.toList.countP p

theorem count_add (a : Arena α) (x : α) (p : α → Bool) :
    (a.add x).count p = a.count p + (p x).toNat := by
  rw [count, add, Array.toList_push, List.countP_append, List.countP_singleton, count]
  cases p x <;> rfl

theorem countP_modify {l : List α} {i : Nat} (hx : l[i]? = some x) (f : α → α) (p : α → Bool) :
    (l.modify i f).countP p + (p x).toNat = l.countP p + (p (f x)).toNat := by
  induction l generalizing i with
  | nil => cases hx
  | cons y l ih =>
    cases i with
    | zero =>
      cases hx
      rw [List.modify_zero_cons, List.countP_cons, List.countP_cons]
      cases p x <;> cases p (f x) <;> simp
    | succ i =>
      have hrest := ih hx
      rw [List.modify_succ_cons, List.countP_cons, List.countP_cons]
      omega

theorem count_modify (hx : a.get? r = some x) (f : α → α) (p : α → Bool) :
    (a.modify r f).count p + (p x).toNat = a.count p + (p (f x)).toNat := by
  rw [count, modify, Array.toList_modify, count]
  apply countP_modify
  rw [Array.getElem?_toList]
  exact hx

theorem size_add (a : Arena α) (x : α) : (a.add x).size = a.size + 1 := Array.size_push x

theorem size_modify (a : Arena α) (r : Ref α) (f : α → α) : (a.modify r f).size = a.size :=
  Array.size_modify

end Arena

def Landing.isFailure {ε : Type} : Landing ε → Bool
  | .failed _ => true
  | _ => false

def Flight.hasFailed {ε ω : Type} (f : Flight ε ω) : Bool := f.landing.any (·.isFailure)

def Outcome.isLoadFailure {ν ε ω : Type} : Outcome ν ε ω → Bool
  | .loadFailed _ _ => true
  | _ => false

namespace Store

variable {κ ν ε ω : Type}

def failures (s : Store κ ν ε ω) : Nat := s.flights.count (·.hasFailed)

/-- Since `s` this many flights have been started, and this many have failed. -/
structure FlightsSince (s : Store κ ν ε ω) (started failed : Nat) (s' : Store κ ν ε ω) : Prop where
  size_eq : s'.flights.size = s.flights.size + started
  failures_eq : s'.failures = s.failures + failed

variable {s s' s'' : Store κ ν ε ω} {f : Ref (Flight ε ω)}

namespace FlightsSince

theorem refl (s : Store κ ν ε ω) : s.FlightsSince 0 0 s := ⟨rfl, rfl⟩

theorem trans {a b c d : Nat} (h : s.FlightsSince a b s') (h' : s'.FlightsSince c d s'') :
    s.FlightsSince (a + c) (b + d) s'' where
  size_eq := by rw [h'.size_eq, h.size_eq, Nat.add_assoc]
  failures_eq := by rw [h'.failures_eq, h.failures_eq, Nat.add_assoc]

end FlightsSince

theorem flightsSince_of_eq (h : s'.flights = s.flights) : s.FlightsSince 0 0 s' := by
  refine ⟨?_, ?_⟩
  · rw [h, Nat.add_zero]
  · rw [failures, h, failures, Nat.add_zero]

theorem IsAloft.flightsSince_joinFlight [DecidableEq ω] (h : s.IsAloft f) (waker : ω) :
    s.FlightsSince 0 0 (s.joinFlight f waker) := by
  obtain ⟨fl, hget, hl, heq⟩ := h.flight_eq
  have hfailed : fl.hasFailed = false := by rw [Flight.hasFailed, hl, Option.any_none]
  have hpoll : ((s.flight f).poll waker).2.hasFailed = false := by
    rw [heq, Flight.poll, hl]
    simp only
    split
    · exact hfailed
    · rfl
  have hcount := Arena.count_modify hget (fun _ => ((s.flight f).poll waker).2)
    (fun x => x.hasFailed)
  rw [hfailed, hpoll] at hcount
  exact ⟨Arena.size_modify _ _ _, hcount⟩

variable [DecidableEq κ]

theorem SameFlights.flightsSince (h : s.SameFlights s') : s.FlightsSince 0 0 s' :=
  flightsSince_of_eq h.flights_eq

theorem flightsSince_register (s : Store κ ν ε ω) (k : κ) :
    s.FlightsSince 1 0 (s.register k).2 :=
  ⟨Arena.size_add _ _, Arena.count_add _ _ _⟩

theorem IsAloft.flightsSince_concludeFlight (h : s.IsAloft f) (k : κ) (l : Landing ε) :
    s.FlightsSince 0 l.isFailure.toNat (s.concludeFlight k f l).2 := by
  obtain ⟨fl, hget, hl, heq⟩ := h.flight_eq
  have hland : ((s.flight f).land l).2 = ⟨some l, []⟩ := by rw [heq, Flight.land, hl]
  have hfailed : fl.hasFailed = false := by rw [Flight.hasFailed, hl, Option.any_none]
  have hcount := Arena.count_modify hget (fun _ => ((s.flight f).land l).2)
    (fun x => x.hasFailed)
  rw [hfailed, hland] at hcount
  constructor
  · rw [flights_concludeFlight, Arena.size_modify, Nat.add_zero]
  · rw [failures, flights_concludeFlight, hland]
    exact hcount

variable [DecidableEq ω] {ι : Type} {calls : ι → Option (Call κ ε ω)} {id : ι} {now : Instant}
  {waker : ω} {source : Source ν ε} {c : Call κ ε ω} {p : Progress κ ν ε ω}

/-- A call that has not asked the source in vain starts a flight where it asks, and fails one where
its load does. -/
theorem Orderly.flightsSince_pass (h : s.Orderly calls) (hc : calls id = some c)
    (unspent : c.phase.isSpent = false) (pass : Pass s now waker source c p) :
    s.FlightsSince p.asked.toNat (p.outcome.any (·.isLoadFailure)).toNat p.store := by
  cases pass with
  | hit => exact (sameFlights_modifyEntry s _ _).flightsSince
  | lead => exact flightsSince_register s _
  | refuse => exact flightsSince_register s _
  | unarmed => cases unspent
  | @wait k armed f aloft =>
    have haloft : s.IsAloft f := by
      rcases h.awaited hc rfl with registered | ⟨l, hl⟩
      · exact h.aloft registered
      · cases aloft.symm.trans (standing?_eq_landed_iff.mp hl)
    exact haloft.flightsSince_joinFlight waker
  | @land k f d v e =>
    have haloft := h.aloft (h.registered hc rfl)
    exact (haloft.flightsSince_concludeFlight k .loaded).trans
      (sameFlights_landed s k f e _).flightsSince
  | @fail k f d e =>
    have haloft := h.aloft (h.registered hc rfl)
    exact haloft.flightsSince_concludeFlight k (.failed e)
  | _ => exact .refl s

theorem Orderly.flightsSince_polled [DecidableEq ι] (h : s.Orderly calls) (hc : calls id = some c)
    (unspent : c.phase.isSpent = false) (hp : Polled now waker source s c p) :
    s.FlightsSince p.asked.toNat (p.outcome.any (·.isLoadFailure)).toNat p.store := by
  induction hp generalizing calls with
  | last pass _ => exact h.flightsSince_pass hc unspent pass
  | @next s c p q pass silent rest ih =>
    have hpass := h.flightsSince_pass hc unspent pass
    have hrest := ih (h.traffic hc pass.traffic) (Function.update_self ..)
    rw [silent] at hpass
    cases pass with
    | join | retry =>
      have hboth := hpass.trans (hrest unspent)
      rw [Nat.add_comm] at hboth
      simpa using hboth
    | @lead k missing vacant =>
      -- Whoever leads a flight does not ask for another.
      have hasked : q.asked = false := by
        refine Bool.eq_false_iff.mpr fun hasked => ?_
        cases (flight?_register_self s k).symm.trans (rest.asked hasked).2
      have hboth := hpass.trans (hrest rfl)
      simpa [hasked] using hboth
    | _ => cases silent

omit [DecidableEq ω] in
theorem Orderly.flightsSince_abandon (h : s.Orderly calls) (hc : calls id = some c) :
    s.FlightsSince 0 0 (s.abandon c).2 := by
  obtain ⟨k, phase⟩ := c
  cases phase with
  | loading f =>
    have haloft := h.aloft (h.registered hc rfl)
    exact haloft.flightsSince_concludeFlight k .abandoned
  | _ => exact .refl s

end Store

end ReadThrough
