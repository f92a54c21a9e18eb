import ReadThrough.Proofs.Cache.Operations
import ReadThrough.Proofs.Store.Wakers

/-!
# What the renewals of a cache leave alone

Scheduling and running renewals, reacting to changes and removing entries touch neither the gets
under way nor the flights that these lead and wait for.
-/

namespace ReadThrough.Cache

variable {ι κ ν ε ω : Type}

section Leases

variable [DecidableEq κ]

/-- The same gets under way, and the same flights. -/
structure Quiet (c c' : Cache ι κ ν ε ω) : Prop where
  calls_eq : c'.session.calls = c.session.calls
  flights : c.store.SameFlights c'.store

variable {c c' c'' : Cache ι κ ν ε ω}

theorem Quiet.refl (c : Cache ι κ ν ε ω) : c.Quiet c := ⟨rfl, .refl c.store⟩

theorem Quiet.trans (h : c.Quiet c') (h' : c'.Quiet c'') : c.Quiet c'' :=
  ⟨h'.calls_eq.trans h.calls_eq, h.flights.trans h'.flights⟩

theorem quiet_of_session_eq (h : c'.session = c.session) : c.Quiet c' := by
  have hstore : c'.store = c.store := congrArg Session.store h
  refine ⟨congrArg Session.calls h, ?_⟩
  rw [hstore]

theorem quiet_withStore {s : Store κ ν ε ω} (h : c.store.SameFlights s) : c.Quiet (c.withStore s) :=
  ⟨rfl, h⟩

theorem quiet_setLease (c : Cache ι κ ν ε ω) (r : Ref (Entry ν)) (w : LeaseWord) :
    c.Quiet (c.setLease r w) :=
  quiet_withStore (Store.sameFlights_modifyEntry _ _ _)

theorem quiet_releaseLease (c : Cache ι κ ν ε ω) (r : Ref (Entry ν)) (t : Token) :
    c.Quiet (c.releaseLease r t) :=
  quiet_withStore (Store.sameFlights_modifyEntry _ _ _)

theorem quiet_schedule (c : Cache ι κ ν ε ω) (k : κ) (r : Ref (Entry ν)) :
    c.Quiet (c.schedule k r).cache := by
  have htaken : c.Quiet (c.taken r) := ⟨rfl, Store.sameFlights_modifyEntry _ _ _⟩
  cases c.scheduled_schedule k r with
  | busy held eq =>
    rw [eq]
    exact quiet_of_session_eq rfl
  | outstanding present idle running eq =>
    rw [eq]
    exact htaken.trans (quiet_of_session_eq rfl)
  | dropped present idle stopped eq =>
    rw [eq]
    exact htaken.trans (quiet_releaseLease _ r _)

theorem quiet_discard (c : Cache ι κ ν ε ω) (k : κ) : c.Quiet (c.discard k).2 :=
  quiet_withStore (Store.sameCells_remove c.store k).toSameFlights

theorem quiet_clear (c : Cache ι κ ν ε ω) : c.Quiet c.clear :=
  quiet_withStore (Store.sameCells_clear c.store).toSameFlights

theorem quiet_change {k : κ} {now : Instant} {s : Scheduling ι κ ν ε ω}
    (h : c.change k now = some s) : c.Quiet s.cache := by
  cases reacted_change h with
  | missing missing eq =>
    rw [eq]
    exact .refl c
  | renewed live due eq =>
    rw [eq]
    exact quiet_schedule c k _
  | removed live early eq =>
    rw [eq]
    exact (quiet_discard c k).trans (quiet_of_session_eq rfl)

theorem quiet_closeRenewal (c : Cache ι κ ν ε ω) (n : Nat) (r : Renewal κ ν) :
    c.Quiet (c.closeRenewal n r) :=
  (quiet_releaseLease c r.entry r.token).trans (quiet_of_session_eq rfl)

theorem quiet_endRenewal (c : Cache ι κ ν ε ω) (n : Nat) (r : Renewal κ ν) (e : RenewalEnd ν ε) :
    c.Quiet (c.endRenewal n r e) := by
  have hcounted : c.Quiet { c with tally := countRenewal c.tally e } := quiet_of_session_eq rfl
  exact hcounted.trans (quiet_closeRenewal _ n r)

theorem Answered.quiet {q : Renewal κ ν} {now : Instant} (h : Answered c q now c') :
    c.Quiet c' := by
  cases h with
  | kept eq =>
    rw [eq]
    exact .refl c
  | swapped swap eq =>
    rw [eq]
    exact quiet_withStore (Store.sameFlights_swapIfSame swap)
  | removed eq =>
    rw [eq]
    exact quiet_withStore (Store.sameCells_removeIfSame c.store _ _).toSameFlights

theorem quiet_startLease {r : Renewal κ ν} (h : c.startLease r = some c') : c.Quiet c' := by
  obtain ⟨-, -, rfl⟩ := startLease_eq_some_iff.mp h
  exact quiet_setLease c r.entry _

theorem quiet_runStarted (c : Cache ι κ ν ε ω) (n : Nat) (r : Renewal κ ν) (asked : Bool)
    (now : Instant) (reply : Reply ν ε) : c.Quiet (c.runStarted n r asked now reply).cache := by
  cases c.loaded_runStarted n r asked now reply with
  | pending eq =>
    rw [eq]
    exact quiet_of_session_eq rfl
  | ended answered eq =>
    rw [eq]
    exact answered.quiet.trans (quiet_endRenewal _ n r _)

theorem quiet_runRenewal {n : Nat} {now : Instant} {reply : Reply ν ε}
    {run : RenewalRun ι κ ν ε ω} (h : c.runRenewal n now reply = some run) : c.Quiet run.cache := by
  obtain ⟨r, -, resumed⟩ := resumed_runRenewal h
  cases resumed with
  | further running eq =>
    rw [eq]
    exact quiet_runStarted c n r false now reply
  | started waiting started eq =>
    rw [eq]
    exact (quiet_startLease started).trans (quiet_runStarted _ n r true now reply)
  | stale waiting stale eq =>
    rw [eq]
    exact quiet_endRenewal c n r _

theorem quiet_renewIfDue (c : Cache ι κ ν ε ω) (k : κ) (outcome : Option (Outcome ν ε ω))
    (now : Instant) : c.Quiet (c.renewIfDue k outcome now).cache := by
  cases c.tended_renewIfDue k outcome now with
  | kept eq =>
    rw [eq]
    exact .refl c
  | renewed resolved due eq =>
    rw [eq]
    exact quiet_schedule c k _

variable [DecidableEq ι]

theorem Quiet.proceeds (h : c.Quiet c') : c.session.Proceeds c'.session [] :=
  Session.proceeds_of_sameFlights h.calls_eq h.flights

end Leases

end ReadThrough.Cache
