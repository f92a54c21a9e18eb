import ReadThrough.Proofs.Cache.Scheduling
import ReadThrough.Proofs.Window

/-!
# What schedules a renewal

A renewal is scheduled when an idle entry is due, and enters the books of the cache then. All other
operations only strike renewals off the books, or leave the books alone.
-/

namespace ReadThrough

/-- What a cache has on its books about renewals. -/
structure Books (κ ν : Type) where
  scheduled : Nat
  renewals : Table Nat (Renewal κ ν)
  next : Nat
  tokens : TokenCounter
  executor : Executor

variable {κ ν : Type}

namespace Books

/-- A renewal of the entry `r` of `k` has been scheduled. It is outstanding, unless the executor has
dropped it at once. -/
structure Schedules (b : Books κ ν) (k : κ) (r : Ref (Entry ν)) (b' : Books κ ν) : Prop where
  scheduled_eq : b'.scheduled = b.scheduled + 1
  renewals_eq : b'.renewals =
    if b.executor = .running then b.renewals.put b.next ⟨k, r, b.tokens.next.1, false⟩
    else b.renewals

/-- No renewal has been scheduled. Those outstanding have been outstanding before. -/
structure SchedulesNothing (b b' : Books κ ν) : Prop where
  scheduled_eq : b'.scheduled = b.scheduled
  outstanding : ∀ {n p}, b'.renewals.get? n = some p →
    ∃ q, b.renewals.get? n = some q ∧ q.key = p.key ∧ q.entry = p.entry

/-- A renewal of the entry `r` of `k` has been scheduled if `p` holds, and none otherwise. -/
structure SchedulesIf (p : Prop) (b : Books κ ν) (k : κ) (r : Ref (Entry ν)) (b' : Books κ ν) :
    Prop where
  scheduled : p → b.Schedules k r b'
  nothing : ¬ p → b.SchedulesNothing b'

theorem SchedulesNothing.refl (b : Books κ ν) : b.SchedulesNothing b :=
  ⟨rfl, fun h => ⟨_, h, rfl, rfl⟩⟩

end Books

namespace Cache

variable {ι ε ω : Type}

def books (c : Cache ι κ ν ε ω) : Books κ ν where
  scheduled := c.tally.renewalsScheduled
  renewals := c.renewals
  next := c.nextRenewal
  tokens := c.tokens
  executor := c.executor

variable {c : Cache ι κ ν ε ω} {k : κ} {r : Ref (Entry ν)} {x : Entry ν} {now : Instant}

section Due

theorem schedulesIf_schedule (hx : c.store.entryAt? r = some x) (k : κ) :
    c.books.SchedulesIf (x.lease = .idle) k r (c.schedule k r).cache.books := by
  cases c.scheduled_schedule k r with
  | busy held eq =>
    rw [eq]
    exact ⟨fun idle => absurd idle (held x hx), fun _ => ⟨rfl, fun hp => ⟨_, hp, rfl, rfl⟩⟩⟩
  | outstanding present idle running eq =>
    cases hx.symm.trans present
    rw [eq]
    exact ⟨fun _ => ⟨rfl, (if_pos running).symm⟩, fun held => absurd idle held⟩
  | dropped present idle stopped eq =>
    cases hx.symm.trans present
    rw [eq]
    exact ⟨fun _ => ⟨rfl, (if_neg stopped).symm⟩, fun held => absurd idle held⟩

section ThirdQuarter

variable (policy : c.policy = .thirdQuarter) (hx : c.store.entryAt? r = some x) (now : Instant)

include policy hx

theorem decision_of_inThirdQuarter (due : InThirdQuarter x.created x.expires x.accessTime) :
    c.decision r now = .renew := by
  have hdue : x.lifetime.renewalDue = true := x.lifetime.renewalDue_iff.mpr due
  rw [decision, hx, policy]
  exact (Decision.ofDue_eq_renew_iff _).mpr hdue

theorem decision_of_not_inThirdQuarter
    (early : ¬ InThirdQuarter x.created x.expires x.accessTime) : c.decision r now = .keep := by
  have hdue : ¬ x.lifetime.renewalDue = true := mt x.lifetime.renewalDue_iff.mp early
  rw [decision, hx, policy]
  exact if_neg hdue

theorem schedulesIf_renewIfDue {outcome : Option (Outcome ν ε ω)}
    (resolved : outcome.bind (·.resolved?) = some r) (k : κ) :
    c.books.SchedulesIf (x.lease = .idle ∧ InThirdQuarter x.created x.expires x.accessTime) k r
      (c.renewIfDue k outcome now).cache.books := by
  have hscheduled := c.schedulesIf_schedule hx k
  by_cases due : InThirdQuarter x.created x.expires x.accessTime
  · simp only [renewIfDue, resolved, decision_of_inThirdQuarter policy hx now due]
    exact ⟨fun h => hscheduled.scheduled h.1, fun h => hscheduled.nothing fun idle => h ⟨idle, due⟩⟩
  · simp only [renewIfDue, resolved, decision_of_not_inThirdQuarter policy hx now due]
    exact ⟨fun h => absurd h.2 due, fun _ => .refl _⟩

end ThirdQuarter

end Due

section Renewals

theorem scheduled_countRenewal (tally : Tally) (e : RenewalEnd ν ε) :
    (countRenewal tally e).renewalsScheduled = tally.renewalsScheduled := by
  cases e <;> rfl

theorem schedulesNothing_closeRenewal (c : Cache ι κ ν ε ω) (n : Nat) (q : Renewal κ ν) :
    c.books.SchedulesNothing (c.closeRenewal n q).books :=
  ⟨rfl, fun hp => ⟨_, Table.get?_of_get?_erase hp, rfl, rfl⟩⟩

variable [DecidableEq κ]

theorem scheduled_runStarted (c : Cache ι κ ν ε ω) (n : Nat) (q : Renewal κ ν) (asked : Bool)
    (now : Instant) (reply : Reply ν ε) :
    (c.runStarted n q asked now reply).cache.tally.renewalsScheduled =
      c.tally.renewalsScheduled := by
  cases c.loaded_runStarted n q asked now reply with
  | pending eq => rw [eq]
  | ended answered eq =>
    rw [eq]
    cases answered with
    | kept eq =>
      rw [eq]
      exact scheduled_countRenewal c.tally _
    | swapped swap eq =>
      rw [eq]
      exact scheduled_countRenewal c.tally _
    | removed eq =>
      rw [eq]
      exact scheduled_countRenewal c.tally _

theorem scheduled_runRenewal {n : Nat} {reply : Reply ν ε} {run : RenewalRun ι κ ν ε ω}
    (result : c.runRenewal n now reply = some run) :
    run.cache.tally.renewalsScheduled = c.tally.renewalsScheduled := by
  obtain ⟨q, -, resumed⟩ := resumed_runRenewal result
  cases resumed with
  | further running eq =>
    rw [eq]
    exact scheduled_runStarted c n q false now reply
  | started waiting started eq =>
    obtain ⟨-, -, rfl⟩ := startLease_eq_some_iff.mp started
    rw [eq]
    exact scheduled_runStarted (c.setLease q.entry _) n q true now reply
  | stale waiting stale eq =>
    rw [eq]
    exact scheduled_countRenewal c.tally _

/-- However a renewal goes on, it schedules no other. -/
theorem schedulesNothing_runRenewal {n : Nat} {reply : Reply ν ε} {run : RenewalRun ι κ ν ε ω}
    (result : c.runRenewal n now reply = some run) : c.books.SchedulesNothing run.cache.books where
  scheduled_eq := scheduled_runRenewal result
  outstanding {m p} hp := by
    rcases renewals_runRenewal result hp with hp | ⟨rfl, -, -, q, hq⟩
    · exact ⟨p, hp, rfl, rfl⟩
    · exact ⟨q, hq⟩

end Renewals

section Polls

variable [DecidableEq ι] [DecidableEq κ]

theorem books_endCall (c : Cache ι κ ν ε ω) (id : ι) (outcome : Option (Outcome ν ε ω)) :
    (c.endCall id outcome).2.books = c.books := by
  rcases c.endCall_cases id outcome with eq | eq
  · rw [eq]
  · rw [eq]
    rfl

variable [DecidableEq ω]

theorem books_polled (c : Cache ι κ ν ε ω) (id : ι) (call : Call κ ε ω) (now : Instant) (waker : ω)
    (reply : Reply ν ε) : (c.polled id call now waker reply).books = c.books := by
  have hcount : ∀ (tally : Tally) (report : PollReport κ ν ε ω),
      (countLoad tally report).renewalsScheduled = tally.renewalsScheduled := by
    intro tally report
    unfold countLoad
    split <;> split <;> rfl
  simp only [books, polled, hcount]

/-- After a poll the books are what looking after its entry has made of them. -/
theorem books_pollCall (c : Cache ι κ ν ε ω) (id : ι) (call : Call κ ε ω) (now : Instant)
    (waker : ω) (reply : Reply ν ε) :
    (c.pollCall id call now waker reply).cache.books =
      (c.lookedAfter id call now waker reply).books := by
  rw [cache_pollCall, books_endCall]

end Polls

end Cache

end ReadThrough
