import ReadThrough.Proofs.Cache.Queries
import ReadThrough.Proofs.Store.FlightCounts

/-!
# What the operations of a cache count

Each operation adds to the counts of a cache what it has reported, and nothing else. Scheduling a
renewal puts it on the table of those outstanding, unless the executor drops it at once, and ending
one takes it off. Polling a get starts a flight where it asks the source.
-/

namespace ReadThrough

namespace Tally

instance : Add Tally where
  add a b :=
    { gets := a.gets + b.gets
      loads := a.loads + b.loads
      loadFailures := a.loadFailures + b.loadFailures
      renewalsScheduled := a.renewalsScheduled + b.renewalsScheduled
      renewalsCompleted := a.renewalsCompleted + b.renewalsCompleted
      renewalFailures := a.renewalFailures + b.renewalFailures
      renewalEvictions := a.renewalEvictions + b.renewalEvictions
      invalidations := a.invalidations + b.invalidations }

theorem add_def (a b : Tally) : a + b =
    { gets := a.gets + b.gets
      loads := a.loads + b.loads
      loadFailures := a.loadFailures + b.loadFailures
      renewalsScheduled := a.renewalsScheduled + b.renewalsScheduled
      renewalsCompleted := a.renewalsCompleted + b.renewalsCompleted
      renewalFailures := a.renewalFailures + b.renewalFailures
      renewalEvictions := a.renewalEvictions + b.renewalEvictions
      invalidations := a.invalidations + b.invalidations } := rfl

def ofEnd {ν ε : Type} : Option (Cache.RenewalEnd ν ε) → Tally
  | some (.renewed _) => { renewalsCompleted := 1 }
  | some .removed => { renewalEvictions := 1 }
  | some (.failed _) => { renewalFailures := 1 }
  | _ => {}

end Tally

def Notice.isScheduled {ε : Type} : Notice ε → Bool
  | .renewalScheduled => true
  | _ => false

def Notice.isRemoval {ε : Type} : Notice ε → Bool
  | .removedAfterChange => true
  | _ => false

namespace Cache

variable {ι κ ν ε ω : Type} {c c' : Cache ι κ ν ε ω}

section Scheduling

/-- What trying to schedule a renewal, or not trying, has put on record: whether one has been
scheduled, and the number of the one that is outstanding since. -/
inductive Booked (c : Cache ι κ ν ε ω) : Bool → Option Nat → Cache ι κ ν ε ω → Prop where
  | nothing {c' : Cache ι κ ν ε ω} (tally : c'.tally = c.tally)
      (renewals : c'.renewals = c.renewals) : Booked c false none c'
  | outstanding {c' : Cache ι κ ν ε ω} {q : Renewal κ ν}
      (tally : c'.tally = c.tally + { renewalsScheduled := 1 })
      (renewals : c'.renewals = c.renewals.put c.nextRenewal q)
      (next : c'.nextRenewal = c.nextRenewal + 1) : Booked c true (some c.nextRenewal) c'
  | dropped {c' : Cache ι κ ν ε ω} (tally : c'.tally = c.tally + { renewalsScheduled := 1 })
      (renewals : c'.renewals = c.renewals) : Booked c true none c'

namespace Booked

variable {scheduled : Bool} {spawned : Option Nat}

theorem tally_eq (h : c.Booked scheduled spawned c') :
    c'.tally = c.tally + { renewalsScheduled := scheduled.toNat } := by
  cases h with
  | nothing tally => exact tally
  | outstanding tally => exact tally
  | dropped tally => exact tally

theorem balance (h : c.Booked scheduled spawned c') (new : c.renewals.get? c.nextRenewal = none) :
    c'.renewals.size + (scheduled && spawned.isNone).toNat = c.renewals.size + scheduled.toNat := by
  cases h with
  | nothing _ renewals => rw [renewals]; rfl
  | outstanding _ renewals => rw [renewals, Table.size_put_of_absent new]; rfl
  | dropped _ renewals => rw [renewals]; rfl

theorem size_eq (h : c.Booked scheduled spawned c') (new : c.renewals.get? c.nextRenewal = none) :
    c'.renewals.size = c.renewals.size + spawned.isSome.toNat := by
  cases h with
  | nothing _ renewals => rw [renewals]; rfl
  | outstanding _ renewals => rw [renewals, Table.size_put_of_absent new]; rfl
  | dropped _ renewals => rw [renewals]; rfl

theorem contains_iff (h : c.Booked scheduled spawned c') (n : Nat) :
    c'.renewals.contains n = true ↔ c.renewals.contains n = true ∨ spawned = some n := by
  cases h with
  | nothing _ renewals => simp only [renewals, reduceCtorEq, or_false]
  | outstanding _ renewals =>
    rw [renewals, Table.contains, Table.contains, Table.get?_put, Option.some.injEq]
    by_cases hn : n = c.nextRenewal
    · simp [hn]
    · simp [hn, Ne.symm hn]
  | dropped _ renewals => simp only [renewals, reduceCtorEq, or_false]

theorem number_eq {n : Nat} (h : c.Booked scheduled (some n) c') :
    n = c.nextRenewal ∧ n < c'.nextRenewal := by
  cases h with
  | outstanding _ _ next => exact ⟨rfl, next ▸ Nat.lt_succ_self _⟩

theorem renewal {n : Nat} {q : Renewal κ ν} (h : c.Booked scheduled spawned c')
    (hq : c'.renewals.get? n = some q) :
    c.renewals.get? n = some q ∨ scheduled = true ∧ spawned = some n := by
  cases h with
  | nothing _ renewals => exact .inl (renewals ▸ hq)
  | dropped _ renewals => exact .inl (renewals ▸ hq)
  | outstanding _ renewals =>
    rw [renewals, Table.get?_put] at hq
    split at hq
    · rename_i hn
      exact .inr ⟨rfl, congrArg some hn.symm⟩
    · exact .inl hq

theorem congr (h : c.Booked scheduled spawned c') {c'' : Cache ι κ ν ε ω}
    (tally : c''.tally = c'.tally) (renewals : c''.renewals = c'.renewals)
    (next : c''.nextRenewal = c'.nextRenewal) : c.Booked scheduled spawned c'' := by
  cases h with
  | nothing tally' renewals' => exact .nothing (tally.trans tally') (renewals.trans renewals')
  | outstanding tally' renewals' next' =>
    exact .outstanding (tally.trans tally') (renewals.trans renewals') (next.trans next')
  | dropped tally' renewals' => exact .dropped (tally.trans tally') (renewals.trans renewals')

end Booked

theorem booked_schedule (c : Cache ι κ ν ε ω) (k : κ) (r : Ref (Entry ν)) :
    c.Booked (c.schedule k r).notice.isScheduled (c.schedule k r).spawned
      (c.schedule k r).cache := by
  cases c.scheduled_schedule k r with
  | busy held eq =>
    rw [eq]
    exact .nothing rfl rfl
  | outstanding present idle running eq =>
    rw [eq]
    exact .outstanding rfl rfl rfl
  | dropped present idle stopped eq =>
    rw [eq]
    exact .dropped rfl rfl

theorem not_isRemoval_schedule (c : Cache ι κ ν ε ω) (k : κ) (r : Ref (Entry ν)) :
    (c.schedule k r).notice.isRemoval = false := by
  cases c.scheduled_schedule k r with
  | busy held eq => rw [eq]; rfl
  | outstanding present idle running eq => rw [eq]; rfl
  | dropped present idle stopped eq => rw [eq]; rfl

theorem booked_renewIfDue (c : Cache ι κ ν ε ω) (k : κ) (outcome : Option (Outcome ν ε ω))
    (now : Instant) :
    let upkeep := c.renewIfDue k outcome now
    c.Booked (upkeep.notices.any (·.isScheduled)) upkeep.spawned upkeep.cache := by
  unfold renewIfDue
  split
  · exact .nothing rfl rfl
  · split
    · exact .nothing rfl rfl
    · simp only [List.any_cons, List.any_nil, Bool.or_false]
      exact c.booked_schedule k _
    · exact .nothing rfl rfl

end Scheduling

section Renewals

variable [DecidableEq κ] {n : Nat} {q : Renewal κ ν} {now : Instant} {reply : Reply ν ε}

omit [DecidableEq κ] in
theorem countRenewal_eq (tally : Tally) (e : RenewalEnd ν ε) :
    countRenewal tally e = tally + .ofEnd (some e) := by
  cases e <;> rfl

theorem Answered.tally_eq (h : Answered c q now c') : c'.tally = c.tally := by
  cases h with
  | kept eq => rw [eq]
  | swapped swap eq =>
    rw [eq]
    rfl
  | removed eq =>
    rw [eq]
    rfl

/-- What ending the renewal `n`, or going on with it, has put on record. -/
structure Closed (c : Cache ι κ ν ε ω) (n : Nat) (ended : Option (RenewalEnd ν ε))
    (c' : Cache ι κ ν ε ω) : Prop where
  tally_eq : c'.tally = c.tally + .ofEnd ended
  size_eq : c'.renewals.size + ended.isSome.toNat = c.renewals.size
  gone : ended.isSome = true → c'.renewals = c.renewals.erase n

omit [DecidableEq κ] in
theorem closed_endRenewal (hq : c.renewals.get? n = some q) (same : c'.renewals = c.renewals)
    (tally : c'.tally = c.tally) (e : RenewalEnd ν ε) :
    c.Closed n (some e) (c'.endRenewal n q e) := by
  have herase : (c'.endRenewal n q e).renewals = c.renewals.erase n := by rw [← same]; rfl
  constructor
  · rw [← tally]
    exact countRenewal_eq c'.tally e
  · rw [herase]
    exact Table.size_erase_of_present hq
  · exact fun _ => herase

theorem closed_runStarted (hq : c.renewals.get? n = some q) (asked : Bool) (now : Instant)
    (reply : Reply ν ε) :
    c.Closed n (c.runStarted n q asked now reply).ended
      (c.runStarted n q asked now reply).cache := by
  unfold runStarted
  cases reply with
  | pending => exact ⟨rfl, Table.size_put_of_present hq _, nofun⟩
  | failed d error => exact closed_endRenewal hq rfl rfl _
  | crashed d text => exact closed_endRenewal hq rfl rfl _
  | answered d value =>
    have hanswered := c.answered_applyAnswer q value (now + d)
    exact closed_endRenewal hq hanswered.spares.renewals_eq hanswered.tally_eq _

theorem closed_runRenewal {run : RenewalRun ι κ ν ε ω}
    (result : c.runRenewal n now reply = some run) : c.Closed n run.ended run.cache := by
  obtain ⟨q, hq, resumed⟩ := resumed_runRenewal result
  cases resumed with
  | further running eq =>
    rw [eq]
    exact closed_runStarted hq false now reply
  | started waiting started eq =>
    obtain ⟨-, -, rfl⟩ := startLease_eq_some_iff.mp started
    rw [eq]
    have hclosed := closed_runStarted (c := c.setLease q.entry (.pack q.token .running)) hq true
      now reply
    exact ⟨hclosed.tally_eq, hclosed.size_eq, hclosed.gone⟩
  | stale waiting stale eq =>
    rw [eq]
    exact closed_endRenewal hq rfl rfl .stale

theorem tally_change {k : κ} {s : Scheduling ι κ ν ε ω} (reaction : c.change k now = some s) :
    s.cache.tally = c.tally +
      { renewalsScheduled := s.notice.isScheduled.toNat
        invalidations := s.notice.isRemoval.toNat } := by
  cases reacted_change reaction with
  | missing missing eq =>
    rw [eq]
    rfl
  | @renewed r live due eq =>
    have hremoval := c.not_isRemoval_schedule k r
    rw [← eq] at hremoval
    rw [hremoval, eq]
    exact (c.booked_schedule k _).tally_eq
  | removed live early eq =>
    rw [eq]
    rfl

theorem booked_change {k : κ} {s : Scheduling ι κ ν ε ω} (reaction : c.change k now = some s) :
    ∃ c', c.Booked s.notice.isScheduled s.spawned c' ∧ c'.renewals = s.cache.renewals ∧
      c'.nextRenewal = s.cache.nextRenewal := by
  cases reacted_change reaction with
  | missing missing eq =>
    rw [eq]
    exact ⟨c, .nothing rfl rfl, rfl, rfl⟩
  | renewed live due eq =>
    rw [eq]
    exact ⟨_, c.booked_schedule k _, rfl, rfl⟩
  | removed live early eq =>
    rw [eq]
    exact ⟨c, .nothing rfl rfl, rfl, rfl⟩

end Renewals

section Polls

variable [DecidableEq ι] [DecidableEq κ] [DecidableEq ω] {id : ι} {call : Call κ ε ω}
  {now : Instant} {waker : ω} {reply : Reply ν ε}

omit [DecidableEq ι] [DecidableEq κ] [DecidableEq ω] in
theorem countLoad_eq (tally : Tally) (report : PollReport κ ν ε ω) :
    countLoad tally report = tally +
      { loads := report.asked.toNat
        loadFailures := (report.outcome.any (·.isLoadFailure)).toNat } := by
  obtain ⟨outcome, woken, evicted, asked, ran⟩ := report
  cases asked with
  | false =>
    cases outcome with
    | none => rfl
    | some o => cases o <;> rfl
  | true =>
    cases outcome with
    | none => rfl
    | some o => cases o <;> rfl

omit [DecidableEq ι] [DecidableEq κ] [DecidableEq ω] in
theorem not_isScheduled_noticesOf (report : PollReport κ ν ε ω) :
    (noticesOf report).any (·.isScheduled) = false := by
  have hevicted : ∀ evicted : List κ,
      (evicted.map fun _ => (Notice.evictedOverCapacity : Notice ε)).any (·.isScheduled) =
        false := by
    intro evicted
    rw [List.any_map]
    exact List.any_eq_false.mpr fun _ _ => Bool.false_ne_true
  unfold noticesOf
  rw [List.any_append, hevicted, Bool.or_false]
  split <;> rfl

theorem booked_pollCall (c : Cache ι κ ν ε ω) (id : ι) (call : Call κ ε ω) (now : Instant)
    (waker : ω) (reply : Reply ν ε) :
    let served := c.pollCall id call now waker reply
    (c.polled id call now waker reply).Booked (served.notices.any (·.isScheduled)) served.spawned
      served.cache := by
  have hnotices : (c.pollCall id call now waker reply).notices =
      noticesOf (c.pollReport id call now waker reply) ++
        ((c.polled id call now waker reply).renewIfDue call.key
          (c.pollReport id call now waker reply).outcome
          (timeAfter now (c.pollReport id call now waker reply).ran reply)).notices := rfl
  have hupkeep := (c.polled id call now waker reply).booked_renewIfDue call.key
    (c.pollReport id call now waker reply).outcome
    (timeAfter now (c.pollReport id call now waker reply).ran reply)
  simp only [hnotices, List.any_append, not_isScheduled_noticesOf, Bool.false_or]
  rw [cache_pollCall]
  rcases (c.lookedAfter id call now waker reply).endCall_cases id
    (c.pollReport id call now waker reply).outcome with eq | eq
  · rw [eq]
    exact hupkeep
  · rw [eq]
    exact hupkeep.congr rfl rfl rfl

/-- A poll counts the load that it has begun, the failure of a load that it has seen, and the
renewal that it has scheduled. -/
theorem tally_pollCall (c : Cache ι κ ν ε ω) (id : ι) (call : Call κ ε ω) (now : Instant)
    (waker : ω) (reply : Reply ν ε) :
    let served := c.pollCall id call now waker reply
    served.cache.tally = c.tally +
      { loads := served.asked.toNat
        loadFailures := (served.outcome.any (·.isLoadFailure)).toNat
        renewalsScheduled := (served.notices.any (·.isScheduled)).toNat } := by
  intro served
  have hpolled : (c.polled id call now waker reply).tally = c.tally +
      { loads := served.asked.toNat
        loadFailures := (served.outcome.any (·.isLoadFailure)).toNat } :=
    countLoad_eq c.tally (c.pollReport id call now waker reply)
  rw [(c.booked_pollCall id call now waker reply).tally_eq, hpolled]
  rfl

omit [DecidableEq ω] in
theorem flightsSince_dropCall (hs : c.session.Orderly) (id : ι) :
    c.store.FlightsSince 0 0 (c.dropCall id).2.store := by
  have hdrop : (c.dropCall id).2.store = (c.session.drop id).2.store := rfl
  rw [hdrop]
  cases hc : c.session.calls.get? id with
  | none =>
    rw [Session.drop_of_absent hc]
    exact .refl _
  | some call =>
    rw [Session.drop_of_present hc]
    exact Store.Orderly.flightsSince_abandon hs hc

/-- A poll starts a flight where it asks the source, and fails one where its load does. -/
theorem flightsSince_pollCall (hs : c.session.Orderly) (hc : c.session.Admits id call)
    (unspent : call.phase.isSpent = false) (now : Instant) (waker : ω) (reply : Reply ν ε) :
    let served := c.pollCall id call now waker reply
    c.store.FlightsSince served.asked.toNat (served.outcome.any (·.isLoadFailure)).toNat
      served.cache.store := by
  intro served
  have hkept := (hc.orderly hs).flightsSince_polled (Function.update_self ..) unspent
    (polled_store hs call now waker reply)
  rw [← asked_pollCall c id call, ← outcome_pollCall c id call] at hkept
  have hkeptOrderly : (c.session.pollKept id call now waker ⟨none, reply⟩).2.Orderly :=
    (Session.proceeds_pollKept hc).settles.orderly hs
  have hpolled : (c.session.pollKept id call now waker ⟨none, reply⟩).2.store.FlightsSince 0 0
      (c.polled id call now waker reply).store := by
    unfold polled Session.pollCall
    simp only
    split
    · exact flightsSince_dropCall
        (c := { c with session := (c.session.pollKept id call now waker ⟨none, reply⟩).2 })
        hkeptOrderly id
    · exact .refl _
  have hquiet := c.quiet_lookedAfter id call now waker reply
  have horderly : (c.lookedAfter id call now waker reply).session.Orderly := by
    have hsettled : (c.polled id call now waker reply).session.Orderly :=
      (Session.proceeds_pollCall hc).settles.orderly hs
    exact hquiet.proceeds.settles.orderly hsettled
  have hend : (c.lookedAfter id call now waker reply).store.FlightsSince 0 0
      served.cache.store := by
    have hserved : served.cache = _ := c.cache_pollCall id call now waker reply
    rw [hserved]
    rcases (c.lookedAfter id call now waker reply).endCall_cases id
      (c.pollReport id call now waker reply).outcome with eq | eq
    · rw [eq]
      exact .refl _
    · rw [eq]
      exact flightsSince_dropCall horderly id
  exact ((hkept.trans hpolled).trans hquiet.flights.flightsSince).trans hend

end Polls

end Cache

end ReadThrough
