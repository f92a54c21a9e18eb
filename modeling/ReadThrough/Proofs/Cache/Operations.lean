import ReadThrough.Cache.Change
import ReadThrough.Cache.Read
import ReadThrough.Cache.Renewal
import ReadThrough.Proofs.Lease.Packing

/-!
# What the operations of a cache come to

Each operation of a cache is described here once by the ways in which it can end, with what is known
in each of them. Whatever is proved of all operations of a cache goes by these cases.
-/

namespace ReadThrough.Cache

variable {ι κ ν ε ω : Type}

section Schedule

/-- The cache with the lease of an entry taken for the renewal that is scheduled next. -/
def taken (c : Cache ι κ ν ε ω) (r : Ref (Entry ν)) : Cache ι κ ν ε ω :=
  { c with
    session :=
      { c.session with
        store := c.store.modifyEntry r (·.withLease (.pack c.tokens.next.1 .scheduled)) }
    tokens := c.tokens.next.2
    tally := { c.tally with renewalsScheduled := c.tally.renewalsScheduled + 1 } }

/-- What trying to schedule a renewal can come to. -/
inductive Scheduled (c : Cache ι κ ν ε ω) (k : κ) (r : Ref (Entry ν))
    (s : Scheduling ι κ ν ε ω) : Prop where
  | busy (held : ∀ x, c.store.entryAt? r = some x → x.lease ≠ .idle)
      (eq : s = ⟨{ c with tokens := c.tokens.next.2 }, .renewalInFlight, none⟩)
  | outstanding {x : Entry ν} (present : c.store.entryAt? r = some x) (idle : x.lease = .idle)
      (running : c.executor = .running)
      (eq : s =
        ⟨{ c.taken r with
            renewals := c.renewals.put c.nextRenewal ⟨k, r, c.tokens.next.1, false⟩
            nextRenewal := c.nextRenewal + 1 },
          .renewalScheduled, some c.nextRenewal⟩)
  | dropped {x : Entry ν} (present : c.store.entryAt? r = some x) (idle : x.lease = .idle)
      (stopped : c.executor ≠ .running)
      (eq : s = ⟨(c.taken r).releaseLease r c.tokens.next.1, .renewalScheduled, none⟩)

theorem scheduled_schedule (c : Cache ι κ ν ε ω) (k : κ) (r : Ref (Entry ν)) :
    Scheduled c k r (c.schedule k r) := by
  unfold schedule
  simp only
  split
  · rename_i busy
    refine .busy (fun x hx idle => ?_) rfl
    have hbusy : (c.store.entryAt? r).bind (·.lease.schedule c.tokens.next.1) = none := busy
    rw [hx, Option.bind_some] at hbusy
    cases hbusy.symm.trans (LeaseWord.schedule_eq_some_iff.mpr ⟨idle, rfl⟩)
  · rename_i w free
    obtain ⟨x, hx, hlease⟩ := Option.bind_eq_some_iff.mp free
    obtain ⟨idle, rfl⟩ := LeaseWord.schedule_eq_some_iff.mp hlease
    split
    · exact .outstanding hx idle ‹_› rfl
    · exact .dropped hx idle ‹_› rfl

/-- What looking after the entry that a get has resolved to can come to. -/
inductive Tended (c : Cache ι κ ν ε ω) (k : κ) (outcome : Option (Outcome ν ε ω)) (now : Instant)
    (c' : Cache ι κ ν ε ω) : Prop where
  | kept (eq : c' = c)
  | renewed {r : Ref (Entry ν)} (resolved : outcome.bind (·.resolved?) = some r)
      (due : c.decision r now = .renew) (eq : c' = (c.schedule k r).cache)

theorem tended_renewIfDue (c : Cache ι κ ν ε ω) (k : κ) (outcome : Option (Outcome ν ε ω))
    (now : Instant) : Tended c k outcome now (c.renewIfDue k outcome now).cache := by
  unfold renewIfDue
  split
  · exact .kept rfl
  · split
    · exact .kept rfl
    · exact .renewed ‹_› ‹_› rfl
    · exact .kept rfl

end Schedule

variable [DecidableEq κ]

section Change

variable {c : Cache ι κ ν ε ω} {k : κ} {now : Instant} {s : Scheduling ι κ ν ε ω}

/-- What reacting to a change can come to. -/
inductive Reacted (c : Cache ι κ ν ε ω) (k : κ) (now : Instant) (s : Scheduling ι κ ν ε ω) :
    Prop where
  | missing (missing : c.store.live? k now = none) (eq : s = ⟨c, .changeOfUncached, none⟩)
  | renewed {r : Ref (Entry ν)} (live : c.store.live? k now = some r)
      (due : c.decision r now = .renew) (eq : s = c.schedule k r)
  | removed {r : Ref (Entry ν)} (live : c.store.live? k now = some r)
      (early : c.decision r now = .keep)
      (eq : s =
        ⟨{ (c.discard k).2 with
            tally := { c.tally with invalidations := c.tally.invalidations + 1 } },
          .removedAfterChange, none⟩)

theorem reacted_change (h : c.change k now = some s) : Reacted c k now s := by
  unfold change at h
  split at h
  · cases h
    exact .missing ‹_› rfl
  · split at h
    · cases h
      exact .renewed ‹_› ‹_› rfl
    · cases h
      exact .removed ‹_› ‹_› rfl
    · cases h

end Change

section Renewal

variable {c c' : Cache ι κ ν ε ω} {n : Nat} {q : Renewal κ ν} {now : Instant} {reply : Reply ν ε}
  {run : RenewalRun ι κ ν ε ω}

/-- What applying an answer of the source can come to. -/
inductive Answered (c : Cache ι κ ν ε ω) (q : Renewal κ ν) (now : Instant)
    (c' : Cache ι κ ν ε ω) : Prop where
  | kept (eq : c' = c)
  | swapped {value : Option ν} {stored : Store.Stored κ ν ε ω}
      (swap : c.store.swapIfSame q.key q.entry value now = .ok stored)
      (eq : c' = c.withStore stored.store)
  | removed (eq : c' = c.withStore (c.store.removeIfSame q.key q.entry).2)

theorem answered_applyAnswer (c : Cache ι κ ν ε ω) (q : Renewal κ ν) (value : Option ν)
    (now : Instant) : Answered c q now (c.applyAnswer q value now).2.2 := by
  cases value with
  | some v =>
    simp only [applyAnswer]
    split
    · exact .swapped ‹_› rfl
    · exact .kept rfl
    · exact .kept rfl
  | none =>
    simp only [applyAnswer]
    split
    · exact .removed rfl
    · exact .kept rfl

/-- What running the load of a renewal that has started can come to. -/
inductive Loaded (c : Cache ι κ ν ε ω) (n : Nat) (q : Renewal κ ν) (now : Instant)
    (c' : Cache ι κ ν ε ω) : Prop where
  | pending (eq : c' = { c with renewals := c.renewals.put n { q with running := true } })
  | ended {d : Nat} {c₁ : Cache ι κ ν ε ω} {e : RenewalEnd ν ε}
      (answered : Answered c q (now + d) c₁) (eq : c' = c₁.endRenewal n q e)

theorem loaded_runStarted (c : Cache ι κ ν ε ω) (n : Nat) (q : Renewal κ ν) (asked : Bool)
    (now : Instant) (reply : Reply ν ε) :
    Loaded c n q now (c.runStarted n q asked now reply).cache := by
  unfold runStarted
  cases reply with
  | pending => exact .pending rfl
  | answered d value => exact .ended (answered_applyAnswer c q value (now + d)) rfl
  | failed d error => exact .ended (d := d) (.kept rfl) rfl
  | crashed d text => exact .ended (d := d) (.kept rfl) rfl

/-- A renewal starts its lease only on a stored entry that it has scheduled. -/
theorem startLease_eq_some_iff : c.startLease q = some c' ↔
    c.store.holds q.key q.entry = true ∧
      (∃ x, c.store.entryAt? q.entry = some x ∧ x.lease = .pack q.token .scheduled) ∧
      c' = c.setLease q.entry (.pack q.token .running) := by
  unfold startLease
  constructor
  · intro h
    split at h
    · rename_i holds
      obtain ⟨w, hw, rfl⟩ := Option.map_eq_some_iff.mp h
      obtain ⟨x, hx, hlease⟩ := Option.bind_eq_some_iff.mp hw
      obtain ⟨hscheduled, rfl⟩ := LeaseWord.start_eq_some_iff.mp hlease
      exact ⟨holds, ⟨x, hx, hscheduled⟩, rfl⟩
    · cases h
  · rintro ⟨holds, ⟨x, hx, hscheduled⟩, rfl⟩
    have hlease := LeaseWord.start_eq_some_iff.mpr ⟨hscheduled, rfl⟩
    rw [if_pos holds, hx, Option.bind_some, hlease, Option.map_some]

/-- What running a renewal can come to. -/
inductive Resumed (c : Cache ι κ ν ε ω) (n : Nat) (q : Renewal κ ν) (now : Instant)
    (reply : Reply ν ε) (run : RenewalRun ι κ ν ε ω) : Prop where
  | further (running : q.running = true) (eq : run = c.runStarted n q false now reply)
  | started {c' : Cache ι κ ν ε ω} (waiting : q.running = false)
      (started : c.startLease q = some c') (eq : run = c'.runStarted n q true now reply)
  | stale (waiting : q.running = false) (stale : c.startLease q = none)
      (eq : run =
        { cache := c.endRenewal n q .stale
          ended := some .stale
          notices := RenewalEnd.notices (.stale : RenewalEnd ν ε)
          asked := false
          ran := false })

theorem resumed_runRenewal (h : c.runRenewal n now reply = some run) :
    ∃ q, c.renewals.get? n = some q ∧ Resumed c n q now reply run := by
  obtain ⟨q, hq, rfl⟩ := Option.map_eq_some_iff.mp h
  refine ⟨q, hq, ?_⟩
  cases hrunning : q.running with
  | true => exact .further hrunning (if_pos rfl)
  | false =>
    cases hstart : c.startLease q with
    | some c' => exact .started hrunning hstart rfl
    | none => exact .stale hrunning hstart rfl

end Renewal

section Calls

variable [DecidableEq ι]

theorem endCall_cases (c : Cache ι κ ν ε ω) (id : ι) (outcome : Option (Outcome ν ε ω)) :
    c.endCall id outcome = ([], c) ∨ c.endCall id outcome = c.dropCall id := by
  unfold endCall
  split
  · exact .inr rfl
  · exact .inl rfl

end Calls

end ReadThrough.Cache
