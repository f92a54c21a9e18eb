import ReadThrough.Proofs.Cache.Books
import ReadThrough.Proofs.Cache.Identity
import ReadThrough.Proofs.Hub.Hearing
import ReadThrough.Proofs.Store.Accesses
import ReadThrough.Proofs.Store.Landings

/-!
# Renewing ahead of the expiry

Under the usual policy a get has the entry that it finds live renewed if the entry is idle and the
get comes in the third quarter of its life. A change has the live entry of its key renewed if the
latest get that has found it came in that time, and removes it otherwise. Only gets that find an
entry live count, and nothing else schedules a renewal.
-/

namespace ReadThrough.Cache

variable {ι κ ν ε ω : Type}

theorem LeasesHeld.stage_eq_idle_iff {c : Cache ι κ ν ε ω} {r : Ref (Entry ν)} {x : Entry ν}
    (h : c.LeasesHeld) (hx : c.store.entryAt? r = some x) : x.stage = .idle ↔ x.lease = .idle := by
  constructor
  · intro hidle
    by_contra hne
    obtain ⟨n, q, hq, hr⟩ := h.exists_renewal hx hne
    have hstage := (h.stage_eq_iff hx q.running).mpr ⟨n, q, hq, hr, rfl⟩
    rw [hidle] at hstage
    split at hstage <;> cases hstage
  · intro hidle
    rw [Entry.stage, hidle, LeaseWord.stage_idle]

section Changes

variable [DecidableEq κ] {c : Cache ι κ ν ε ω} {k : κ} {r : Ref (Entry ν)} {x : Entry ν}
  {now : Instant} (policy : c.policy = .thirdQuarter) (hlive : c.store.live? k now = some r)
  (hx : c.store.entryAt? r = some x)

include policy hlive hx

theorem change_of_due (due : InThirdQuarter x.created x.expires x.accessTime) :
    c.change k now = some (c.schedule k r) := by
  simp only [change, hlive, decision_of_inThirdQuarter policy hx now due]

theorem change_of_early (early : ¬ InThirdQuarter x.created x.expires x.accessTime) :
    ∃ s, c.change k now = some s ∧ s.notice = .removedAfterChange ∧
      s.cache.store.slot? k = none ∧ c.books.SchedulesNothing s.cache.books := by
  simp only [change, hlive, decision_of_not_inThirdQuarter policy hx now early]
  refine ⟨_, rfl, rfl, ?_, .refl _⟩
  exact (Store.slot?_remove c.store k k).trans (if_pos rfl)

end Changes

variable [DecidableEq ι] [DecidableEq κ] [DecidableEq ω]

section Polls

variable {c : Cache ι κ ν ε ω} {id : ι} {call : Call κ ε ω} {now : Instant} {waker : ω}
  {reply : Reply ν ε} {r : Ref (Entry ν)} {x : Entry ν}

/-- A get renews what it resolves to if that is idle and due, as the poll of the store has left
it. -/
theorem schedulesIf_pollCall (policy : c.policy = .thirdQuarter)
    (hx : (c.store.poll call now waker ⟨none, reply⟩).store.entryAt? r = some x)
    (resolved : (c.pollCall id call now waker reply).outcome.bind (·.resolved?) = some r) :
    c.books.SchedulesIf (x.lease = .idle ∧ InThirdQuarter x.created x.expires x.accessTime) call.key
      r (c.pollCall id call now waker reply).cache.books := by
  have hpolled : (c.polled id call now waker reply).store.entryAt? r = some x := by
    rw [(c.sameTables_polled id call now waker reply).entryAt?_eq, hx]
  have hscheduled := schedulesIf_renewIfDue (c := c.polled id call now waker reply) policy hpolled
    (timeAfter now (c.pollReport id call now waker reply).ran reply) resolved call.key
  rw [books_polled] at hscheduled
  rw [books_pollCall]
  exact hscheduled

theorem schedulesIf_pollCall_of_hit (hs : c.session.Orderly) (policy : c.policy = .thirdQuarter)
    (hx : c.store.entryAt? r = some x)
    (offset : x.accessOffset ≤ min (now - x.created) Entry.maxOffset)
    (hit : (c.pollCall id call now waker reply).outcome = some (.hit r)) :
    c.books.SchedulesIf
      (x.lease = .idle ∧ InThirdQuarter x.created x.expires (x.accessAfter (some now))) call.key r
      (c.pollCall id call now waker reply).cache.books := by
  have hresolved : (c.pollCall id call now waker reply).outcome.bind (·.resolved?) = some r := by
    rw [hit]
    rfl
  rw [outcome_pollCall] at hit
  obtain ⟨-, hstore, -⟩ := (polled_store hs call now waker reply).hit hit
  have hread : (c.store.poll call now waker ⟨none, reply⟩).store.entryAt? r =
      some (x.recordAccess now) := by
    rw [hstore, Store.entryAt?_modifyEntry, if_pos rfl, hx, Option.map_some]
  have hscheduled := schedulesIf_pollCall policy hread hresolved
  rw [Entry.accessTime_recordAccess offset] at hscheduled
  exact hscheduled

/-- A get that finds no live entry schedules nothing, not even for what it has loaded itself. -/
theorem schedulesNothing_pollCall (hs : c.session.Orderly) (hsound : c.store.Sound)
    (policy : c.policy = .thirdQuarter)
    (unread : (c.pollCall id call now waker reply).outcome.bind (·.hit?) = none) :
    c.books.SchedulesNothing (c.pollCall id call now waker reply).cache.books := by
  cases hresolved : (c.pollCall id call now waker reply).outcome.bind (·.resolved?) with
  | none =>
    have hunresolved : (c.pollReport id call now waker reply).outcome.bind (·.resolved?) = none :=
      hresolved
    rw [books_pollCall, lookedAfter]
    simp only [renewIfDue, hunresolved, books_polled]
    exact .refl _
  | some r =>
    rcases Outcome.hit_or_loaded hresolved with hit | loaded
    · rw [hit] at unread
      cases unread
    · rw [outcome_pollCall] at loaded
      obtain ⟨d, v, -, hstocked⟩ :=
        (polled_store hs call now waker reply).stocked hsound.toTidy loaded
      obtain ⟨x, hx, hfresh⟩ := Option.map_eq_some_iff.mp hstocked.fresh
      refine (schedulesIf_pollCall policy hx hresolved).nothing fun h => ?_
      -- What has just been loaded has not been accessed since its creation.
      have hcreated : x.created = now + d := congrArg Entry.created hfresh
      have haccess : x.accessTime = now + d := congrArg Entry.accessTime hfresh
      rw [hcreated, haccess] at h
      exact not_inThirdQuarter_created h.2

end Polls

section Steps

variable {t : Clocked (Cache ι κ ν ε ω)} {e : CacheEvent ι κ ν ε ω} {k : κ} {r : Ref (Entry ν)}
  {x : Entry ν}

omit [DecidableEq ω] in
theorem Polls.books_eq {c : Cache ι κ ν ε ω} {id : ι} {call : Call κ ε ω} {waker : ω}
    {reply : Reply ν ε} (h : Polls t e c id call waker reply) :
    c.books = t.state.books ∧ c.policy = t.state.policy := by
  cases h <;> exact ⟨rfl, rfl⟩

theorem books_of_read (hs : t.state.session.Orderly) (policy : t.state.policy = .thirdQuarter)
    (hx : t.state.store.entryAt? r = some x)
    (offset : x.accessOffset ≤ min (t.now - x.created) Entry.maxOffset)
    (hread : read? t e = some r) :
    ∃ k, t.state.store.live? k t.now = some r ∧ t.state.books.SchedulesIf
      (x.lease = .idle ∧ InThirdQuarter x.created x.expires (x.accessAfter (some t.now))) k r
      (step t e).state.books := by
  obtain ⟨c, id, call, waker, reply, polls, hit⟩ := exists_polls_of_read hread
  have hlive := (reads_pollCall (polls.orderly hs) hit).1
  rw [polls.sameTables.live?_eq] at hlive
  rw [← polls.sameTables.entryAt?_eq] at hx
  rw [← polls.books_eq.2] at policy
  refine ⟨call.key, hlive, ?_⟩
  rw [← polls.books_eq.1, polls.step_eq]
  exact schedulesIf_pollCall_of_hit (polls.orderly hs) policy hx offset hit

theorem Polls.schedulesNothing {c : Cache ι κ ν ε ω} {id : ι} {call : Call κ ε ω} {waker : ω}
    {reply : Reply ν ε} (h : Polls t e c id call waker reply) (hs : t.state.session.Orderly)
    (hsound : t.state.store.Sound) (policy : t.state.policy = .thirdQuarter)
    (unread : read? t e = none) : t.state.books.SchedulesNothing (step t e).state.books := by
  rw [h.read?_eq] at unread
  rw [← h.books_eq.2] at policy
  rw [← h.books_eq.1, h.step_eq]
  exact schedulesNothing_pollCall (h.orderly hs) (h.sound hsound) policy unread

theorem books_of_unread (hs : t.state.session.Orderly) (hsound : t.state.store.Sound)
    (policy : t.state.policy = .thirdQuarter) (unread : read? t e = none)
    (other : ∀ k, e ≠ .change k) : t.state.books.SchedulesNothing (step t e).state.books := by
  cases e with
  | get id k waker reply =>
    exact (Polls.get id k waker reply).schedulesNothing hs hsound policy unread
  | poll id waker reply =>
    cases hc : t.state.session.calls.get? id with
    | none =>
      rw [step_poll_of_absent hc]
      exact .refl _
    | some call => exact (Polls.poll hc waker reply).schedulesNothing hs hsound policy unread
  | change k => exact absurd rfl (other k)
  | runRenewal n reply =>
    cases hrun : t.state.runRenewal n t.now reply with
    | none =>
      simp only [step, perform, hrun]
      exact .refl _
    | some run =>
      rw [step_runRenewal hrun]
      exact schedulesNothing_runRenewal hrun
  | dropRenewal n =>
    simp only [step, perform]
    split
    · exact schedulesNothing_closeRenewal t.state n _
    · exact .refl _
  | setExecutor executor => exact ⟨rfl, fun hp => ⟨_, hp, rfl, rfl⟩⟩
  | _ => exact .refl _

theorem read?_get_of_live (live : t.state.store.live? k t.now = some r) (id : ι) (waker : ω)
    (reply : Reply ν ε) : read? t (.get id k waker reply) = some r := by
  rw [← (t.state.sameTables_beginGet id).live?_eq] at live
  have hpoll : (t.state.beginGet id).store.poll (.start k) t.now waker ⟨none, reply⟩ = _ :=
    Store.poll_start_of_live live
  rw [read?, outcome?, outcome_get, hpoll]
  rfl

theorem step_change_of_missing (missing : t.state.store.live? k t.now = none) :
    step t (.change k) = t := by
  simp only [step, perform, change, missing]

end Steps

section Runs

/-- A change of `k` has its live entry `r`, which is `x`, renewed if it is due, and removed
otherwise. -/
structure Reacts (due : Prop) (c : Cache ι κ ν ε ω) (k : κ) (now : Instant) (r : Ref (Entry ν))
    (x : Entry ν) : Prop where
  renewed : due → c.change k now = some (c.schedule k r) ∧
    c.books.SchedulesIf (x.stage = .idle) k r (c.schedule k r).cache.books
  removed : ¬ due → ∃ s, c.change k now = some s ∧ s.notice = .removedAfterChange ∧
    s.cache.store.slot? k = none ∧ c.books.SchedulesNothing s.cache.books

/-- After these events entries are renewed ahead of their expiry, as measured by reads only: the
access time of an entry is the instant of the latest get that has found it live, or of its creation.
Gets that find an entry and changes look at that time, and nothing else schedules a renewal. -/
structure RenewsAhead (start : Clocked (Cache ι κ ν ε ω))
    (events : List (CacheEvent ι κ ν ε ω)) (t : Clocked (Cache ι κ ν ε ω)) : Prop where
  access : ∀ r x, t.state.store.entryAt? r = some x →
    x.accessTime = x.accessAfter (lastRead? step read? r start events)
  unread : ∀ r x e, t.state.store.entryAt? r = some x → read? t e ≠ some r →
    ∃ y, (step t e).state.store.entryAt? r = some y ∧ y.lifetime = x.lifetime
  finds : ∀ k r id waker reply, t.state.store.live? k t.now = some r →
    read? t (.get id k waker reply) = some r
  found : ∀ r e, read? t e = some r → ∃ k x, t.state.store.live? k t.now = some r ∧
    t.state.store.entryAt? r = some x ∧ t.state.books.SchedulesIf
      (x.stage = .idle ∧ InThirdQuarter x.created x.expires (x.accessAfter (some t.now))) k r
      (step t e).state.books
  loaded : ∀ r e, outcome? t e = some (.loaded r) →
    t.state.books.SchedulesNothing (step t e).state.books
  changed : ∀ k r, t.state.store.live? k t.now = some r → ∃ x,
    t.state.store.entryAt? r = some x ∧
      Reacts (InThirdQuarter x.created x.expires
        (x.accessAfter (lastRead? step read? r start events))) t.state k t.now r x
  uncached : ∀ k, t.state.store.live? k t.now = none → step t (.change k) = t
  others : ∀ e, read? t e = none → (∀ k, e ≠ .change k) →
    t.state.books.SchedulesNothing (step t e).state.books
  heard : ∀ (h : Hub ι κ ν ε ω) i registry scope k, h.caches.get? i = some t.state →
    ∃ n, (h.deliverLocally registry scope k t.now).2.hub.caches.get? i =
      some ((List.replicate n (.change k)).foldl step t).state

/-- A cache with the usual policy renews its entries ahead of their expiry. -/
theorem renews_ahead (o : Origin κ) (events : List (CacheEvent ι κ ν ε ω)) :
    let start := { o with policy := .thirdQuarter }.start
    RenewsAhead start events (events.foldl step start) := by
  intro start
  have hpolicy : (events.foldl step start).state.policy = .thirdQuarter := policy_run _ events
  have h : History step Cache.store read? BringsAny start := history_step _
  have horderly : (events.foldl step start).state.session.Orderly := (settled_run _ events).1
  have hleases : (events.foldl step start).state.LeasesHeld := leasesHeld_run _ events
  constructor
  case access =>
    intro r x hx
    exact h.accessTime_eq hx
  case unread =>
    intro r x e hx unread
    exact h.lifetime_eq_of_unread hx unread
  case finds =>
    intro k r id waker reply live
    exact read?_get_of_live live id waker reply
  case found =>
    intro r e hread
    obtain ⟨j, hslot⟩ := (h.reads events e r hread).1
    obtain ⟨x, hx⟩ := (h.sound events).present (Option.filter_eq_some_iff.mp hslot).1
    obtain ⟨k, hlive, hbooks⟩ := books_of_read horderly hpolicy hx (h.accessOffset_le hx) hread
    rw [← hleases.stage_eq_idle_iff hx] at hbooks
    exact ⟨k, x, hlive, hx, hbooks⟩
  case loaded =>
    intro r e loaded
    have unread : read? (events.foldl step start) e = none := by
      rw [read?, loaded]
      rfl
    refine books_of_unread horderly (h.sound events) hpolicy unread fun k => ?_
    rintro rfl
    cases loaded
  case changed =>
    intro k r hlive
    obtain ⟨x, hx⟩ := (h.sound events).present (Option.filter_eq_some_iff.mp hlive).1
    have hscheduled := schedulesIf_schedule hx k
    rw [← hleases.stage_eq_idle_iff hx] at hscheduled
    refine ⟨x, hx, ?_⟩
    rw [← h.accessTime_eq hx]
    exact ⟨fun due => ⟨change_of_due hpolicy hlive hx due, hscheduled⟩,
      fun early => change_of_early hpolicy hlive hx early⟩
  case uncached =>
    intro k missing
    exact step_change_of_missing missing
  case others =>
    intro e unread other
    exact books_of_unread horderly (h.sound events) hpolicy unread other
  case heard =>
    intro hub i registry scope k hi
    exact Hub.exists_hearing hi registry scope k _

-- An entry that lives for ten seconds is renewed by a get after six, but not by one after five.
example :
    let o : Origin Nat :=
      { name := "a", scope := "s", policy := .thirdQuarter, executor := .running, tokens := .start
        layout := ⟨.ofSeconds 10, 2, 0, none⟩, hash := fun _ => 0, now := 0 }
    let scheduled (seconds : Nat) := (List.foldl step o.start
      [CacheEvent.get 0 1 0 (.answered 0 (some 7)), .advance (seconds * nanosPerSecond),
        (.get 0 1 0 .pending : CacheEvent Nat Nat Int Nat Nat)]).state.books.scheduled
    scheduled 6 = 1 ∧ scheduled 5 = 0 := by
  decide +kernel

end Runs

end ReadThrough.Cache
