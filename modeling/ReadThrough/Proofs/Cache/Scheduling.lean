import ReadThrough.Proofs.Cache.Queries

/-!
# Where renewals come from

A renewal is scheduled for the entry that a get has just resolved to, or for the live entry of a key
that has changed. It waits until the executor runs it, and runs until it ends.
-/

namespace ReadThrough.Cache

variable {ι κ ν ε ω : Type}

section Operations

variable {c c' : Cache ι κ ν ε ω} {k : κ} {r : Ref (Entry ν)} {n : Nat} {p : Renewal κ ν}
  {now : Instant}

theorem renewals_schedule (h : (c.schedule k r).cache.renewals.get? n = some p) :
    c.renewals.get? n = some p ∨
      n = c.nextRenewal ∧ p = ⟨k, r, c.tokens.next.1, false⟩ := by
  cases c.scheduled_schedule k r with
  | busy held eq =>
    rw [eq] at h
    exact .inl h
  | outstanding present idle running eq =>
    rw [eq, Table.get?_put] at h
    split at h
    · rename_i hn
      cases h
      exact .inr ⟨hn, rfl⟩
    · exact .inl h
  | dropped present idle stopped eq =>
    rw [eq] at h
    exact .inl h

theorem renewals_renewIfDue {outcome : Option (Outcome ν ε ω)}
    (h : (c.renewIfDue k outcome now).cache.renewals.get? n = some p) :
    c.renewals.get? n = some p ∨ n = c.nextRenewal ∧ p.running = false ∧ p.key = k ∧
      outcome.bind (·.resolved?) = some p.entry := by
  cases c.tended_renewIfDue k outcome now with
  | kept eq =>
    rw [eq] at h
    exact .inl h
  | renewed resolved due eq =>
    rw [eq] at h
    rcases renewals_schedule h with hp | ⟨hn, rfl⟩
    · exact .inl hp
    · exact .inr ⟨hn, rfl, rfl, resolved⟩

variable [DecidableEq κ]

theorem renewals_change {s : Scheduling ι κ ν ε ω} (reaction : c.change k now = some s)
    (h : s.cache.renewals.get? n = some p) :
    c.renewals.get? n = some p ∨ n = c.nextRenewal ∧ p.running = false ∧ p.key = k ∧
      c.store.live? k now = some p.entry := by
  cases reacted_change reaction with
  | missing missing eq =>
    rw [eq] at h
    exact .inl h
  | renewed live due eq =>
    rw [eq] at h
    rcases renewals_schedule h with hp | ⟨hn, rfl⟩
    · exact .inl hp
    · exact .inr ⟨hn, rfl, rfl, live⟩
  | removed live early eq =>
    rw [eq] at h
    exact .inl h

theorem renewals_runStarted {q : Renewal κ ν} {asked : Bool} {reply : Reply ν ε} {m : Nat}
    (h : (c.runStarted m q asked now reply).cache.renewals.get? n = some p) :
    n ≠ m ∧ c.renewals.get? n = some p ∨ n = m ∧ p = { q with running := true } := by
  cases c.loaded_runStarted m q asked now reply with
  | pending eq =>
    rw [eq, Table.get?_put] at h
    split at h
    · rename_i hn
      cases h
      exact .inr ⟨hn, rfl⟩
    · exact .inl ⟨‹_›, h⟩
  | @ended d c₁ e answered eq =>
    have herased : (c₁.renewals.erase m).get? n = some p := by rw [← h, eq]; rfl
    rw [answered.spares.renewals_eq, Table.get?_erase] at herased
    split at herased
    · cases herased
    · exact .inl ⟨‹_›, herased⟩

theorem asked_runStarted (c : Cache ι κ ν ε ω) (n : Nat) (q : Renewal κ ν) (asked : Bool)
    (now : Instant) (reply : Reply ν ε) : (c.runStarted n q asked now reply).asked = asked := by
  unfold runStarted
  cases reply <;> rfl

/-- Running a renewal starts it if it has been waiting, or leaves it running, or ends it. -/
theorem renewals_runRenewal {m : Nat} {reply : Reply ν ε} {run : RenewalRun ι κ ν ε ω}
    (result : c.runRenewal m now reply = some run) (h : run.cache.renewals.get? n = some p) :
    c.renewals.get? n = some p ∨ n = m ∧ p.running = true ∧ run.asked = true ∧
      ∃ q, c.renewals.get? n = some q ∧ q.key = p.key ∧ q.entry = p.entry := by
  obtain ⟨q, hq, resumed⟩ := resumed_runRenewal result
  cases resumed with
  | further running eq =>
    rw [eq] at h
    rcases renewals_runStarted h with ⟨-, hp⟩ | ⟨rfl, rfl⟩
    · exact .inl hp
    · rw [← running]
      exact .inl hq
  | @started c' waiting started eq =>
    rw [eq] at h
    rcases renewals_runStarted h with ⟨-, hp⟩ | ⟨rfl, rfl⟩
    · rw [renewals_startLease started] at hp
      exact .inl hp
    · rw [eq]
      exact .inr ⟨rfl, rfl, asked_runStarted c' _ q true now reply, q, hq, rfl, rfl⟩
  | stale waiting stale eq =>
    rw [eq] at h
    exact .inl (Table.get?_of_get?_erase h)

/-- A renewal that asks the source has been waiting, and does not wait any more. -/
theorem starts_of_asked {reply : Reply ν ε} {run : RenewalRun ι κ ν ε ω}
    (result : c.runRenewal n now reply = some run) (asked : run.asked = true) :
    (∃ q, c.renewals.get? n = some q ∧ q.running = false) ∧
      ∀ p, run.cache.renewals.get? n = some p → p.running = true := by
  obtain ⟨q, hq, resumed⟩ := resumed_runRenewal result
  cases resumed with
  | further running eq =>
    rw [eq, asked_runStarted] at asked
    cases asked
  | started waiting started eq =>
    refine ⟨⟨q, hq, waiting⟩, fun p hp => ?_⟩
    rw [eq] at hp
    rcases renewals_runStarted hp with ⟨hne, -⟩ | ⟨-, rfl⟩
    · exact absurd rfl hne
    · rfl
  | stale waiting stale eq =>
    rw [eq] at asked
    cases asked

variable [DecidableEq ι]

theorem renewals_endCall (c : Cache ι κ ν ε ω) (id : ι) (outcome : Option (Outcome ν ε ω)) :
    (c.endCall id outcome).2.renewals = c.renewals := by
  rcases c.endCall_cases id outcome with eq | eq
  · rw [eq]
  · rw [eq]
    rfl

variable [DecidableEq ω]

theorem renewals_pollCall {id : ι} {call : Call κ ε ω} {waker : ω} {reply : Reply ν ε}
    (h : (c.pollCall id call now waker reply).cache.renewals.get? n = some p) :
    c.renewals.get? n = some p ∨ n = c.nextRenewal ∧ p.running = false ∧ p.key = call.key ∧
      (c.pollCall id call now waker reply).outcome.bind (·.resolved?) = some p.entry := by
  rw [cache_pollCall, renewals_endCall] at h
  have hpolled : (c.pollCall id call now waker reply).outcome =
      (c.pollReport id call now waker reply).outcome := rfl
  rw [hpolled]
  exact renewals_renewIfDue (c := c.polled id call now waker reply) h

end Operations

section Steps

variable [DecidableEq ι] [DecidableEq κ] [DecidableEq ω]

variable {t : Clocked (Cache ι κ ν ε ω)} {e : CacheEvent ι κ ν ε ω} {n : Nat} {p : Renewal κ ν}

/-- How a renewal that is outstanding after an event has come to be so. -/
inductive Outstanding (n : Nat) (p : Renewal κ ν) (t : Clocked (Cache ι κ ν ε ω))
    (e : CacheEvent ι κ ν ε ω) : Prop where
  | kept (before : t.state.renewals.get? n = some p)
  | started {q : Renewal κ ν} (before : t.state.renewals.get? n = some q) (key : q.key = p.key)
      (entry : q.entry = p.entry) (running : p.running = true)
      (begins : Begins p.key (.renewal n) t e)
  | scheduled (number : n = t.state.nextRenewal) (waiting : p.running = false)
      (entry : t.state.store.live? p.key t.now = some p.entry ∨
        t.state.store.entryAt? p.entry = none)

theorem live_or_new_pollCall {c : Cache ι κ ν ε ω} {id : ι} {call : Call κ ε ω} {now : Instant}
    {waker : ω} {reply : Reply ν ε} {r : Ref (Entry ν)} (hs : c.session.Orderly)
    (hsound : c.store.Sound)
    (resolved : (c.pollCall id call now waker reply).outcome.bind (·.resolved?) = some r) :
    c.store.live? call.key now = some r ∨ c.store.entryAt? r = none := by
  rcases Outcome.hit_or_loaded resolved with hit | loaded
  · exact .inl (reads_pollCall hs hit).1
  · obtain ⟨d, v, answer⟩ := answered_of_loaded hs hsound loaded
    exact .inr (brings_pollCall hs hsound loaded answer).2.new

theorem Polls.outstanding {c : Cache ι κ ν ε ω} {id : ι} {call : Call κ ε ω} {waker : ω}
    {reply : Reply ν ε} (polls : Polls t e c id call waker reply) (hs : t.state.session.Orderly)
    (hsound : t.state.store.Sound) (h : (step t e).state.renewals.get? n = some p) :
    Outstanding n p t e := by
  have hsame : c.renewals = t.state.renewals ∧ c.nextRenewal = t.state.nextRenewal := by
    cases polls <;> exact ⟨rfl, rfl⟩
  rw [polls.step_eq] at h
  rcases renewals_pollCall h with hp | ⟨hn, waiting, key, resolved⟩
  · rw [hsame.1] at hp
    exact .kept hp
  · have hentry := live_or_new_pollCall (polls.orderly hs) (polls.sound hsound) resolved
    rw [polls.sameTables.live?_eq, polls.sameTables.entryAt?_eq, ← key] at hentry
    exact .scheduled (hn.trans hsame.2) waiting hentry

theorem outstanding_step (hs : t.state.session.Orderly) (hsound : t.state.store.Sound)
    (h : (step t e).state.renewals.get? n = some p) : Outstanding n p t e := by
  cases e with
  | get id k waker reply => exact (Polls.get id k waker reply).outstanding hs hsound h
  | poll id waker reply =>
    cases hc : t.state.session.calls.get? id with
    | none =>
      rw [step_poll_of_absent hc] at h
      exact .kept h
    | some call => exact (Polls.poll hc waker reply).outstanding hs hsound h
  | change k =>
    simp only [step, perform] at h
    split at h
    · rename_i s reaction
      rcases renewals_change reaction h with hp | ⟨hn, waiting, key, live⟩
      · exact .kept hp
      · rw [← key] at live
        exact .scheduled hn waiting (.inl live)
    · exact .kept h
  | runRenewal m reply =>
    cases hrun : t.state.runRenewal m t.now reply with
    | none =>
      simp only [step, perform, hrun] at h
      exact .kept h
    | some run =>
      rw [step_runRenewal hrun] at h
      rcases renewals_runRenewal hrun h with hp | ⟨rfl, running, asked, q, hq, key, entry⟩
      · exact .kept hp
      · exact .started hq key entry running (.run hq key hrun asked)
  | dropRenewal m =>
    simp only [step, perform] at h
    split at h
    · exact .kept (Table.get?_of_get?_erase h)
    · exact .kept h
  | drop id => exact .kept h
  | discard k => exact .kept h
  | clear => exact .kept h
  | setExecutor executor => exact .kept h
  | advance elapsed => exact .kept h

end Steps

end ReadThrough.Cache
