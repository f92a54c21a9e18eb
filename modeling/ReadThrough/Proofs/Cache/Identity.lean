import ReadThrough.Proofs.Cache.Events

/-!
# What a cache is set up with

The name of a cache, the scope of its values and its policy are given to it when it is set up, and
stay with it.
-/

namespace ReadThrough.Cache

variable {ι κ ν ε ω : Type}

def identity (c : Cache ι κ ν ε ω) : String × String × Policy := (c.name, c.scope, c.policy)

variable {c c' : Cache ι κ ν ε ω} {k : κ} {now : Instant}

theorem identity_schedule (c : Cache ι κ ν ε ω) (k : κ) (r : Ref (Entry ν)) :
    (c.schedule k r).cache.identity = c.identity := by
  cases c.scheduled_schedule k r with
  | busy held eq =>
    rw [eq]
    rfl
  | outstanding present idle running eq =>
    rw [eq]
    rfl
  | dropped present idle stopped eq =>
    rw [eq]
    rfl

theorem identity_renewIfDue (c : Cache ι κ ν ε ω) (k : κ) (outcome : Option (Outcome ν ε ω))
    (now : Instant) : (c.renewIfDue k outcome now).cache.identity = c.identity := by
  cases c.tended_renewIfDue k outcome now with
  | kept eq => rw [eq]
  | renewed resolved due eq =>
    rw [eq]
    exact identity_schedule c k _

section Renewals

variable [DecidableEq κ]

theorem identity_change {s : Scheduling ι κ ν ε ω} (reaction : c.change k now = some s) :
    s.cache.identity = c.identity := by
  cases reacted_change reaction with
  | missing missing eq => rw [eq]
  | renewed live due eq =>
    rw [eq]
    exact identity_schedule c k _
  | removed live early eq =>
    rw [eq]
    rfl

theorem identity_runStarted (c : Cache ι κ ν ε ω) (n : Nat) (q : Renewal κ ν) (asked : Bool)
    (now : Instant) (reply : Reply ν ε) :
    (c.runStarted n q asked now reply).cache.identity = c.identity := by
  cases c.loaded_runStarted n q asked now reply with
  | pending eq =>
    rw [eq]
    rfl
  | ended answered eq =>
    rw [eq]
    cases answered with
    | kept eq =>
      rw [eq]
      rfl
    | swapped swap eq =>
      rw [eq]
      rfl
    | removed eq =>
      rw [eq]
      rfl

theorem identity_runRenewal {n : Nat} {reply : Reply ν ε} {run : RenewalRun ι κ ν ε ω}
    (result : c.runRenewal n now reply = some run) : run.cache.identity = c.identity := by
  obtain ⟨q, -, resumed⟩ := resumed_runRenewal result
  cases resumed with
  | further running eq =>
    rw [eq]
    exact identity_runStarted c n q false now reply
  | started waiting started eq =>
    obtain ⟨-, -, rfl⟩ := startLease_eq_some_iff.mp started
    rw [eq]
    exact identity_runStarted (c.setLease q.entry _) n q true now reply
  | stale waiting stale eq =>
    rw [eq]
    rfl

end Renewals

variable [DecidableEq ι] [DecidableEq κ] [DecidableEq ω]

omit [DecidableEq ω] in
theorem identity_endCall (c : Cache ι κ ν ε ω) (id : ι) (outcome : Option (Outcome ν ε ω)) :
    (c.endCall id outcome).2.identity = c.identity := by
  rcases c.endCall_cases id outcome with eq | eq
  · rw [eq]
  · rw [eq]
    rfl

theorem identity_pollCall (c : Cache ι κ ν ε ω) (id : ι) (call : Call κ ε ω) (now : Instant)
    (waker : ω) (reply : Reply ν ε) :
    (c.pollCall id call now waker reply).cache.identity = c.identity := by
  rw [cache_pollCall, identity_endCall]
  exact identity_renewIfDue (c.polled id call now waker reply) call.key _ _

/-- Whatever happens to a cache, it stays what it has been set up to be. -/
theorem Effect.identity_eq {e : CacheEvent ι κ ν ε ω} {woken : List ω}
    (h : Effect c now e woken c') : c'.identity = c.identity := by
  cases h with
  | get id k waker reply => exact identity_pollCall (c.beginGet id) id (.start k) now waker reply
  | poll waker reply => exact identity_pollCall c _ _ now waker reply
  | change reaction => exact identity_change reaction
  | runRenewal outstanding => exact identity_runRenewal outstanding
  | _ => rfl

theorem identity_step (t : Clocked (Cache ι κ ν ε ω)) (e : CacheEvent ι κ ν ε ω) :
    (step t e).state.identity = t.state.identity :=
  (effect_perform t e).identity_eq

theorem policy_run (o : Origin κ) (events : List (CacheEvent ι κ ν ε ω)) :
    (events.foldl step o.start).state.policy = o.policy := by
  induction events using List.reverseRecOn with
  | nil => rfl
  | append_singleton events e ih =>
    have hidentity := identity_step (events.foldl step o.start) e
    rw [List.foldl_append, ← ih]
    exact congrArg (·.2.2) hidentity

end ReadThrough.Cache
