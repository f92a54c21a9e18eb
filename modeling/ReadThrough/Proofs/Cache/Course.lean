import ReadThrough.Proofs.Cache.Renewals
import ReadThrough.Proofs.Store.Changes

/-!
# How a cache goes on

Whatever happens to a cache, its store goes on by changes of the kinds that a store allows, and the
renewals outstanding are what they were, or have been scheduled since. So slots and deadlines stay
in step, and what has left its slot never comes back, in a cache as well.
-/

namespace ReadThrough.Cache

variable {ι κ ν ε ω : Type} [DecidableEq κ] {c c' c'' : Cache ι κ ν ε ω}

/-- The store of `c'` has come from that of `c`, and so have its renewals, unless they have been
scheduled since. -/
structure Follows (c c' : Cache ι κ ν ε ω) : Prop where
  changes : c.store.Changes c'.store
  next_le : c.nextRenewal ≤ c'.nextRenewal
  renewals : ∀ {n q'}, c'.renewals.get? n = some q' →
    (∃ q, c.renewals.get? n = some q ∧ q.key = q'.key ∧ q.entry = q'.entry) ∨ c.nextRenewal ≤ n

namespace Follows

theorem refl (c : Cache ι κ ν ε ω) : c.Follows c :=
  ⟨.refl _, Nat.le_refl _, fun hq => .inl ⟨_, hq, rfl, rfl⟩⟩

theorem trans (h : c.Follows c') (h' : c'.Follows c'') : c.Follows c'' where
  changes := h.changes.trans h'.changes
  next_le := Nat.le_trans h.next_le h'.next_le
  renewals hq'' := by
    rcases h'.renewals hq'' with ⟨q', hq', hkey, hentry⟩ | hnew
    · rcases h.renewals hq' with ⟨q, hq, hkey', hentry'⟩ | hnew
      · exact .inl ⟨q, hq, hkey'.trans hkey, hentry'.trans hentry⟩
      · exact .inr hnew
    · exact .inr (Nat.le_trans h.next_le hnew)

end Follows

theorem follows_of_changes (h : c.store.Changes c'.store) (renewals : c'.renewals = c.renewals)
    (next : c'.nextRenewal = c.nextRenewal) : c.Follows c' where
  changes := h
  next_le := Nat.le_of_eq next.symm
  renewals hq' := .inl ⟨_, renewals ▸ hq', rfl, rfl⟩

theorem follows_modifyEntry (c : Cache ι κ ν ε ω) (r : Ref (Entry ν)) {f : Entry ν → Entry ν}
    (span : ∀ e, (f e).created = e.created ∧ (f e).expires = e.expires) :
    c.Follows (c.withStore (c.store.modifyEntry r f)) :=
  follows_of_changes (Store.changes_modifyEntry c.store r span) rfl rfl

theorem follows_setLease (c : Cache ι κ ν ε ω) (r : Ref (Entry ν)) (w : LeaseWord) :
    c.Follows (c.setLease r w) :=
  c.follows_modifyEntry r fun _ => ⟨rfl, rfl⟩

theorem follows_releaseLease (c : Cache ι κ ν ε ω) (r : Ref (Entry ν)) (t : Token) :
    c.Follows (c.releaseLease r t) :=
  c.follows_modifyEntry r fun _ => ⟨rfl, rfl⟩

theorem follows_schedule (c : Cache ι κ ν ε ω) (k : κ) (r : Ref (Entry ν)) :
    c.Follows (c.schedule k r).cache := by
  have htaken : c.Follows (c.taken r) :=
    follows_of_changes (Store.changes_modifyEntry c.store r fun _ => ⟨rfl, rfl⟩) rfl rfl
  cases c.scheduled_schedule k r with
  | busy held eq =>
    rw [eq]
    exact follows_of_changes (.refl _) rfl rfl
  | outstanding present idle running eq =>
    rw [eq]
    refine ⟨htaken.changes, Nat.le_succ _, fun {n q'} hq' => ?_⟩
    by_cases hn : n = c.nextRenewal
    · exact .inr (Nat.le_of_eq hn.symm)
    · rw [Table.get?_put, if_neg hn] at hq'
      exact .inl ⟨q', hq', rfl, rfl⟩
  | dropped present idle stopped eq =>
    rw [eq]
    exact htaken.trans (follows_releaseLease _ r _)

theorem follows_renewIfDue (c : Cache ι κ ν ε ω) (k : κ) (outcome : Option (Outcome ν ε ω))
    (now : Instant) : c.Follows (c.renewIfDue k outcome now).cache := by
  cases c.tended_renewIfDue k outcome now with
  | kept eq =>
    rw [eq]
    exact .refl c
  | renewed resolved due eq =>
    rw [eq]
    exact c.follows_schedule k _

theorem follows_discard (c : Cache ι κ ν ε ω) (k : κ) : c.Follows (c.discard k).2 :=
  follows_of_changes (Store.changes_remove c.store k) rfl rfl

theorem follows_clear (c : Cache ι κ ν ε ω) : c.Follows c.clear :=
  follows_of_changes Store.Change.clear.changes rfl rfl

theorem follows_change {k : κ} {now : Instant} {s : Scheduling ι κ ν ε ω}
    (h : c.change k now = some s) : c.Follows s.cache := by
  cases reacted_change h with
  | missing missing eq =>
    rw [eq]
    exact .refl c
  | renewed live due eq =>
    rw [eq]
    exact c.follows_schedule k _
  | removed live early eq =>
    rw [eq]
    exact follows_of_changes (Store.changes_remove c.store k) rfl rfl

theorem follows_closeRenewal (c : Cache ι κ ν ε ω) (n : Nat) (q : Renewal κ ν) :
    c.Follows (c.closeRenewal n q) where
  changes := (c.follows_releaseLease q.entry q.token).changes
  next_le := Nat.le_refl _
  renewals hq' := .inl ⟨_, Table.get?_of_get?_erase hq', rfl, rfl⟩

theorem follows_endRenewal (c : Cache ι κ ν ε ω) (n : Nat) (q : Renewal κ ν)
    (e : RenewalEnd ν ε) : c.Follows (c.endRenewal n q e) := by
  have hcounted : c.Follows { c with tally := countRenewal c.tally e } :=
    follows_of_changes (.refl _) rfl rfl
  exact hcounted.trans (follows_closeRenewal _ n q)

theorem Answered.follows {q : Renewal κ ν} {now : Instant} (h : Answered c q now c') :
    c.Follows c' := by
  cases h with
  | kept eq =>
    rw [eq]
    exact .refl c
  | swapped swap eq =>
    rw [eq]
    exact follows_of_changes (Store.changes_swapIfSame swap) rfl rfl
  | removed eq =>
    rw [eq]
    exact follows_of_changes (Store.changes_removeIfSame c.store _ _) rfl rfl

theorem follows_startLease {q : Renewal κ ν} (h : c.startLease q = some c') : c.Follows c' := by
  obtain ⟨-, -, rfl⟩ := startLease_eq_some_iff.mp h
  exact c.follows_setLease q.entry _

theorem renewals_startLease {q : Renewal κ ν} (h : c.startLease q = some c') :
    c'.renewals = c.renewals := by
  obtain ⟨-, -, rfl⟩ := startLease_eq_some_iff.mp h
  rfl

theorem follows_runStarted {n : Nat} {q : Renewal κ ν} (hq : c.renewals.get? n = some q)
    (asked : Bool) (now : Instant) (reply : Reply ν ε) :
    c.Follows (c.runStarted n q asked now reply).cache := by
  cases c.loaded_runStarted n q asked now reply with
  | pending eq =>
    rw [eq]
    refine ⟨.refl _, Nat.le_refl _, fun {m q'} hq' => .inl ?_⟩
    rw [Table.get?_put] at hq'
    split at hq'
    · rename_i hm
      cases hq'
      exact ⟨q, hm ▸ hq, rfl, rfl⟩
    · exact ⟨q', hq', rfl, rfl⟩
  | ended answered eq =>
    rw [eq]
    exact answered.follows.trans (follows_endRenewal _ n q _)

theorem follows_runRenewal {n : Nat} {now : Instant} {reply : Reply ν ε}
    {run : RenewalRun ι κ ν ε ω} (h : c.runRenewal n now reply = some run) :
    c.Follows run.cache := by
  obtain ⟨q, hq, resumed⟩ := resumed_runRenewal h
  cases resumed with
  | further running eq =>
    rw [eq]
    exact follows_runStarted hq false now reply
  | started waiting started eq =>
    rw [← renewals_startLease started] at hq
    rw [eq]
    exact (follows_startLease started).trans (follows_runStarted hq true now reply)
  | stale waiting stale eq =>
    rw [eq]
    exact c.follows_endRenewal n q _

variable [DecidableEq ι]

theorem follows_dropCall (c : Cache ι κ ν ε ω) (id : ι) : c.Follows (c.dropCall id).2 :=
  follows_of_changes (Session.changes_drop c.session id) rfl rfl

theorem follows_endCall (c : Cache ι κ ν ε ω) (id : ι) (outcome : Option (Outcome ν ε ω)) :
    c.Follows (c.endCall id outcome).2 := by
  rcases c.endCall_cases id outcome with eq | eq
  · rw [eq]
    exact .refl c
  · rw [eq]
    exact c.follows_dropCall id

variable [DecidableEq ω]

theorem follows_pollCall (c : Cache ι κ ν ε ω) (id : ι) (call : Call κ ε ω) (now : Instant)
    (waker : ω) (reply : Reply ν ε) :
    c.Follows (c.pollCall id call now waker reply).cache := by
  have hpolled : c.Follows (c.polled id call now waker reply) :=
    follows_of_changes (c.session.changes_pollCall id call now waker ⟨none, reply⟩) rfl rfl
  rw [cache_pollCall]
  exact (hpolled.trans (follows_renewIfDue _ _ _ _)).trans (follows_endCall _ id _)

/-- Every event goes on from the cache that it finds. -/
theorem Effect.follows {now : Instant} {e : CacheEvent ι κ ν ε ω} {woken : List ω}
    (h : Effect c now e woken c') : c.Follows c' := by
  cases h with
  | get id k waker reply =>
    have hbegun : c.Follows (c.beginGet id) :=
      follows_of_changes (c.session.changes_drop id) rfl rfl
    exact hbegun.trans (follows_pollCall _ id (.start k) now waker reply)
  | @poll id call waker reply => exact c.follows_pollCall id call now waker reply
  | absent => exact .refl c
  | drop id => exact c.follows_dropCall id
  | change reaction => exact follows_change reaction
  | discard k => exact c.follows_discard k
  | clear => exact c.follows_clear
  | runRenewal outstanding => exact follows_runRenewal outstanding
  | @dropRenewal n q => exact c.follows_closeRenewal n q
  | setExecutor => exact follows_of_changes (.refl _) rfl rfl
  | nothing => exact .refl c

theorem follows_foldl (t : Clocked (Cache ι κ ν ε ω)) (events : List (CacheEvent ι κ ν ε ω)) :
    t.state.Follows (events.foldl step t).state := by
  induction events generalizing t with
  | nil => exact .refl _
  | cons e events ih => exact (effect_perform t e).follows.trans (ih (step t e))

theorem sound_run (o : Origin κ) (events : List (CacheEvent ι κ ν ε ω)) :
    (events.foldl step o.start).state.store.Sound :=
  (follows_foldl o.start events).changes.sound (Store.sound_ofLayout o.layout o.hash)

end ReadThrough.Cache
