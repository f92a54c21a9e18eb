import ReadThrough.Proofs.Cache.Events
import ReadThrough.Proofs.Cache.Quiet

/-!
# What a get does to the session of its cache

A get is a call of the session. It is kept exactly as long as its polls are pending, and the source
takes every load on when it is asked, so that polling a get strands no key.
-/

namespace ReadThrough.Cache

variable {ι κ ν ε ω : Type} [DecidableEq ι] [DecidableEq κ] [DecidableEq ω]

theorem proceeds_dropCall (c : Cache ι κ ν ε ω) (id : ι) :
    c.session.Proceeds (c.dropCall id).2.session (c.dropCall id).1 :=
  c.session.proceeds_drop id

theorem proceeds_endCall (c : Cache ι κ ν ε ω) (id : ι) (outcome : Option (Outcome ν ε ω)) :
    c.session.Proceeds (c.endCall id outcome).2.session (c.endCall id outcome).1 := by
  rcases c.endCall_cases id outcome with eq | eq
  · rw [eq]
    exact .refl _
  · rw [eq]
    exact c.proceeds_dropCall id

variable {c : Cache ι κ ν ε ω} {id : ι} {call : Call κ ε ω} {now : Instant} {waker : ω}
  {reply : Reply ν ε}

theorem quiet_lookedAfter (c : Cache ι κ ν ε ω) (id : ι) (call : Call κ ε ω) (now : Instant)
    (waker : ω) (reply : Reply ν ε) :
    (c.polled id call now waker reply).Quiet (c.lookedAfter id call now waker reply) :=
  quiet_renewIfDue _ _ _ _

theorem proceeds_pollCall (hc : c.session.Admits id call) :
    c.session.Proceeds (c.pollCall id call now waker reply).cache.session
      (c.pollCall id call now waker reply).woken := by
  have hpolled : c.session.Proceeds (c.polled id call now waker reply).session
      (c.pollReport id call now waker reply).woken :=
    Session.proceeds_pollCall hc
  have hupkeep := (c.quiet_lookedAfter id call now waker reply).proceeds
  have hend := proceeds_endCall (c.lookedAfter id call now waker reply) id
    (c.pollReport id call now waker reply).outcome
  have h := (hpolled.trans hupkeep).trans hend
  rw [List.append_nil, ← woken_pollCall, ← cache_pollCall] at h
  exact h

theorem outcome_pollCall (c : Cache ι κ ν ε ω) (id : ι) (call : Call κ ε ω) :
    (c.pollCall id call now waker reply).outcome =
    (c.store.poll call now waker ⟨none, reply⟩).outcome := by
  unfold pollCall Session.pollCall
  rfl

theorem asked_pollCall (c : Cache ι κ ν ε ω) (id : ι) (call : Call κ ε ω) :
    (c.pollCall id call now waker reply).asked =
    (c.store.poll call now waker ⟨none, reply⟩).asked := by
  unfold pollCall Session.pollCall
  rfl

theorem ran_pollCall (c : Cache ι κ ν ε ω) (id : ι) (call : Call κ ε ω) :
    (c.pollCall id call now waker reply).ran =
    (c.store.poll call now waker ⟨none, reply⟩).ran := by
  unfold pollCall Session.pollCall
  rfl

theorem poll_of_present (hc : c.session.calls.get? id = some call) :
    c.poll id now waker reply = some (c.pollCall id call now waker reply) := by
  rw [poll, hc]
  rfl

theorem outcome_get {k : κ} : (c.get id k now waker reply).outcome =
    ((c.beginGet id).store.poll (.start k) now waker ⟨none, reply⟩).outcome := by
  rw [get_eq]
  exact outcome_pollCall (c.beginGet id) id (.start k)

theorem session_pollCall_of_pending
    (pending : (c.store.poll call now waker ⟨none, reply⟩).outcome = some .pending) :
    (c.pollCall id call now waker reply).cache.session =
      (c.session.pollKept id call now waker ⟨none, reply⟩).2 := by
  have houtcome : (c.session.pollKept id call now waker ⟨none, reply⟩).1.outcome = some .pending :=
    pending
  have hcrash : (some (Outcome.pending : Outcome ν ε ω)).any (·.isCrash) = false := rfl
  unfold pollCall Session.pollCall
  simp only [houtcome, hcrash]
  rfl

/-- A get is kept until it is over. -/
theorem calls_pollCall (c : Cache ι κ ν ε ω) (id : ι) (call : Call κ ε ω) (now : Instant)
    (waker : ω) (reply : Reply ν ε) :
    let p := c.store.poll call now waker ⟨none, reply⟩
    (c.pollCall id call now waker reply).cache.session.calls.get? =
      Function.update c.session.calls.get? id (if isOver p.outcome then none else some p.call) := by
  intro p
  have hreport : (c.pollReport id call now waker reply).outcome = p.outcome := rfl
  have hlooked := (c.quiet_lookedAfter id call now waker reply).calls_eq
  rw [cache_pollCall, hreport, endCall]
  split
  · have hdrop : ((c.lookedAfter id call now waker reply).dropCall id).2.session =
        ((c.lookedAfter id call now waker reply).session.drop id).2 := rfl
    rw [hdrop, Session.get?_drop, hlooked]
    exact Session.update_get?_pollCall c.session id call
  · rename_i going
    have hcrash : p.outcome.any (·.isCrash) = false := by
      cases ho : p.outcome with
      | none => rfl
      | some o =>
        rw [ho] at going
        cases o with
        | pending => rfl
        | _ => exact absurd rfl going
    have hkept : (c.session.pollKept id call now waker ⟨none, reply⟩).1.outcome = p.outcome := rfl
    have hpolled : (c.polled id call now waker reply).session =
        (c.session.pollKept id call now waker ⟨none, reply⟩).2 := by
      simp only [polled, Session.pollCall, hkept, hcrash, Bool.false_eq_true, if_false]
    rw [hlooked, hpolled]
    exact Session.get?_pollKept c.session id call

theorem calls_pollCall_of_ended {o : Outcome ν ε ω}
    (outcome : (c.store.poll call now waker ⟨none, reply⟩).outcome = some o)
    (ended : o ≠ .pending) :
    (c.pollCall id call now waker reply).cache.session.calls.get? =
      Function.update c.session.calls.get? id none := by
  have hover : isOver (some o) = true := by
    cases o with
    | pending => exact absurd rfl ended
    | _ => rfl
  have hcalls := c.calls_pollCall id call now waker reply
  simp only [outcome, hover, if_true] at hcalls
  exact hcalls

/-- The calls under way after a poll of one of them that is pending: that call, and the others. -/
theorem pending_pollCall (hs : c.session.Orderly) (hc : c.session.Admits id call)
    {i : ι} {d : Call κ ε ω}
    (hd : (c.pollCall id call now waker reply).cache.session.calls.get? i = some d) :
    let s' := (c.pollCall id call now waker reply).cache.store
    i ≠ id ∧ c.session.calls.get? i = some d ∨
      i = id ∧ ((∃ f, d.phase = .loading f) ∨
        ∃ armed f, d.phase = .waiting armed f ∧ s'.IsAloft f ∧ waker ∈ (s'.flight f).waiting) := by
  intro s'
  have hpolled : Store.Polled now waker ⟨none, reply⟩ c.store call _ :=
    Store.polled_poll hs.allAloft call
  obtain ⟨o, outcome⟩ := hpolled.outcome_ne_none
  by_cases pending : o = .pending
  · subst pending
    have hsession : (c.pollCall id call now waker reply).cache.session = _ :=
      session_pollCall_of_pending outcome
    have hstore : s' = (c.session.pollKept id call now waker ⟨none, reply⟩).2.store :=
      congrArg Session.store hsession
    rw [hsession] at hd
    by_cases hi : i = id
    · subst hi
      rw [hstore]
      exact .inr ⟨rfl, Session.pending_pollKept hc hs outcome d hd⟩
    · rw [Session.get?_pollKept, Function.update_of_ne hi] at hd
      exact .inl ⟨hi, hd⟩
  · rw [calls_pollCall_of_ended outcome pending] at hd
    rcases update_eq_some hd with ⟨-, hd⟩ | hd
    · cases hd
    · exact .inl hd

variable {c' : Cache ι κ ν ε ω} {e : CacheEvent ι κ ν ε ω} {woken : List ω}

omit [DecidableEq ω] in
theorem session_beginGet (c : Cache ι κ ν ε ω) (id : ι) :
    (c.beginGet id).session = (c.session.drop id).2 := rfl

omit [DecidableEq ω] in
theorem admits_beginGet (c : Cache ι κ ν ε ω) (id : ι) (k : κ) :
    (c.beginGet id).session.Admits id (.start k) := by
  refine .fresh ?_ k
  rw [session_beginGet, Session.get?_drop, Function.update_self]

theorem Effect.proceeds (h : Effect c now e woken c') : c.session.Proceeds c'.session woken := by
  cases h with
  | get id k waker reply =>
    exact (c.session.proceeds_drop id).trans (proceeds_pollCall (admits_beginGet c id k))
  | poll waker reply present => exact proceeds_pollCall (.present present)
  | absent => exact .refl _
  | drop id => exact c.proceeds_dropCall id
  | change reaction => exact (quiet_change reaction).proceeds
  | discard k => exact (quiet_discard c k).proceeds
  | clear => exact (quiet_clear c).proceeds
  | runRenewal outstanding => exact (quiet_runRenewal outstanding).proceeds
  | @dropRenewal n r outstanding => exact (quiet_closeRenewal c n r).proceeds
  | setExecutor => exact .refl _
  | nothing => exact .refl _

/-- A get under way after an event has been polled by it and is pending, or was under way before and
has not been polled. -/
theorem Effect.pending (h : Effect c now e woken c') (hs : c.session.Orderly) {i : ι}
    {d : Call κ ε ω} (hd : c'.session.calls.get? i = some d) :
    e.waker? i = none ∧ c.session.calls.get? i = some d ∨
      (∃ f, d.phase = .loading f) ∨
      ∃ armed f w, d.phase = .waiting armed f ∧ e.waker? i = some w ∧ c'.store.IsAloft f ∧
        w ∈ (c'.store.flight f).waiting := by
  have hquiet : c.Quiet c' → (∀ id, e.waker? id = none) →
      e.waker? i = none ∧ c.session.calls.get? i = some d := by
    intro hq hnone
    rw [hq.calls_eq] at hd
    exact ⟨hnone i, hd⟩
  cases h with
  | get id k waker reply =>
    have hs' : (c.beginGet id).session.Orderly := (c.session.settles_drop id).orderly hs
    rcases pending_pollCall hs' (admits_beginGet c id k) hd with
      ⟨hi, hd⟩ | ⟨rfl, hload | ⟨armed, f, hphase, haloft, hw⟩⟩
    · rw [session_beginGet, Session.get?_drop, Function.update_of_ne hi] at hd
      exact .inl ⟨if_neg (Ne.symm hi), hd⟩
    · exact .inr (.inl hload)
    · exact .inr (.inr ⟨armed, f, waker, hphase, if_pos rfl, haloft, hw⟩)
  | @poll id call waker reply present =>
    rcases pending_pollCall hs (.present present) hd with
      ⟨hi, hd⟩ | ⟨rfl, hload | ⟨armed, f, hphase, haloft, hw⟩⟩
    · exact .inl ⟨if_neg (Ne.symm hi), hd⟩
    · exact .inr (.inl hload)
    · exact .inr (.inr ⟨armed, f, waker, hphase, if_pos rfl, haloft, hw⟩)
  | @absent id waker reply none =>
    refine .inl ⟨if_neg ?_, hd⟩
    rintro rfl
    rw [none] at hd
    cases hd
  | drop id =>
    have hdrop : (c.dropCall id).2.session = (c.session.drop id).2 := rfl
    rw [hdrop, Session.get?_drop] at hd
    rcases update_eq_some hd with ⟨-, hd⟩ | ⟨-, hd⟩
    · cases hd
    · exact .inl ⟨rfl, hd⟩
  | change reaction => exact .inl (hquiet (quiet_change reaction) fun _ => rfl)
  | discard k => exact .inl (hquiet (quiet_discard c k) fun _ => rfl)
  | clear => exact .inl (hquiet (quiet_clear c) fun _ => rfl)
  | runRenewal outstanding => exact .inl (hquiet (quiet_runRenewal outstanding) fun _ => rfl)
  | @dropRenewal n r outstanding => exact .inl (hquiet (quiet_closeRenewal c n r) fun _ => rfl)
  | setExecutor => exact .inl (hquiet (quiet_of_session_eq rfl) fun _ => rfl)
  | nothing poll => exact .inl (hquiet (.refl c) poll)

end ReadThrough.Cache
