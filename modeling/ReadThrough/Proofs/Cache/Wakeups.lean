import ReadThrough.Proofs.Cache.Gets

/-!
# No lost wakeup and no wedged key

A get that is pending either runs the load of its key or waits for the get that does. In the latter
case the waker of its latest poll is kept with the flight, or has been fired by the landing. So once
nobody loads a key, the next poll of any get for that key does not wait.
-/

namespace ReadThrough.Cache

variable {ι κ ν ε ω : Type} [DecidableEq ι] [DecidableEq κ] [DecidableEq ω]

def lastWaker (id : ι) (events : List (CacheEvent ι κ ν ε ω)) : Option ω :=
  (events.filterMap (·.waker? id)).getLast?

/-- The event lands `f` and fires `w`, which has been left with it. -/
def Fires (f : Ref (Flight ε ω)) (w : ω) (t : Clocked (Cache ι κ ν ε ω))
    (e : CacheEvent ι κ ν ε ω) : Prop :=
  t.state.store.IsAloft f ∧ w ∈ (t.state.store.flight f).waiting ∧
    (step t e).state.store.IsDown f ∧ w ∈ (perform t e).1

/-- The waker `w` is still with the flight, or a landing in the course of the run has fired it. -/
def Reaches (start : Clocked (Cache ι κ ν ε ω)) (events : List (CacheEvent ι κ ν ε ω))
    (f : Ref (Flight ε ω)) (w : ω) : Prop :=
  let s := (events.foldl step start).state.store
  s.IsAloft f ∧ w ∈ (s.flight f).waiting ∨ s.IsDown f ∧ Occurs step start events (Fires f w)

omit [DecidableEq κ] [DecidableEq ω] in
theorem lastWaker_concat (id : ι) (events : List (CacheEvent ι κ ν ε ω))
    (e : CacheEvent ι κ ν ε ω) :
    lastWaker id (events ++ [e]) = (e.waker? id).or (lastWaker id events) := by
  rw [lastWaker, List.filterMap_append, List.getLast?_append]
  cases h : e.waker? id <;> simp [h, lastWaker]

theorem Reaches.concat {start : Clocked (Cache ι κ ν ε ω)} {events : List (CacheEvent ι κ ν ε ω)}
    {f : Ref (Flight ε ω)} {w : ω} (h : Reaches start events f w)
    (hs : (events.foldl step start).state.session.Orderly) (e : CacheEvent ι κ ν ε ω) :
    Reaches start (events ++ [e]) f w := by
  have hadv := (effect_perform (events.foldl step start) e).proceeds.advances hs
  rw [Reaches, List.foldl_append]
  rcases h with ⟨haloft, hw⟩ | ⟨hdown, hfired⟩
  · rcases hadv.aloft haloft with ⟨haloft', hsub⟩ | ⟨hdown', hsub⟩
    · exact .inl ⟨haloft', hsub hw⟩
    · exact .inr ⟨hdown', occurs_concat_iff.mpr (.inr ⟨haloft, hw, hdown', hsub hw⟩)⟩
  · exact .inr ⟨hadv.down hdown, occurs_concat_iff.mpr (.inl hfired)⟩

variable (o : Origin κ) (events : List (CacheEvent ι κ ν ε ω))

theorem settled_run :
    (events.foldl step o.start).state.session.Orderly ∧
      ∀ k, ¬ (events.foldl step o.start).state.session.Stranded k := by
  induction events using List.reverseRecOn with
  | nil =>
    have hvacant := Store.flight?_ofLayout (ν := ν) (ε := ε) (ω := ω) o.layout o.hash
    exact ⟨Session.orderly_ofStore hvacant, Session.not_stranded_ofStore hvacant⟩
  | append_singleton events e ih =>
    rw [List.foldl_append]
    have hsettles := (effect_perform (events.foldl step o.start) e).proceeds.settles
    exact ⟨hsettles.orderly ih.1, hsettles.not_stranded ih.1 ih.2⟩

/-- A get under way is loading, or the waker of its latest poll reaches it. -/
theorem reaches_run {i : ι} {d : Call κ ε ω}
    (hd : (events.foldl step o.start).state.session.calls.get? i = some d) :
    (∃ f, d.phase = .loading f) ∨
      ∃ armed f w, d.phase = .waiting armed f ∧ lastWaker i events = some w ∧
        Reaches o.start events f w := by
  induction events using List.reverseRecOn with
  | nil => cases hd
  | append_singleton events e ih =>
    have hs := (settled_run o events).1
    have heffect := effect_perform (events.foldl step o.start) e
    rw [List.foldl_append] at hd
    rcases heffect.pending hs hd with ⟨hnone, hd⟩ | hload | ⟨armed, f, w, hphase, hw, haloft, hmem⟩
    · rcases ih hd with hload | ⟨armed, f, w, hphase, hw, hreaches⟩
      · exact .inl hload
      · refine .inr ⟨armed, f, w, hphase, ?_, hreaches.concat hs e⟩
        rw [lastWaker_concat, hnone, Option.none_or, hw]
    · exact .inl hload
    · refine .inr ⟨armed, f, w, hphase, ?_, ?_⟩
      · rw [lastWaker_concat, hw, Option.some_or]
      · rw [Reaches, List.foldl_append]
        exact .inl ⟨haloft, hmem⟩

/-- How a poll of the get `id` ends that has nobody to wait for: with a live entry, with the failure
that it has waited for, or with a load of its own, which it leads as long as that is pending. -/
inductive Unhindered (id : ι) (call : Call κ ε ω) (served : Served ι κ ν ε ω) : Prop where
  | found {r : Ref (Entry ν)} (outcome : served.outcome = some (.hit r))
  | shared {f : Ref (Flight ε ω)} {x : ε} (awaited : call.phase.awaited? = some f)
      (outcome : served.outcome = some (.sharedFailure f x))
  | led (asked : served.asked = true) (ran : served.ran = true)
      (leads : served.outcome = some .pending →
        ∃ f, served.cache.session.Leads id call.key f)

theorem unhindered_pollCall {c : Cache ι κ ν ε ω} {id : ι} {call : Call κ ε ω} {now : Instant}
    {waker : ω} {reply : Reply ν ε} (hs : c.session.Orderly)
    (hk : ∀ k, ¬ c.session.Stranded k) (hc : c.session.Admits id call)
    (unfinished : call.phase ≠ .finished) (idle : c.session.IsIdle call.key) :
    Unhindered id call (c.pollCall id call now waker reply) := by
  have hget : Function.update c.session.calls.get? id (some call) id = some call :=
    Function.update_self ..
  have hvacant : c.store.flight? call.key = none := hs.flight?_eq_none (hk _) idle
  have hunspent : call.phase.isSpent = false := by
    rw [← Bool.not_eq_true]
    intro spent
    exact hk _ (hc.stranded_iff.mp (Store.Orderly.spent (hc.orderly hs) hget spent))
  have hpolled : Store.Unhindered call (c.store.poll call now waker ⟨none, reply⟩) := by
    refine (Store.polled_poll hs.allAloft call).unhindered hvacant rfl
      (Store.Orderly.led?_eq_none (hc.orderly hs) hget hvacant) unfinished hunspent fun f hf => ?_
    refine (Store.Orderly.awaited (hc.orderly hs) hget hf).resolve_left fun registered => ?_
    cases hvacant.symm.trans registered
  cases hpolled with
  | found outcome => exact .found ((outcome_pollCall ..).trans outcome)
  | shared awaited outcome => exact .shared awaited ((outcome_pollCall ..).trans outcome)
  | led asked ran leads =>
    refine .led ((asked_pollCall ..).trans asked) ((ran_pollCall ..).trans ran) fun pending => ?_
    rw [outcome_pollCall] at pending
    obtain ⟨f, hf⟩ := leads pending
    refine ⟨f, ?_⟩
    rw [session_pollCall_of_pending pending, Session.Leads, Session.get?_pollKept,
      Function.update_self]
    exact congrArg some hf

/-- In the state `t`, which `events` lead to, no waker is lost and no key is wedged. A get under way
leads the flight of its key, or waits for one that keeps the waker of its latest poll or has fired
it. If no get leads a flight for a key there is none, and neither a new get for the key has to wait,
nor one that is polled again. -/
structure NoLostWakeup (start : Clocked (Cache ι κ ν ε ω)) (events : List (CacheEvent ι κ ν ε ω))
    (t : Clocked (Cache ι κ ν ε ω)) : Prop where
  attended : ∀ i c, t.state.session.calls.get? i = some c →
    (∃ f, c.phase = .loading f ∧ t.state.store.flight? c.key = some f) ∨
    ∃ armed f w, c.phase = .waiting armed f ∧ lastWaker i events = some w ∧
      (t.state.session.Parked i c.key f w ∨
        t.state.store.IsDown f ∧ Occurs step start events (Fires f w))
  vacant : ∀ k, t.state.session.IsIdle k → t.state.store.flight? k = none
  get_resolves : ∀ k i waker reply, t.state.session.IsIdle k →
    Unhindered i (.start k) (t.state.get i k t.now waker reply)
  poll_resolves : ∀ i c waker reply, t.state.session.calls.get? i = some c →
    t.state.session.IsIdle c.key →
      ∃ served, t.state.poll i t.now waker reply = some served ∧ Unhindered i c served

/-- Whatever happens to a cache, the gets that wait are woken, and keys without a leader are
free. -/
theorem no_lost_wakeup : NoLostWakeup o.start events (events.foldl step o.start) := by
  obtain ⟨hs, hk⟩ := settled_run o events
  constructor
  case attended =>
    intro i c hc
    rcases reaches_run o events hc with ⟨f, hphase⟩ | ⟨armed, f, w, hphase, hlast, hreaches⟩
    · have hled : c.phase.led? = some f := by rw [hphase]; rfl
      exact .inl ⟨f, hphase, Store.Orderly.registered hs hc hled⟩
    · refine .inr ⟨armed, f, w, hphase, hlast, ?_⟩
      rcases hreaches with ⟨haloft, hw⟩ | hfired
      · exact .inl (Session.parked_of_waiting hs hk hc hphase haloft hw)
      · exact .inr hfired
  case vacant =>
    intro k idle
    exact hs.flight?_eq_none (hk k) idle
  case get_resolves =>
    intro k i waker reply idle
    have hsettles := Session.settles_drop (events.foldl step o.start).state.session i
    have hbegun : Unhindered i (.start k)
        (((events.foldl step o.start).state.beginGet i).pollCall i (.start k)
          (events.foldl step o.start).now waker reply) :=
      unhindered_pollCall (hsettles.orderly hs) (hsettles.not_stranded hs hk)
        (admits_beginGet _ i k) nofun (idle.drop i)
    rw [get_eq]
    cases hbegun with
    | found outcome => exact .found outcome
    | shared awaited => cases awaited
    | led asked ran leads => exact .led asked ran leads
  case poll_resolves =>
    intro i c waker reply hc idle
    refine ⟨_, poll_of_present hc, unhindered_pollCall hs hk (.present hc) ?_ idle⟩
    rcases reaches_run o events hc with ⟨f, hphase⟩ | ⟨armed, f, w, hphase, -⟩
    · rw [hphase]
      exact nofun
    · rw [hphase]
      exact nofun

end ReadThrough.Cache
