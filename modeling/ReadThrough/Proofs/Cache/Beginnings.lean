import ReadThrough.Proofs.Cache.Scheduling

/-!
# When loads begin

The source is asked once for each load, as the load begins. A get that leads a flight has asked
before, and so has a renewal that is running. So whatever is stored has been asked for, at one
moment of the run.
-/

namespace ReadThrough

namespace Store

variable {κ ν ε ω : Type} {s s' : Store κ ν ε ω} {f : Ref (Flight ε ω)}

/-- The flight has been started, and may have landed since. -/
def HasStarted (s : Store κ ν ε ω) (f : Ref (Flight ε ω)) : Prop := s.IsAloft f ∨ s.IsDown f

theorem HasStarted.ne_next (h : s.HasStarted f) : f ≠ s.flights.next :=
  h.elim IsAloft.ne_next IsDown.ne_next

theorem Advances.hasStarted {woken : List ω} (h : s.Advances s' woken) (hf : s.HasStarted f) :
    s'.HasStarted f := by
  rcases hf with haloft | hdown
  · rcases h.aloft haloft with ⟨haloft', -⟩ | ⟨hdown', -⟩
    · exact .inl haloft'
    · exact .inr hdown'
  · exact .inr (h.down hdown)

variable [DecidableEq κ]

theorem hasStarted_register (s : Store κ ν ε ω) (k : κ) :
    (s.register k).2.HasStarted s.flights.next :=
  .inl (by rw [IsAloft, standing?_register, if_pos rfl])

theorem next_abandon (s : Store κ ν ε ω) (c : Call κ ε ω) :
    (s.abandon c).2.flights.next = s.flights.next := by
  unfold abandon
  split
  · rw [flights_concludeFlight, Arena.next_modify]
  · rfl

variable [DecidableEq ω] {now : Instant} {waker : ω} {source : Source ν ε} {c : Call κ ε ω}
  {p : Progress κ ν ε ω}

theorem Polled.key_eq (h : Polled now waker source s c p) : p.call.key = c.key := by
  induction h with
  | last pass _ => exact pass.key_eq
  | next pass _ _ ih => exact ih.trans pass.key_eq

theorem Polled.led (h : Polled now waker source s c p) (led : p.call.phase.led? = some f) :
    c.phase.led? = some f ∨ p.asked = true ∧ f = s.flights.next := by
  induction h with
  | last pass outcome =>
    cases pass with
    | park => exact .inl led
    | overflow => exact .inl led
    | crash => exact .inl led
    | lead => cases outcome
    | _ => cases led
  | next pass outcome rest ih =>
    cases pass with
    | join | retry =>
      rcases ih led with hled | hnew
      · cases hled
      · exact .inr hnew
    | @lead k =>
      rcases ih led with hled | ⟨hasked, -⟩
      · cases hled
        exact .inr ⟨rfl, rfl⟩
      · cases (flight?_register_self _ k).symm.trans (rest.asked hasked).2
    | _ => cases outcome

theorem Polled.hasStarted {ι : Type} [DecidableEq ι] {calls : ι → Option (Call κ ε ω)} {id : ι}
    (hs : s.Orderly calls) (hc : calls id = some c) (h : Polled now waker source s c p)
    (asked : p.asked = true) : p.store.HasStarted s.flights.next := by
  induction h generalizing calls with
  | last pass outcome =>
    cases pass with
    | refuse => exact hasStarted_register _ _
    | lead => cases outcome
    | _ => cases asked
  | @next s c p q pass outcome rest ih =>
    have hafter := hs.traffic hc pass.traffic
    have hget : Function.update calls id (some p.call) id = some p.call := Function.update_self ..
    cases pass with
    | join | retry => exact ih hafter hget asked
    | lead => exact (hafter.advances_polled hget rest).hasStarted (hasStarted_register _ _)
    | _ => cases outcome

end Store

namespace Cache

variable {ι κ ν ε ω : Type} [DecidableEq ι] [DecidableEq κ] [DecidableEq ω]

section Polls

variable {c : Cache ι κ ν ε ω} {id : ι} {call : Call κ ε ω} {now : Instant} {waker : ω}
  {reply : Reply ν ε}

/-- Whoever leads a flight after a poll has led it before, or it is the one that the poll has asked
for. -/
theorem leads_pollCall (hs : c.session.Orderly) (hc : c.session.Admits id call) {i : ι} {k : κ}
    {f : Ref (Flight ε ω)}
    (leads : (c.pollCall id call now waker reply).cache.session.Leads i k f) :
    c.session.Leads i k f ∨ call.key = k ∧
      (c.pollCall id call now waker reply).asked = true ∧ f = c.store.flights.next := by
  have hpolled := polled_store hs call now waker reply
  obtain ⟨o, outcome⟩ := hpolled.outcome_ne_none
  by_cases pending : o = .pending
  · subst pending
    rw [Session.Leads, session_pollCall_of_pending outcome, Session.get?_pollKept] at leads
    rcases update_eq_some leads with ⟨rfl, hcall⟩ | ⟨-, leads⟩
    · have hcall' : (c.store.poll call now waker ⟨none, reply⟩).call = ⟨k, .loading f⟩ :=
        Option.some.inj hcall
      have hkey : call.key = k := by rw [← hpolled.key_eq, hcall']
      have hled : (c.store.poll call now waker ⟨none, reply⟩).call.phase.led? = some f := by
        rw [hcall']
        rfl
      rcases hpolled.led hled with hled | ⟨hasked, hf⟩
      · left
        rw [Phase.led?_eq_some_iff] at hled
        cases hc with
        | present hcall =>
          rw [Session.Leads, hcall, ← hled, ← hkey]
        | fresh => cases hled
      · exact .inr ⟨hkey, (asked_pollCall c i call).trans hasked, hf⟩
    · exact .inl leads
  · rw [Session.Leads, calls_pollCall_of_ended outcome pending] at leads
    rcases update_eq_some leads with ⟨-, hnone⟩ | ⟨-, leads⟩
    · cases hnone
    · exact .inl leads

theorem not_leads_of_loaded (hs : c.session.Orderly) (hc : c.session.Admits id call)
    {r : Ref (Entry ν)}
    (loaded : (c.pollCall id call now waker reply).outcome = some (.loaded r)) {i : ι}
    {f : Ref (Flight ε ω)} :
    ¬ (c.pollCall id call now waker reply).cache.session.Leads i call.key f := by
  intro leads
  have hpolled := polled_store hs call now waker reply
  rw [outcome_pollCall] at loaded
  rw [Session.Leads, calls_pollCall_of_ended loaded (by simp)] at leads
  rcases update_eq_some leads with ⟨-, hnone⟩ | ⟨hne, leads⟩
  · cases hnone
  · have hregistered := hs.registered leads
    rcases hpolled.led_or_asked loaded with ⟨g, hg⟩ | hasked
    · cases hc with
      | present hcall =>
        rw [Phase.led?_eq_some_iff] at hg
        have hleads : c.session.Leads id call.key g := by rw [Session.Leads, hcall, ← hg]
        exact hne (hs.leads_unique leads hleads)
      | fresh => cases hg
    · cases hregistered.symm.trans (hpolled.asked hasked).2

theorem proceeds_of_pollKept (c : Cache ι κ ν ε ω) (id : ι) (call : Call κ ε ω) (now : Instant)
    (waker : ω) (reply : Reply ν ε) :
    ∃ woken, (c.session.pollKept id call now waker ⟨none, reply⟩).2.Proceeds
      (c.pollCall id call now waker reply).cache.session woken := by
  have hkept : ∃ woken, (c.session.pollKept id call now waker ⟨none, reply⟩).2.Proceeds
      (c.polled id call now waker reply).session woken := by
    unfold polled Session.pollCall
    simp only
    split
    · exact ⟨_, Session.proceeds_drop _ id⟩
    · exact ⟨_, .refl _⟩
  obtain ⟨woken, hkept⟩ := hkept
  have hupkeep := (c.quiet_lookedAfter id call now waker reply).proceeds
  rw [cache_pollCall]
  exact ⟨_, (hkept.trans hupkeep).trans (proceeds_endCall _ id _)⟩

theorem hasStarted_pollCall (hs : c.session.Orderly) (hc : c.session.Admits id call)
    (asked : (c.pollCall id call now waker reply).asked = true) :
    (c.pollCall id call now waker reply).cache.store.HasStarted c.store.flights.next := by
  rw [asked_pollCall] at asked
  have hkept := (polled_store hs call now waker reply).hasStarted (hc.orderly hs)
    (Function.update_self ..) asked
  have horderly : (c.session.pollKept id call now waker ⟨none, reply⟩).2.Orderly :=
    (Session.proceeds_pollKept hc).settles.orderly hs
  obtain ⟨woken, hproceeds⟩ := c.proceeds_of_pollKept id call now waker reply
  exact (hproceeds.advances horderly).hasStarted hkept

end Polls

section Steps

variable {t : Clocked (Cache ι κ ν ε ω)} {e : CacheEvent ι κ ν ε ω} {k : κ} {q : Query ε ω}
  {f : Ref (Flight ε ω)}

omit [DecidableEq ω] in
theorem next_beginGet (c : Cache ι κ ν ε ω) (id : ι) :
    (c.beginGet id).store.flights.next = c.store.flights.next := by
  have hstore : (c.beginGet id).store = (c.session.drop id).2.store := rfl
  rw [hstore]
  cases hc : c.session.calls.get? id with
  | none =>
    rw [Session.drop_of_absent hc]
    rfl
  | some call =>
    rw [Session.drop_of_present hc]
    exact c.store.next_abandon call

/-- The load has been begun: its flight has been started, or its renewal does not wait any more. -/
def HasBegun (c : Cache ι κ ν ε ω) : Query ε ω → Prop
  | .load f => c.store.HasStarted f
  | .renewal n => n < c.nextRenewal ∧ ∀ p, c.renewals.get? n = some p → p.running = true

theorem Begins.not_hasBegun (h : Begins k q t e) : ¬ t.state.HasBegun q := by
  cases h with
  | get => exact fun hstarted => hstarted.ne_next rfl
  | poll => exact fun hstarted => hstarted.ne_next rfl
  | run _ _ result asked =>
    rintro ⟨-, running⟩
    obtain ⟨⟨p, hp, waiting⟩, -⟩ := starts_of_asked result asked
    cases waiting.symm.trans (running p hp)

theorem Begins.hasBegun (hs : t.state.session.Orderly) (hleases : t.state.LeasesHeld)
    (h : Begins k q t e) : (step t e).state.HasBegun q := by
  cases h with
  | @get _ id waker reply asked =>
    have hadmits := admits_beginGet t.state id k
    have hstarted := hasStarted_pollCall (orderly_beginGet hs id) hadmits asked
    rw [next_beginGet] at hstarted
    exact hstarted
  | poll present _ asked =>
    rw [step_poll present]
    exact hasStarted_pollCall hs (.present present) asked
  | run outstanding _ result asked =>
    rw [step_runRenewal result]
    have hnumber := hleases.numbered outstanding
    have hnext := (follows_runRenewal result).next_le
    exact ⟨Nat.lt_of_lt_of_le hnumber hnext, (starts_of_asked result asked).2⟩

theorem HasBegun.step (hs : t.state.session.Orderly) (hsound : t.state.store.Sound)
    (h : t.state.HasBegun q) (e : CacheEvent ι κ ν ε ω) : (step t e).state.HasBegun q := by
  have heffect := effect_perform t e
  cases q with
  | load f => exact (heffect.proceeds.advances hs).hasStarted h
  | renewal n =>
    refine ⟨Nat.lt_of_lt_of_le h.1 heffect.follows.next_le, fun p hp => ?_⟩
    cases outstanding_step hs hsound hp with
    | kept before => exact h.2 p before
    | started _ _ _ running => exact running
    | scheduled number => exact absurd h.1 (Nat.not_lt_of_le (Nat.le_of_eq number.symm))

def isQuiet : CacheEvent ι κ ν ε ω → Bool
  | .get .. => false
  | .poll .. => false
  | .drop .. => false
  | _ => true

theorem Effect.quiet {c c' : Cache ι κ ν ε ω} {now : Instant} {woken : List ω}
    (h : Effect c now e woken c') (quiet : isQuiet e = true) : c.Quiet c' := by
  cases h with
  | get => cases quiet
  | poll => cases quiet
  | absent => cases quiet
  | drop => cases quiet
  | change reaction => exact quiet_change reaction
  | discard k => exact quiet_discard c k
  | clear => exact quiet_clear c
  | runRenewal outstanding => exact quiet_runRenewal outstanding
  | @dropRenewal n r => exact quiet_closeRenewal c n r
  | setExecutor => exact quiet_of_session_eq rfl
  | nothing => exact .refl c

theorem quiet_step (t : Clocked (Cache ι κ ν ε ω)) (quiet : isQuiet e = true) :
    t.state.Quiet (step t e).state :=
  (effect_perform t e).quiet quiet

theorem leads_step (hs : t.state.session.Orderly) {i : ι}
    (leads : (step t e).state.session.Leads i k f) :
    t.state.session.Leads i k f ∨ Begins k (.load f) t e := by
  cases e with
  | get id j waker reply =>
    rcases leads_pollCall (orderly_beginGet hs id) (admits_beginGet t.state id j) leads with
      leads | ⟨rfl, asked, rfl⟩
    · exact .inl leads.of_drop
    · rw [next_beginGet]
      exact .inr (.get asked)
  | poll id waker reply =>
    cases hc : t.state.session.calls.get? id with
    | none =>
      rw [step_poll_of_absent hc] at leads
      exact .inl leads
    | some call =>
      rw [step_poll hc] at leads
      rcases leads_pollCall hs (.present hc) leads with leads | ⟨key, asked, rfl⟩
      · exact .inl leads
      · exact .inr (.poll hc key asked)
  | drop id => exact .inl leads.of_drop
  | _ =>
    rw [Session.Leads, (quiet_step t rfl).calls_eq] at leads
    exact .inl leads

end Steps

section Runs

variable {o : Origin κ} {events : List (CacheEvent ι κ ν ε ω)} {m n : Nat} {j k : κ}
  {q : Query ε ω} {i : ι} {f : Ref (Flight ε ω)}

/-- Each load begins only once, and for one key. -/
theorem begins_once (hm : OccursAt step o.start events m (Begins j q))
    (hn : OccursAt step o.start events n (Begins k q)) : m = n := by
  have hbegun : ∀ {m : Nat} {k : κ}, OccursAt step o.start events m (Begins k q) →
      OccursAt step o.start events m fun t e => ∃ k, Begins k q t e :=
    fun h => h.imp fun hbegins => ⟨_, hbegins⟩
  refine (hbegun hm).unique (hbegun hn) (motive := fun t => t.state.HasBegun q) ?_ ?_ ?_
  · rintro _ _ ⟨_, h⟩
    exact h.hasBegun (settled_run o _).1 (leasesHeld_run o _)
  · exact fun _ e h => h.step (settled_run o _).1 (sound_run o _) e
  · rintro _ _ ⟨_, h⟩
    exact h.not_hasBegun

theorem begins_of_leads (leads : (stateAt step o.start events n).state.session.Leads i k f) :
    ∃ m < n, OccursAt step o.start events m (Begins k (.load f)) :=
  exists_occursAt (motive := fun t => t.state.session.Leads i k f) (fun h => nomatch h)
    (fun _ _ h => leads_step (settled_run o _).1 h) leads

/-- From where its load begins until its flight is led the get has led it all the time. -/
theorem leads_since (begun : OccursAt step o.start events m (Begins k (.load f))) (lt : m < n)
    {d : Nat} (leads : (stateAt step o.start events (n + d)).state.session.Leads i k f) :
    (stateAt step o.start events n).state.session.Leads i k f := by
  induction d with
  | zero => exact leads
  | succ d ih =>
    rw [← Nat.add_assoc] at leads
    cases he : events[n + d]? with
    | none =>
      rw [stateAt_succ_of_none he] at leads
      exact ih leads
    | some e =>
      rw [stateAt_succ he] at leads
      rcases leads_step (settled_run o _).1 leads with leads | hagain
      · exact ih leads
      · have hsame := begins_once begun ⟨e, he, hagain⟩
        omega

theorem begins_of_running {number : Nat} {p : Renewal κ ν}
    (outstanding : (stateAt step o.start events n).state.renewals.get? number = some p)
    (running : p.running = true) :
    ∃ m < n, OccursAt step o.start events m (Begins p.key (.renewal number)) := by
  refine exists_occursAt (motive := fun t => ∃ q, t.state.renewals.get? number = some q ∧
    q.key = p.key ∧ q.running = true) ?_ ?_ ⟨p, outstanding, rfl, running⟩
  · rintro ⟨q, hq, -⟩
    cases hq
  · rintro n e ⟨q, hq, hkey, hrunning⟩
    cases outstanding_step (settled_run o _).1 (sound_run o _) hq with
    | kept before => exact .inl ⟨q, before, hkey, hrunning⟩
    | started _ _ _ _ begins => exact .inr (hkey ▸ begins)
    | scheduled _ waiting => cases waiting.symm.trans hrunning

end Runs

end Cache

end ReadThrough
