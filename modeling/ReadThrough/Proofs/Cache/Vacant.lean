import ReadThrough.Proofs.Cache.Queries

/-!
# Keys without an entry

A key that has no entry gets one by a get for it, and by nothing else: a renewal only replaces what
is stored. So until such a get is polled the key has none, and this poll finds none either. It waits
for the get that loads the key already, or runs a load itself. Only a get that has been waiting for
a load which has failed meanwhile does neither. It returns the failure.
-/

namespace ReadThrough

variable {ι κ ν ε ω : Type} [DecidableEq κ] [DecidableEq ω]

namespace Store

variable {s : Store κ ν ε ω} {now : Instant} {waker : ω} {source : Source ν ε} {k : κ}
  {f : Ref (Flight ε ω)} {p : Progress κ ν ε ω}

/-- What a poll comes to that finds no live entry. -/
inductive Fetched (s : Store κ ν ε ω) (c : Call κ ε ω) (p : Progress κ ν ε ω) : Prop where
  | waits {armed : Bool} {f : Ref (Flight ε ω)} (follows : c.phase.led? = none)
      (registered : s.flight? c.key = some f) (pending : p.outcome = some .pending)
      (call : p.call = ⟨c.key, .waiting armed f⟩)
  | leads (ran : p.ran = true) (led : (∃ f, c.phase.led? = some f) ∨ p.asked = true)
  | shares {f : Ref (Flight ε ω)} {x : ε} (awaited : c.phase.awaited? = some f)
      (failed : (s.flight f).landing = some (.failed x))
      (outcome : p.outcome = some (.sharedFailure f x))

theorem Pass.ran_of_loading (h : Pass s now waker source ⟨k, .loading f⟩ p) : p.ran = true := by
  cases h <;> rfl

theorem Polled.waits_of_aloft {armed : Bool} (h : Polled now waker source s ⟨k, .waiting armed f⟩ p)
    (aloft : (s.flight f).landing = none) :
    p.outcome = some .pending ∧ p.call = ⟨k, .waiting armed f⟩ := by
  cases h with
  | last pass outcome =>
    cases pass with
    | wait => exact ⟨rfl, rfl⟩
    | share landing => cases aloft.symm.trans landing
    | retry => cases outcome
  | next pass outcome _ =>
    cases pass with
    | retry landing => cases aloft.symm.trans landing
    | _ => cases outcome

theorem fetched_start (hs : s.AllAloft) (missing : s.live? k now = none)
    (accepted : source.refusal = none) {c : Call κ ε ω} (key : c.key = k)
    (follows : c.phase.led? = none) : s.Fetched c (s.poll (.start k) now waker source) := by
  subst key
  cases hf : s.flight? c.key with
  | some f =>
    rw [poll_start_of_registered hs missing hf]
    exact .waits follows hf rfl rfl
  | none =>
    rw [poll_start_of_vacant missing hf accepted]
    have hload := pass_runLoad (s.register c.key).2 now waker source c.key (s.register c.key).1
    exact .leads hload.ran_of_loading (.inr rfl)

end Store

namespace Session

variable [DecidableEq ι] {s : Session ι κ ν ε ω} {id : ι} {c : Call κ ε ω} {now : Instant}
  {waker : ω} {source : Source ν ε}

/-- Whoever is polled and finds no live entry waits for a load, runs one, or shares the failure that
he has waited for. -/
theorem Orderly.fetched (hs : s.Orderly) (hk : ∀ k, ¬ s.Stranded k) (hc : s.Admits id c)
    (unfinished : c.phase ≠ .finished) (missing : s.store.live? c.key now = none)
    (accepted : source.refusal = none) : s.store.Fetched c (s.store.poll c now waker source) := by
  have hget : Function.update s.calls.get? id (some c) id = some c := Function.update_self ..
  -- Nobody has asked in vain, as no flight has been left behind.
  have harmed : c.phase.isSpent = false := by
    rw [← Bool.not_eq_true]
    intro spent
    exact hk _ (hc.stranded_iff.mp (Store.Orderly.spent (hc.orderly hs) hget spent))
  have hpolled := hs.polled_poll c now waker source
  obtain ⟨k, phase⟩ := c
  cases phase with
  | lookup armed =>
    obtain rfl : armed = true := by simpa [Phase.isSpent] using harmed
    exact Store.fetched_start hs.allAloft missing accepted rfl rfl
  | waiting armed f =>
    obtain rfl : armed = true := by simpa [Phase.isSpent] using harmed
    cases hlanding : (s.store.flight f).landing with
    | none =>
      obtain ⟨pending, hcall⟩ := hpolled.waits_of_aloft hlanding
      refine .waits rfl ?_ pending hcall
      rcases Store.Orderly.awaited (hc.orderly hs) hget rfl with registered | down
      · exact registered
      · exact absurd hlanding down.landing_ne_none
    | some l =>
      cases l with
      | failed x =>
        rw [Store.poll_eq_of_failed _ _ _ hlanding]
        exact .shares rfl hlanding rfl
      | loaded =>
        rw [Store.poll_eq_start_of_landed hs.allAloft hlanding (by simp)]
        exact Store.fetched_start hs.allAloft missing accepted rfl rfl
      | abandoned =>
        rw [Store.poll_eq_start_of_landed hs.allAloft hlanding (by simp)]
        exact Store.fetched_start hs.allAloft missing accepted rfl rfl
  | loading f => exact .leads hpolled.of_loading.ran_of_loading (.inl ⟨f, rfl⟩)
  | finished => exact absurd rfl unfinished

end Session

namespace Cache

variable [DecidableEq ι]

/-- What the poll of a get comes to that finds no live entry. It waits for the load of another get,
runs one of its own, or returns the failure of the load that it has waited for. -/
inductive Fetches (c : Cache ι κ ν ε ω) (id : ι) (call : Call κ ε ω)
    (served : Served ι κ ν ε ω) : Prop where
  | waits {armed : Bool} {j : ι} {f : Ref (Flight ε ω)} (other : j ≠ id)
      (led : c.session.Leads j call.key f) (pending : served.outcome = some .pending)
      (kept : served.cache.session.calls.get? id = some ⟨call.key, .waiting armed f⟩)
  | leads (ran : served.ran = true) (led : (∃ f, call.phase.led? = some f) ∨ served.asked = true)
  | shares {f : Ref (Flight ε ω)} {x : ε} (awaited : call.phase.awaited? = some f)
      (failed : (c.store.flight f).landing = some (.failed x))
      (outcome : served.outcome = some (.sharedFailure f x))

section Polls

variable {c : Cache ι κ ν ε ω} {id : ι} {call : Call κ ε ω} {now : Instant} {waker : ω}
  {reply : Reply ν ε}

theorem fetches_pollCall (hs : c.session.Orderly) (hk : ∀ k, ¬ c.session.Stranded k)
    (hc : c.session.Admits id call) (unfinished : call.phase ≠ .finished)
    (missing : c.store.live? call.key now = none) :
    Fetches c id call (c.pollCall id call now waker reply) := by
  have hfetched : c.store.Fetched call (c.store.poll call now waker ⟨none, reply⟩) :=
    hs.fetched hk hc unfinished missing rfl
  cases hfetched with
  | @waits armed f follows registered pending hcall =>
    obtain ⟨j, led⟩ := hs.exists_leads (hk _) registered
    have hother : j ≠ id := by
      rintro rfl
      have hled := hc.led.trans led.ledBy_eq
      rw [Option.bind_some, follows] at hled
      cases hled
    have hkept : (c.pollCall id call now waker reply).cache.session.calls.get? id =
        some ⟨call.key, .waiting armed f⟩ := by
      rw [session_pollCall_of_pending pending, Session.get?_pollKept, Function.update_self]
      exact congrArg some hcall
    exact .waits hother led ((outcome_pollCall ..).trans pending) hkept
  | leads ran led =>
    refine .leads ((ran_pollCall ..).trans ran) ?_
    rw [asked_pollCall]
    exact led
  | shares awaited failed outcome =>
    exact .shares awaited failed ((outcome_pollCall ..).trans outcome)

end Polls

section Steps

variable {t : Clocked (Cache ι κ ν ε ω)} {e : CacheEvent ι κ ν ε ω} {k : κ} {r : Ref (Entry ν)}
  {v : Option ν} {time : Instant}

/-- The event polls a get for `k`. -/
def PollsFor (k : κ) (t : Clocked (Cache ι κ ν ε ω)) (e : CacheEvent ι κ ν ε ω) : Prop :=
  ∃ c id call waker reply, Polls t e c id call waker reply ∧ call.key = k

/-- What is brought for a key that has no entry has been brought by a get. -/
theorem pollsFor_of_brings (hsound : t.state.store.Sound) (hleases : t.state.LeasesHeld)
    (absent : t.state.store.slot? k = none) (h : BringsAny k r v time t e) : PollsFor k t e := by
  obtain ⟨q, h⟩ := h
  cases h with
  | get => exact ⟨_, _, _, _, _, .get _ _ _ _, rfl⟩
  | poll present key => exact ⟨_, _, _, _, _, .poll present _ _, key⟩
  | renewal outstanding key result ended =>
    cases applied_runRenewal hleases hsound outstanding result with
    | kept _ _ others => exact absurd ended (others _)
    | removed _ _ ended' => cases ended.symm.trans ended'
    | replaced answer complete =>
      subst answer key
      have hstored := of_decide_eq_true complete.1
      cases absent.symm.trans hstored

theorem slot?_step_eq_none (hs : t.state.session.Orderly) (hsound : t.state.store.Sound)
    (hleases : t.state.LeasesHeld) (absent : t.state.store.slot? k = none)
    (unpolled : ¬ PollsFor k t e) : (step t e).state.store.slot? k = none := by
  rw [Option.eq_none_iff_forall_ne_some]
  intro r hr
  cases hread : read? t e with
  | some q =>
    obtain ⟨-, -, hsheds⟩ := reads_step hs hread
    cases absent.symm.trans (hsheds.slot? hr)
  | none =>
    by_cases hbrings : ∃ j q v time, BringsAny j q v time t e
    · obtain ⟨j, q, v, time, hbrings⟩ := hbrings
      rcases (brings_step hs hsound hleases hbrings).2.slot? hr with ⟨rfl, -⟩ | ⟨-, hr⟩
      · exact unpolled (pollsFor_of_brings hsound hleases absent hbrings)
      · cases absent.symm.trans hr
    · have hsheds := keeps_step hs hsound hleases hread fun j q v time h =>
        hbrings ⟨j, q, v, time, h⟩
      cases absent.symm.trans (hsheds.slot? hr)

end Steps

section Runs

variable (o : Origin κ) (events : List (CacheEvent ι κ ν ε ω)) {k : κ}
  {after : List (CacheEvent ι κ ν ε ω)}

/-- As long as no get for it is polled, a key that has no entry gets none. -/
theorem slot?_run_eq_none
    (absent : (events.foldl step o.start).state.store.slot? k = none)
    (unpolled : ¬ Occurs step (events.foldl step o.start) after (PollsFor k)) :
    (after.foldl step (events.foldl step o.start)).state.store.slot? k = none := by
  induction after using List.reverseRecOn with
  | nil => exact absent
  | append_singleton after e ih =>
    rw [occurs_concat_iff, not_or] at unpolled
    have hs := (settled_run o (events ++ after)).1
    have hsound := sound_run o (events ++ after)
    have hleases := leasesHeld_run o (events ++ after)
    rw [List.foldl_append] at hs hsound hleases
    rw [List.foldl_append]
    exact slot?_step_eq_none hs hsound hleases (ih unpolled.1) unpolled.2

theorem fetches_run {e : CacheEvent ι κ ν ε ω} {c : Cache ι κ ν ε ω} {id : ι} {call : Call κ ε ω}
    {waker : ω} {reply : Reply ν ε}
    (absent : (events.foldl step o.start).state.store.slot? call.key = none)
    (polls : Polls (events.foldl step o.start) e c id call waker reply) :
    Fetches c id call (c.pollCall id call (events.foldl step o.start).now waker reply) := by
  obtain ⟨hs, hk⟩ := settled_run o events
  have hmissing : c.store.live? call.key (events.foldl step o.start).now = none := by
    rw [polls.sameTables.live?_eq, Store.live?, absent]
    rfl
  cases polls with
  | get id k =>
    have hsettles := Session.settles_drop (events.foldl step o.start).state.session id
    exact fetches_pollCall (hsettles.orderly hs) (hsettles.not_stranded hs hk)
      (admits_beginGet _ id k) (by rintro ⟨⟩) hmissing
  | poll present =>
    refine fetches_pollCall hs hk (.present present) ?_ hmissing
    rcases reaches_run o events present with ⟨f, hphase⟩ | ⟨armed, f, w, hphase, -⟩
    · rw [hphase]
      rintro ⟨⟩
    · rw [hphase]
      rintro ⟨⟩

end Runs

end Cache

end ReadThrough
