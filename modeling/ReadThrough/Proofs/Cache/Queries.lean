import ReadThrough.Proofs.Cache.Staleness
import ReadThrough.Proofs.Cache.Wakeups
import ReadThrough.Proofs.Store.Provenance

/-!
# What a cache asks of its source

A cache asks its source in two ways. A get that finds neither a live entry nor a flight leads a
load, and a renewal that starts runs one. Either brings a value for its key if it is answered, and
if the answer is stored. A get that finds a live entry reads it. Nothing else touches the contents
of an entry.
-/

namespace ReadThrough.Cache

variable {ι κ ν ε ω : Type} [DecidableEq ι] [DecidableEq κ] [DecidableEq ω]

/-- A load, named by the flight of the get that leads it or by the number of the renewal that runs
it. -/
inductive Query (ε ω : Type) where
  | load (flight : Ref (Flight ε ω))
  | renewal (number : Nat)
  deriving DecidableEq

def outcome? (t : Clocked (Cache ι κ ν ε ω)) : CacheEvent ι κ ν ε ω → Option (Outcome ν ε ω)
  | .get id k waker reply => (t.state.get id k t.now waker reply).outcome
  | .poll id waker reply => (t.state.poll id t.now waker reply).bind (·.outcome)
  | _ => none

/-- The entry that the event reads: the one that its get finds live. -/
def read? (t : Clocked (Cache ι κ ν ε ω)) (e : CacheEvent ι κ ν ε ω) : Option (Ref (Entry ν)) :=
  (outcome? t e).bind (·.hit?)

/-- The event asks the source for `k`. -/
inductive Begins (k : κ) : Query ε ω → Clocked (Cache ι κ ν ε ω) → CacheEvent ι κ ν ε ω → Prop where
  | get {t : Clocked (Cache ι κ ν ε ω)} {id : ι} {waker : ω} {reply : Reply ν ε}
      (asked : (t.state.get id k t.now waker reply).asked = true) :
      Begins k (.load t.state.store.flights.next) t (.get id k waker reply)
  | poll {t : Clocked (Cache ι κ ν ε ω)} {id : ι} {call : Call κ ε ω} {waker : ω}
      {reply : Reply ν ε} (present : t.state.session.calls.get? id = some call)
      (key : call.key = k) (asked : (t.state.pollCall id call t.now waker reply).asked = true) :
      Begins k (.load t.state.store.flights.next) t (.poll id waker reply)
  | run {t : Clocked (Cache ι κ ν ε ω)} {n : Nat} {p : Renewal κ ν} {reply : Reply ν ε}
      {run : RenewalRun ι κ ν ε ω} (outstanding : t.state.renewals.get? n = some p)
      (key : p.key = k) (result : t.state.runRenewal n t.now reply = some run)
      (asked : run.asked = true) :
      Begins k (.renewal n) t (.runRenewal n reply)

/-- The event completes a query for `k`: the source has answered `v`, possibly that there is
nothing, at the instant `time`, and the answer is stored as the entry `r`. -/
inductive Brings (k : κ) (r : Ref (Entry ν)) : Query ε ω → Option ν → Instant →
    Clocked (Cache ι κ ν ε ω) → CacheEvent ι κ ν ε ω → Prop where
  | get {t : Clocked (Cache ι κ ν ε ω)} {id : ι} {waker : ω} {reply : Reply ν ε} {d : Nat}
      {v : Option ν} (loaded : (t.state.get id k t.now waker reply).outcome = some (.loaded r))
      (answer : reply = .answered d v) :
      Brings k r (.load t.state.store.flights.next) v (t.now + d) t (.get id k waker reply)
  | poll {t : Clocked (Cache ι κ ν ε ω)} {id : ι} {call : Call κ ε ω} {waker : ω}
      {reply : Reply ν ε} {d : Nat} {v : Option ν} {f : Ref (Flight ε ω)}
      (present : t.state.session.calls.get? id = some call) (key : call.key = k)
      (loaded : (t.state.pollCall id call t.now waker reply).outcome = some (.loaded r))
      (answer : reply = .answered d v)
      (led : call.phase.led? = some f ∨
        (t.state.pollCall id call t.now waker reply).asked = true ∧
          f = t.state.store.flights.next) :
      Brings k r (.load f) v (t.now + d) t (.poll id waker reply)
  | renewal {t : Clocked (Cache ι κ ν ε ω)} {n : Nat} {p : Renewal κ ν} {reply : Reply ν ε}
      {run : RenewalRun ι κ ν ε ω} {d : Nat} {v : ν}
      (outstanding : t.state.renewals.get? n = some p) (key : p.key = k)
      (result : t.state.runRenewal n t.now reply = some run)
      (ended : run.ended = some (.renewed r)) (answer : reply = .answered d (some v)) :
      Brings k r (.renewal n) (some v) (t.now + d) t (.runRenewal n reply)

def BringsAny (k : κ) (r : Ref (Entry ν)) (v : Option ν) (time : Instant)
    (t : Clocked (Cache ι κ ν ε ω)) (e : CacheEvent ι κ ν ε ω) : Prop :=
  ∃ q, Brings k r q v time t e

section Upkeep

variable {c : Cache ι κ ν ε ω}

omit [DecidableEq ι] [DecidableEq ω] in
theorem sameRecords_releaseLease (c : Cache ι κ ν ε ω) (r : Ref (Entry ν)) (token : Token) :
    c.store.SameRecords (c.releaseLease r token).store :=
  Store.sameRecords_modifyEntry c.store r fun _ => rfl

omit [DecidableEq ι] [DecidableEq ω] in
theorem sameRecords_schedule (c : Cache ι κ ν ε ω) (k : κ) (r : Ref (Entry ν)) :
    c.store.SameRecords (c.schedule k r).cache.store := by
  have htaken : c.store.SameRecords (c.taken r).store :=
    c.sameRecords_setLease r (.pack c.tokens.next.1 .scheduled)
  cases c.scheduled_schedule k r with
  | busy held eq =>
    rw [eq]
    exact .refl _
  | outstanding present idle running eq =>
    rw [eq]
    exact htaken
  | dropped present idle stopped eq =>
    rw [eq]
    exact htaken.trans (sameRecords_releaseLease _ r _)

omit [DecidableEq ι] [DecidableEq ω] in
theorem sheds_change {k : κ} {now : Instant} {s : Scheduling ι κ ν ε ω}
    (h : c.change k now = some s) : c.store.Sheds s.cache.store := by
  cases reacted_change h with
  | missing missing eq =>
    rw [eq]
    exact .refl _
  | renewed live due eq =>
    rw [eq]
    exact (c.sameRecords_schedule k _).sheds
  | removed live early eq =>
    rw [eq]
    exact Store.sheds_remove c.store k

omit [DecidableEq ι] [DecidableEq ω] in
theorem sheds_renewIfDue (c : Cache ι κ ν ε ω) (k : κ) (outcome : Option (Outcome ν ε ω))
    (now : Instant) : c.store.Sheds (c.renewIfDue k outcome now).cache.store := by
  cases c.tended_renewIfDue k outcome now with
  | kept eq =>
    rw [eq]
    exact .refl _
  | renewed resolved due eq =>
    rw [eq]
    exact (c.sameRecords_schedule k _).sheds

omit [DecidableEq ω] in
theorem sheds_endCall (c : Cache ι κ ν ε ω) (id : ι) (outcome : Option (Outcome ν ε ω)) :
    c.store.Sheds (c.endCall id outcome).2.store := by
  rcases c.endCall_cases id outcome with eq | eq
  · rw [eq]
    exact .refl _
  · rw [eq]
    exact (Session.sameTables_drop c.session id).sheds

theorem sameTables_polled (c : Cache ι κ ν ε ω) (id : ι) (call : Call κ ε ω) (now : Instant)
    (waker : ω) (reply : Reply ν ε) :
    (c.store.poll call now waker ⟨none, reply⟩).store.SameTables
      (c.polled id call now waker reply).store := by
  unfold polled Session.pollCall
  simp only
  split
  · exact Session.sameTables_drop (c.session.pollKept id call now waker ⟨none, reply⟩).2 id
  · exact .refl _

theorem sheds_pollCall (c : Cache ι κ ν ε ω) (id : ι) (call : Call κ ε ω) (now : Instant)
    (waker : ω) (reply : Reply ν ε) :
    (c.store.poll call now waker ⟨none, reply⟩).store.Sheds
      (c.pollCall id call now waker reply).cache.store := by
  have hpolled := (c.sameTables_polled id call now waker reply).sheds
  rw [cache_pollCall]
  exact (hpolled.trans (sheds_renewIfDue _ _ _ _)).trans (sheds_endCall _ id _)

end Upkeep

section Steps

variable {t : Clocked (Cache ι κ ν ε ω)} {e : CacheEvent ι κ ν ε ω} {k : κ} {r : Ref (Entry ν)}
  {v : Option ν} {time : Instant}

omit [DecidableEq ω] in
theorem sameTables_beginGet (c : Cache ι κ ν ε ω) (id : ι) :
    c.store.SameTables (c.beginGet id).store :=
  Session.sameTables_drop c.session id

theorem step_poll {id : ι} {call : Call κ ε ω} {waker : ω} {reply : Reply ν ε}
    (present : t.state.session.calls.get? id = some call) :
    step t (.poll id waker reply) =
      let served := t.state.pollCall id call t.now waker reply
      ⟨timeAfter t.now served.ran reply, served.cache⟩ := by
  simp only [step, perform, poll_of_present present]

theorem step_poll_of_absent {id : ι} {waker : ω} {reply : Reply ν ε}
    (absent : t.state.session.calls.get? id = none) : step t (.poll id waker reply) = t := by
  have hpoll : t.state.poll id t.now waker reply = none := by rw [poll, absent, Option.map_none]
  simp only [step, perform, hpoll]

theorem step_runRenewal {n : Nat} {reply : Reply ν ε} {run : RenewalRun ι κ ν ε ω}
    (result : t.state.runRenewal n t.now reply = some run) :
    step t (.runRenewal n reply) = ⟨timeAfter t.now run.ran reply, run.cache⟩ := by
  simp only [step, perform, result]

theorem now_le_step (t : Clocked (Cache ι κ ν ε ω)) (e : CacheEvent ι κ ν ε ω) :
    t.now ≤ (step t e).now := by
  have hafter : ∀ (ran : Bool) (reply : Reply ν ε), t.now ≤ timeAfter t.now ran reply := by
    intro ran reply
    unfold timeAfter
    split
    · exact Nat.le_add_right _ _
    · exact Nat.le_refl _
  cases e with
  | get id k waker reply => exact hafter _ reply
  | poll id waker reply =>
    cases hc : t.state.session.calls.get? id with
    | none => rw [step_poll_of_absent hc]
    | some call =>
      rw [step_poll hc]
      exact hafter _ reply
  | change k =>
    simp only [step, perform]
    split <;> exact Nat.le_refl _
  | runRenewal n reply =>
    cases hrun : t.state.runRenewal n t.now reply with
    | none => simp only [step, perform, hrun, Nat.le_refl]
    | some run =>
      rw [step_runRenewal hrun]
      exact hafter _ reply
  | dropRenewal n =>
    simp only [step, perform]
    split <;> exact Nat.le_refl _
  | advance elapsed => exact Nat.le_add_right _ _
  | _ => exact Nat.le_refl _

section Polls

variable {c : Cache ι κ ν ε ω} {id : ι} {call : Call κ ε ω} {now : Instant} {waker : ω}
  {reply : Reply ν ε}

theorem polled_store (hs : c.session.Orderly) (call : Call κ ε ω) (now : Instant) (waker : ω)
    (reply : Reply ν ε) : Store.Polled now waker ⟨none, reply⟩ c.store call
      (c.store.poll call now waker ⟨none, reply⟩) :=
  hs.polled_poll call now waker ⟨none, reply⟩

theorem reads_pollCall (hs : c.session.Orderly)
    (hit : (c.pollCall id call now waker reply).outcome = some (.hit r)) :
    c.store.live? call.key now = some r ∧ (c.pollCall id call now waker reply).ran = false ∧
      (c.store.modifyEntry r (·.recordAccess now)).Sheds
        (c.pollCall id call now waker reply).cache.store := by
  rw [outcome_pollCall] at hit
  obtain ⟨hlive, hstore, hran⟩ := (polled_store hs call now waker reply).hit hit
  have hsheds := c.sheds_pollCall id call now waker reply
  rw [hstore] at hsheds
  exact ⟨hlive, (ran_pollCall c id call).trans hran, hsheds⟩

theorem brings_pollCall (hs : c.session.Orderly) (hsound : c.store.Sound) {d : Nat}
    (loaded : (c.pollCall id call now waker reply).outcome = some (.loaded r))
    (answer : reply = .answered d v) :
    (c.pollCall id call now waker reply).ran = true ∧
      c.store.Stocked call.key r v (now + d) (c.pollCall id call now waker reply).cache.store := by
  rw [outcome_pollCall] at loaded
  have hpolled := polled_store hs call now waker reply
  obtain ⟨d', v', hreply, hstocked⟩ := hpolled.stocked hsound.toTidy loaded
  cases answer.symm.trans hreply
  exact ⟨(ran_pollCall c id call).trans (hpolled.ran_of_loaded loaded),
    hstocked.sheds (c.sheds_pollCall id call now waker reply)⟩

theorem keeps_pollCall (hs : c.session.Orderly)
    (unread : (c.pollCall id call now waker reply).outcome.bind (·.hit?) = none)
    (unloaded : ∀ r, (c.pollCall id call now waker reply).outcome ≠ some (.loaded r)) :
    c.store.Sheds (c.pollCall id call now waker reply).cache.store := by
  rw [outcome_pollCall] at unread unloaded
  have hunresolved := Outcome.resolved?_eq_none unread unloaded
  exact ((polled_store hs call now waker reply).sameTables hunresolved).sheds.trans
    (c.sheds_pollCall id call now waker reply)

theorem answered_of_loaded (hs : c.session.Orderly) (hsound : c.store.Sound)
    (loaded : (c.pollCall id call now waker reply).outcome = some (.loaded r)) :
    ∃ d v, reply = .answered d v := by
  rw [outcome_pollCall] at loaded
  obtain ⟨d, v, hreply, -⟩ := (polled_store hs call now waker reply).stocked hsound.toTidy loaded
  exact ⟨d, v, hreply⟩

/-- A load that is stored has been asked for by the same poll, or was led before. -/
theorem led_or_asked_of_loaded (hs : c.session.Orderly)
    (loaded : (c.pollCall id call now waker reply).outcome = some (.loaded r)) :
    (∃ f, call.phase.led? = some f) ∨ (c.pollCall id call now waker reply).asked = true := by
  rw [outcome_pollCall] at loaded
  rw [asked_pollCall]
  exact (polled_store hs call now waker reply).led_or_asked loaded

end Polls

theorem orderly_beginGet {c : Cache ι κ ν ε ω} (hs : c.session.Orderly) (id : ι) :
    (c.beginGet id).session.Orderly :=
  (c.session.settles_drop id).orderly hs

/-- The event polls the call of a get in the cache `c`. This is the cache that the event finds, in
which it begins the get first if need be. -/
inductive Polls (t : Clocked (Cache ι κ ν ε ω)) : CacheEvent ι κ ν ε ω → Cache ι κ ν ε ω → ι →
    Call κ ε ω → ω → Reply ν ε → Prop where
  | get (id : ι) (k : κ) (waker : ω) (reply : Reply ν ε) :
      Polls t (.get id k waker reply) (t.state.beginGet id) id (.start k) waker reply
  | poll {id : ι} {call : Call κ ε ω} (present : t.state.session.calls.get? id = some call)
      (waker : ω) (reply : Reply ν ε) : Polls t (.poll id waker reply) t.state id call waker reply

theorem exists_polls_of_read (hread : read? t e = some r) :
    ∃ c id call waker reply, Polls t e c id call waker reply ∧
      (c.pollCall id call t.now waker reply).outcome = some (.hit r) := by
  cases e with
  | get id k waker reply =>
    exact ⟨_, _, _, _, _, .get id k waker reply, Outcome.bind_hit?_eq_some_iff.mp hread⟩
  | poll id waker reply =>
    cases hc : t.state.session.calls.get? id with
    | none =>
      have hpoll : t.state.poll id t.now waker reply = none := by rw [poll, hc, Option.map_none]
      simp only [read?, outcome?, hpoll] at hread
      cases hread
    | some call =>
      simp only [read?, outcome?, poll_of_present hc, Option.bind_some] at hread
      exact ⟨_, _, _, _, _, .poll hc waker reply, Outcome.bind_hit?_eq_some_iff.mp hread⟩
  | _ => cases hread

namespace Polls

variable {c : Cache ι κ ν ε ω} {id : ι} {call : Call κ ε ω} {waker : ω} {reply : Reply ν ε}
  (h : Polls t e c id call waker reply)

include h

theorem step_eq : step t e =
    let served := c.pollCall id call t.now waker reply
    ⟨timeAfter t.now served.ran reply, served.cache⟩ := by
  cases h with
  | get => rfl
  | poll present => exact step_poll present

theorem read?_eq : read? t e = (c.pollCall id call t.now waker reply).outcome.bind (·.hit?) := by
  cases h with
  | get => rfl
  | poll present => simp only [read?, outcome?, poll_of_present present, Option.bind_some]

omit [DecidableEq ω] in
theorem sameTables : t.state.store.SameTables c.store := by
  cases h with
  | get => exact t.state.sameTables_beginGet id
  | poll => exact .refl _

theorem orderly (hs : t.state.session.Orderly) : c.session.Orderly := by
  cases h with
  | get => exact orderly_beginGet hs id
  | poll => exact hs

omit [DecidableEq ω] in
theorem admits : c.session.Admits id call := by
  cases h with
  | get id k => exact admits_beginGet t.state id k
  | poll present => exact .present present

omit [DecidableEq ω] in
theorem sound (hs : t.state.store.Sound) : c.store.Sound :=
  h.sameTables.changes.sound hs

theorem exists_brings (hs : t.state.session.Orderly) (hsound : t.state.store.Sound)
    (loaded : (c.pollCall id call t.now waker reply).outcome = some (.loaded r)) :
    ∃ v time, BringsAny call.key r v time t e := by
  obtain ⟨d, v, answer⟩ := answered_of_loaded (h.orderly hs) (h.sound hsound) loaded
  refine ⟨v, t.now + d, ?_⟩
  cases h with
  | get => exact ⟨_, .get loaded answer⟩
  | poll present =>
    rcases led_or_asked_of_loaded hs loaded with ⟨f, hf⟩ | hasked
    · exact ⟨_, .poll present rfl loaded answer (.inl hf)⟩
    · exact ⟨_, .poll present rfl loaded answer (.inr ⟨hasked, rfl⟩)⟩

theorem stocked (hs : t.state.session.Orderly) (hsound : t.state.store.Sound) {d : Nat}
    (loaded : (c.pollCall id call t.now waker reply).outcome = some (.loaded r))
    (answer : reply = .answered d v) :
    t.now + d = (step t e).now ∧
      t.state.store.Stocked call.key r v (t.now + d) (step t e).state.store := by
  obtain ⟨hran, hstocked⟩ := brings_pollCall (h.orderly hs) (h.sound hsound) loaded answer
  rw [h.step_eq]
  simp only [hran]
  refine ⟨?_, h.sameTables.stocked hstocked⟩
  rw [answer]
  rfl

theorem keeps (hs : t.state.session.Orderly) (hsound : t.state.store.Sound)
    (hread : read? t e = none) (hbrings : ∀ k r v time, ¬ BringsAny k r v time t e) :
    t.state.store.Sheds (step t e).state.store := by
  rw [h.read?_eq] at hread
  rw [h.step_eq]
  refine h.sameTables.sheds.trans (keeps_pollCall (h.orderly hs) hread fun r loaded => ?_)
  obtain ⟨v, time, hbringsAny⟩ := h.exists_brings hs hsound loaded
  exact hbrings call.key r v time hbringsAny

end Polls

theorem reads_step (hs : t.state.session.Orderly) (hread : read? t e = some r) :
    (∃ k, t.state.store.live? k t.now = some r) ∧ (step t e).now = t.now ∧
      (t.state.store.modifyEntry r (·.recordAccess t.now)).Sheds (step t e).state.store := by
  obtain ⟨c, id, call, waker, reply, polls, hit⟩ := exists_polls_of_read hread
  obtain ⟨hlive, hran, hsheds⟩ := reads_pollCall (polls.orderly hs) hit
  rw [polls.sameTables.live?_eq] at hlive
  rw [polls.step_eq]
  simp only [hran]
  exact ⟨⟨call.key, hlive⟩, rfl, (polls.sameTables.sheds.recordAccess r t.now).trans hsheds⟩

omit [DecidableEq ι] [DecidableEq ω] in
theorem ran_of_renewed {c : Cache ι κ ν ε ω} {n : Nat} {now : Instant} {reply : Reply ν ε}
    {run : RenewalRun ι κ ν ε ω} (result : c.runRenewal n now reply = some run)
    (ended : run.ended = some (.renewed r)) : run.ran = true := by
  have hstarted : ∀ (c : Cache ι κ ν ε ω) p asked,
      (c.runStarted n p asked now reply).ran = true := by
    intro c p asked
    unfold runStarted
    cases reply <;> rfl
  obtain ⟨p, -, resumed⟩ := resumed_runRenewal result
  cases resumed with
  | further running eq =>
    rw [eq]
    exact hstarted _ _ _
  | started waiting started eq =>
    rw [eq]
    exact hstarted _ _ _
  | stale waiting stale eq =>
    rw [eq] at ended
    cases ended

theorem brings_step (hs : t.state.session.Orderly) (hsound : t.state.store.Sound)
    (hleases : t.state.LeasesHeld) (h : BringsAny k r v time t e) :
    time = (step t e).now ∧ t.state.store.Stocked k r v time (step t e).state.store := by
  obtain ⟨q, h⟩ := h
  cases h with
  | get loaded answer => exact (Polls.get _ k _ _).stocked hs hsound loaded answer
  | poll present key loaded answer =>
    exact key ▸ (Polls.poll present _ _).stocked hs hsound loaded answer
  | @renewal _ n p reply run d v outstanding key result ended answer =>
    subst answer
    rw [step_runRenewal result, ran_of_renewed result ended]
    refine ⟨rfl, ?_⟩
    cases applied_runRenewal hleases hsound outstanding result with
    | kept _ _ others => exact absurd ended (others r)
    | removed _ _ ended' => cases ended.symm.trans ended'
    | replaced answer' _ ended' replaced =>
      cases ended.symm.trans ended'
      cases answer'
      exact key ▸ replaced.stocked

theorem keeps_step (hs : t.state.session.Orderly) (hsound : t.state.store.Sound)
    (hleases : t.state.LeasesHeld) (hread : read? t e = none)
    (hbrings : ∀ k r v time, ¬ BringsAny k r v time t e) :
    t.state.store.Sheds (step t e).state.store := by
  cases e with
  | get id k waker reply => exact (Polls.get id k waker reply).keeps hs hsound hread hbrings
  | poll id waker reply =>
    cases hc : t.state.session.calls.get? id with
    | none =>
      rw [step_poll_of_absent hc]
      exact .refl _
    | some call => exact (Polls.poll hc waker reply).keeps hs hsound hread hbrings
  | drop id => exact (Session.sameTables_drop t.state.session id).sheds
  | change k =>
    simp only [step, perform]
    split
    · exact sheds_change ‹_›
    · exact .refl _
  | discard k => exact Store.sheds_remove t.state.store k
  | clear => exact Store.sheds_clear t.state.store
  | runRenewal n reply =>
    cases hrun : t.state.runRenewal n t.now reply with
    | none =>
      simp only [step, perform, hrun]
      exact .refl _
    | some run =>
      obtain ⟨p, hp, -⟩ := Option.map_eq_some_iff.mp hrun
      rw [step_runRenewal hrun]
      cases applied_runRenewal hleases hsound hp hrun with
      | kept _ same => exact same.sheds
      | removed _ _ _ emptied => exact emptied.sheds
      | replaced answer _ ended =>
        exact absurd ⟨_, .renewal hp rfl hrun ended answer⟩ (hbrings p.key _ _ _)
  | dropRenewal n =>
    simp only [step, perform]
    split
    · exact (sameRecords_closeRenewal t.state n _).sheds
    · exact .refl _
  | setExecutor executor => exact .refl _
  | advance elapsed => exact .refl _

theorem history_step (o : Origin κ) :
    History (step (ι := ι) (ν := ν) (ε := ε) (ω := ω)) Cache.store read? BringsAny o.start where
  empty r := Arena.get?_empty r
  sound events := sound_run o events
  timeToLive_eq events := (onward_run o [] events).timeToLive_eq
  clock := now_le_step
  reads events _ _ := reads_step (settled_run o events).1
  brings events _ _ _ _ _ :=
    brings_step (settled_run o events).1 (sound_run o events) (leasesHeld_run o events)
  keeps events _ :=
    keeps_step (settled_run o events).1 (sound_run o events) (leasesHeld_run o events)

end Steps

end ReadThrough.Cache
