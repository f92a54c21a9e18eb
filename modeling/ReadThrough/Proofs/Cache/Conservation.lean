import Mathlib.Data.Nat.ModEq
import ReadThrough.Proofs.Cache.Answers
import ReadThrough.Proofs.Cache.Deeds

/-!
# The counts of a cache add up

Whatever happens to a cache, its counts are the numbers of the things that have happened, each
counted once and under one heading. All renewals that have been scheduled are outstanding, or have
ended in one of four ways.
-/

namespace ReadThrough.Cache

variable {ι κ ν ε ω : Type}

variable [DecidableEq ι] [DecidableEq κ] [DecidableEq ω]

section Steps

variable {t : Clocked (Cache ι κ ν ε ω)} {e : CacheEvent ι κ ν ε ω} {n : Nat} {k : κ}

section Polls

variable {c : Cache ι κ ν ε ω} {id : ι} {call : Call κ ε ω} {waker : ω} {reply : Reply ν ε}
  (h : Polls t e c id call waker reply)

include h

theorem Polls.flightsSince (hs : t.state.session.Orderly)
    (led : ∀ k, ¬ t.state.session.Stranded k) :
    t.state.store.FlightsSince (deeds t e).loads (deeds t e).loadFailures
      (step t e).state.store := by
  have hbegun : t.state.store.FlightsSince 0 0 c.store := by
    cases h with
    | get => exact flightsSince_dropCall hs _
    | poll => exact .refl _
  have hunspent : call.phase.isSpent = false := by
    cases h with
    | get => rfl
    | poll present => exact Bool.eq_false_iff.mpr fun hspent => led _ (hs.spent present hspent)
  have hpolled := flightsSince_pollCall (h.orderly hs) h.admits hunspent
  have hboth := hbegun.trans (hpolled t.now waker reply)
  rw [Nat.zero_add, Nat.zero_add] at hboth
  rw [h.deeds_eq, h.step_eq]
  exact hboth

theorem Polls.balance (hleases : t.state.LeasesHeld) :
    (step t e).state.renewals.size + indicator (EndsInVain t e) =
      t.state.renewals.size + indicator (∃ o, Schedules o t e) := by
  have hsame : c.renewals = t.state.renewals ∧ c.nextRenewal = t.state.nextRenewal := by
    cases h <;> exact ⟨rfl, rfl⟩
  have hnew : c.renewals.get? c.nextRenewal = none := by
    rw [hsame.1, hsame.2]
    exact hleases.get?_nextRenewal
  have hbalance := (c.booked_pollCall id call t.now waker reply).balance hnew
  have hrenewals : (c.polled id call t.now waker reply).renewals = t.state.renewals := hsame.1
  have hvain : EndsInVain t e ↔ ((c.pollCall id call t.now waker reply).notices.any
      (·.isScheduled) && (c.pollCall id call t.now waker reply).spawned.isNone) = true := by
    rw [EndsInVain, or_iff_right (h.not_ends _), h.schedules_iff, Bool.and_eq_true,
      Option.isNone_iff_eq_none]
  rw [hrenewals] at hbalance
  rw [indicator_eq_toNat hvain, indicator_eq_toNat h.schedulesAny_iff, h.step_eq]
  exact hbalance

end Polls

/-- An event starts a flight where it begins the load of one, and fails one where that load
fails. -/
theorem flightsSince_step (hs : t.state.session.Orderly) (led : ∀ k, ¬ t.state.session.Stranded k)
    (e : CacheEvent ι κ ν ε ω) :
    t.state.store.FlightsSince (deeds t e).loads (deeds t e).loadFailures
      (step t e).state.store := by
  cases deed t e with
  | polls polls => exact polls.flightsSince hs led
  | changes reaction =>
    rw [deeds_change reaction]
    exact (quiet_step t rfl).flights.flightsSince
  | @runs n reply run result =>
    have hnone : (Tally.ofEnd run.ended).loads = 0 ∧ (Tally.ofEnd run.ended).loadFailures = 0 := by
      cases run.ended with
      | none => exact ⟨rfl, rfl⟩
      | some e => cases e <;> exact ⟨rfl, rfl⟩
    rw [deeds_run result, hnone.1, hnone.2]
    exact (quiet_step t rfl).flights.flightsSince
  | drops outstanding =>
    rw [deeds_drop outstanding]
    exact (quiet_step t rfl).flights.flightsSince
  | idle idle =>
    rw [deeds_idle idle]
    cases e with
    | get id k waker reply => exact absurd (.get id k waker reply) (idle.unpolled _ _ _ _ _)
    | poll id waker reply =>
      cases hc : t.state.session.calls.get? id with
      | none =>
        rw [step_poll_of_absent hc]
        exact .refl _
      | some call => exact absurd (.poll hc waker reply) (idle.unpolled _ _ _ _ _)
    | drop id => exact flightsSince_dropCall hs id
    | _ => exact (quiet_step t rfl).flights.flightsSince

/-- The renewals that have ended in an event, or are outstanding after it, are those that have been
outstanding before and the one that the event has scheduled. -/
theorem balance_step (hleases : t.state.LeasesHeld) (e : CacheEvent ι κ ν ε ω) :
    (step t e).state.renewals.size + indicator (∃ n, Ends n .completed t e) +
        indicator (∃ n, Ends n .failed t e) + indicator (∃ n, Ends n .evicted t e) +
        indicator (EndsInVain t e) =
      t.state.renewals.size + indicator (∃ o, Schedules o t e) := by
  cases deed t e with
  | polls polls =>
    rw [indicator_of_not (polls.not_ends _), indicator_of_not (polls.not_ends _),
      indicator_of_not (polls.not_ends _)]
    exact polls.balance hleases
  | @changes k s reaction =>
    have hends : ∀ fate, ¬ ∃ n, Ends n fate t (.change k) := fun _ ⟨_, h⟩ => nomatch h
    obtain ⟨c', hbooked, hrenewals, -⟩ := booked_change reaction
    have hbalance := hbooked.balance hleases.get?_nextRenewal
    have hvain : EndsInVain t (.change k) ↔
        (s.notice.isScheduled && s.spawned.isNone) = true := by
      rw [EndsInVain, or_iff_right (hends _), schedules_change_iff reaction, Bool.and_eq_true,
        Option.isNone_iff_eq_none]
    rw [indicator_of_not (hends _), indicator_of_not (hends _), indicator_of_not (hends _),
      indicator_eq_toNat hvain, indicator_eq_toNat (schedulesAny_change_iff reaction),
      step_change reaction]
    rw [hrenewals] at hbalance
    exact hbalance
  | @runs n reply run result =>
    have hvain : EndsInVain t (.runRenewal n reply) ↔
        ∃ m, Ends m .vain t (.runRenewal n reply) := or_iff_left not_schedules_runRenewal
    have hsize := (closed_runRenewal result).size_eq
    rw [indicator_congr hvain, step_runRenewal result,
      indicator_of_not (not_exists.mpr fun _ => not_schedules_runRenewal)]
    simp only [ends_run_iff result]
    rw [← hsize]
    cases run.ended with
    | none => simp [indicator]
    | some e => cases e <;> simp [indicator, RenewalEnd.fate]
  | @drops n q outstanding =>
    have hvain : EndsInVain t (.dropRenewal n) := .inl ((ends_drop_iff outstanding).mpr rfl)
    have hsize := Table.size_erase_of_present outstanding
    have hrenewals : (step t (.dropRenewal n)).state.renewals = t.state.renewals.erase n := by
      rw [step_drop outstanding]
      rfl
    simp only [ends_drop_iff outstanding]
    rw [indicator_of hvain, hrenewals, ← hsize,
      indicator_of_not (not_exists.mpr fun _ => not_schedules_dropRenewal)]
    simp [indicator]
  | idle idle =>
    have hvain : ¬ EndsInVain t e := not_or.mpr ⟨idle.not_ends _, idle.not_schedules _⟩
    rw [indicator_of_not (idle.not_ends _), indicator_of_not (idle.not_ends _),
      indicator_of_not (idle.not_ends _), indicator_of_not hvain,
      indicator_of_not (not_exists.mpr idle.not_schedules), idle.step_eq.2]

section Queries

theorem starts_iff : Starts n t e ↔ ∃ k, Begins k (.renewal n) t e := by
  constructor
  · intro hstarts
    cases hstarts with
    | @intro q c reply outstanding waiting started =>
      have hrun : t.state.runRenewal n t.now reply = some (c.runStarted n q true t.now reply) := by
        rw [runRenewal, outstanding, Option.map_some]
        simp only [waiting, started, Bool.false_eq_true, ↓reduceIte]
      exact ⟨q.key, .run outstanding rfl hrun (asked_runStarted c n q true t.now reply)⟩
  · rintro ⟨k, hbegins⟩
    cases hbegins with
    | run _ _ result asked =>
      obtain ⟨q, hq, resumed⟩ := resumed_runRenewal result
      cases resumed with
      | further running eq =>
        rw [eq, asked_runStarted] at asked
        cases asked
      | started waiting started eq => exact .intro hq waiting started
      | stale waiting stale eq =>
        rw [eq] at asked
        cases asked

theorem indicator_begins : indicator (∃ k q, Begins k q t e) =
    indicator (∃ k f, Begins k (.load f) t e) + indicator (∃ n, Starts n t e) := by
  have hexclusive : ¬ ((∃ k f, Begins k (.load f) t e) ∧ ∃ n, Starts n t e) := by
    rintro ⟨⟨k, f, hbegins⟩, n, hstarts⟩
    cases hstarts
    cases hbegins
  rw [← indicator_or hexclusive]
  refine indicator_congr ⟨?_, ?_⟩
  · rintro ⟨k, q, hbegins⟩
    cases q with
    | load f => exact .inl ⟨k, f, hbegins⟩
    | renewal n => exact .inr ⟨n, starts_iff.mpr ⟨k, hbegins⟩⟩
  · rintro (⟨k, f, hbegins⟩ | ⟨n, hstarts⟩)
    · exact ⟨k, .load f, hbegins⟩
    · obtain ⟨k, hbegins⟩ := starts_iff.mp hstarts
      exact ⟨k, .renewal n, hbegins⟩

end Queries

section Entries

omit [DecidableEq ι] [DecidableEq ω] in
theorem Ends.exists_renewal {fate : Fate} (h : Ends n fate t e) :
    ∃ q, t.state.renewals.get? n = some q := by
  cases h with
  | run result =>
    obtain ⟨q, hq, -⟩ := resumed_runRenewal result
    exact ⟨q, hq⟩
  | drop outstanding => exact ⟨_, outstanding⟩

variable (hleases : t.state.LeasesHeld) (hsound : t.state.store.Sound)

include hleases hsound

theorem ends_completed_iff : Ends n .completed t e ↔ Replaces n t e := by
  constructor
  · intro hends
    cases hends with
    | drop _ vain => cases vain
    | @run reply run e result ended fate_eq =>
      obtain ⟨q, hq, -⟩ := resumed_runRenewal result
      obtain ⟨r, rfl⟩ : ∃ r, e = .renewed r := by
        cases e with
        | renewed r => exact ⟨r, rfl⟩
        | _ => cases fate_eq
      cases applied_runRenewal hleases hsound hq result with
      | kept _ _ others => exact absurd ended (others r)
      | removed _ _ ended' => cases ended.symm.trans ended'
      | replaced answer complete _ replaced =>
        have hstate : (step t (.runRenewal n reply)).state = run.cache :=
          congrArg Clocked.state (step_runRenewal result)
        subst answer
        rw [← hstate] at replaced
        exact .intro hq (of_decide_eq_true complete.1) replaced
  · intro hreplaces
    cases hreplaces with
    | @intro q reply v time r hq stored replaced =>
      obtain ⟨run, result⟩ := exists_runRenewal hq t.now reply
      rw [step_runRenewal result] at replaced
      have hcontents : run.cache.store.contents? r ≠ t.state.store.contents? r := by
        rw [Store.contents?, Store.contents?, replaced.new, replaced.fresh]
        exact Option.some_ne_none _
      cases applied_runRenewal hleases hsound hq result with
      | kept _ same => exact absurd (same.contents?_eq r) hcontents
      | removed _ _ _ emptied => exact absurd (emptied.contents?_eq r) hcontents
      | replaced _ _ ended => exact .run result ended rfl

theorem ends_evicted_iff : Ends n .evicted t e ↔ Removes n t e := by
  constructor
  · intro hends
    cases hends with
    | drop _ vain => cases vain
    | @run reply run e result ended fate_eq =>
      obtain ⟨q, hq, -⟩ := resumed_runRenewal result
      obtain rfl : e = .removed := by
        cases e with
        | removed => rfl
        | _ => cases fate_eq
      cases applied_runRenewal hleases hsound hq result with
      | kept incomplete => exact absurd (completes_of_removed hq result ended) incomplete
      | replaced _ _ ended' => cases ended.symm.trans ended'
      | removed answer complete _ emptied =>
        have hstate : (step t (.runRenewal n reply)).state = run.cache :=
          congrArg Clocked.state (step_runRenewal result)
        subst answer
        rw [← hstate] at emptied
        exact .intro hq (of_decide_eq_true complete.1) emptied
  · intro hremoves
    cases hremoves with
    | @intro q reply hq stored emptied =>
      obtain ⟨run, result⟩ := exists_runRenewal hq t.now reply
      rw [step_runRenewal result] at emptied
      cases applied_runRenewal hleases hsound hq result with
      | kept _ same =>
        have hslot := emptied.slot?_eq q.key
        rw [same.slot?_eq, if_pos rfl, stored] at hslot
        cases hslot
      | @replaced d v r _ _ _ replaced =>
        have hcontents := emptied.contents?_eq r
        rw [Store.contents?, Store.contents?, replaced.new, replaced.fresh] at hcontents
        cases hcontents
      | removed _ _ ended => exact .run result ended rfl

end Entries

section Once

/-- The renewal has been scheduled, and it has ended. -/
def HasEnded (n : Nat) (c : Cache ι κ ν ε ω) : Prop :=
  n < c.nextRenewal ∧ c.renewals.get? n = none

theorem Ends.hasEnded {fate : Fate} (h : Ends n fate t e) (hleases : t.state.LeasesHeld) :
    (step t e).state.HasEnded n := by
  obtain ⟨q, hq⟩ := h.exists_renewal
  have hnext := (effect_perform t e).follows.next_le
  refine ⟨Nat.lt_of_lt_of_le (hleases.numbered hq) hnext, ?_⟩
  cases h with
  | run result ended =>
    rw [step_runRenewal result]
    have hgone := (closed_runRenewal result).gone (by rw [ended]; rfl)
    rw [hgone, Table.get?_erase, if_pos rfl]
  | drop outstanding =>
    rw [step_drop outstanding]
    exact (Table.get?_erase ..).trans (if_pos rfl)

theorem HasEnded.step (h : t.state.HasEnded n) (hs : t.state.session.Orderly)
    (hsound : t.state.store.Sound) (e : CacheEvent ι κ ν ε ω) : (step t e).state.HasEnded n := by
  refine ⟨Nat.lt_of_lt_of_le h.1 (effect_perform t e).follows.next_le, ?_⟩
  by_contra hne
  obtain ⟨p, hp⟩ := Option.ne_none_iff_exists'.mp hne
  cases outstanding_step hs hsound hp with
  | kept before => cases h.2.symm.trans before
  | started before => cases h.2.symm.trans before
  | scheduled number => exact absurd h.1 (Nat.not_lt_of_le (Nat.le_of_eq number.symm))

theorem Schedules.number_eq (h : Schedules (some n) t e) :
    n = t.state.nextRenewal ∧ n < (step t e).state.nextRenewal := by
  cases h with
  | @poll _ c id call waker reply polls told outstanding =>
    have hbooked := c.booked_pollCall id call t.now waker reply
    simp only [outstanding] at hbooked
    obtain ⟨hnumber, hlt⟩ := hbooked.number_eq
    have hnext : (c.polled id call t.now waker reply).nextRenewal = t.state.nextRenewal := by
      cases polls <;> rfl
    rw [polls.step_eq]
    exact ⟨hnumber.trans hnext, hlt⟩
  | change reaction told outstanding =>
    obtain ⟨c', hbooked, -, hnext⟩ := booked_change reaction
    rw [outstanding] at hbooked
    obtain ⟨hnumber, hlt⟩ := hbooked.number_eq
    rw [step_change reaction, ← hnext]
    exact ⟨hnumber, hlt⟩

theorem exists_renewal_or_schedules (h : ∃ q, (step t e).state.renewals.get? n = some q) :
    (∃ q, t.state.renewals.get? n = some q) ∨ Schedules (some n) t e := by
  obtain ⟨q, hq⟩ := h
  cases deed t e with
  | @polls _ c id call waker reply polls =>
    rw [polls.step_eq] at hq
    rcases (c.booked_pollCall id call t.now waker reply).renewal hq with hbefore | hscheduled
    · have hrenewals : (c.polled id call t.now waker reply).renewals = t.state.renewals := by
        cases polls <;> rfl
      exact .inl ⟨q, hrenewals ▸ hbefore⟩
    · exact .inr (polls.schedules_iff.mpr hscheduled)
  | changes reaction =>
    obtain ⟨c', hbooked, hrenewals, -⟩ := booked_change reaction
    rw [step_change reaction, ← hrenewals] at hq
    rcases hbooked.renewal hq with hbefore | hscheduled
    · exact .inl ⟨q, hbefore⟩
    · exact .inr ((schedules_change_iff reaction).mpr hscheduled)
  | runs result =>
    rw [step_runRenewal result] at hq
    rcases renewals_runRenewal result hq with hbefore | ⟨rfl, -, -, p, hp, -⟩
    · exact .inl ⟨q, hbefore⟩
    · exact .inl ⟨p, hp⟩
  | drops outstanding =>
    rw [step_drop outstanding] at hq
    exact .inl ⟨q, Table.get?_of_get?_erase hq⟩
  | idle idle =>
    rw [idle.step_eq.2] at hq
    exact .inl ⟨q, hq⟩

end Once

end Steps

section Runs

variable (o : Origin κ) (events : List (CacheEvent ι κ ν ε ω))

/-- How often `p` has been true of an event of the run. -/
noncomputable def happened (p : Clocked (Cache ι κ ν ε ω) → CacheEvent ι κ ν ε ω → Prop) : Nat :=
  occurrences step p o.start events

def counters : Tally := (events.foldl step o.start).state.tally.shown

/-- What the counters of a cache say of the run that it has been through. A renewal that has been
scheduled is outstanding, or has ended once, in one of four ways. -/
structure CountsConserved : Prop where
  renewals : (counters o events).renewalsScheduled ≡
    (events.foldl step o.start).state.renewals.size + (counters o events).renewalsCompleted +
      (counters o events).renewalFailures + (counters o events).renewalEvictions +
      happened o events EndsInVain [MOD UInt64.size]
  queries : happened o events (fun t e => ∃ k q, Begins k q t e) ≡
    (counters o events).loads + happened o events (fun t e => ∃ n, Starts n t e) [MOD UInt64.size]
  loads : (counters o events).loads ≡
    (events.foldl step o.start).state.store.flights.size [MOD UInt64.size]
  loadFailures : (counters o events).loadFailures ≡
    (events.foldl step o.start).state.store.failures [MOD UInt64.size]
  gets : (counters o events).gets ≡
    happened o events (fun _ e => isGet e = true) [MOD UInt64.size]
  scheduled : (counters o events).renewalsScheduled ≡
    happened o events (fun t e => ∃ n, Schedules n t e) [MOD UInt64.size]
  completed : (counters o events).renewalsCompleted ≡
    happened o events (fun t e => ∃ n, Replaces n t e) [MOD UInt64.size]
  failures : (counters o events).renewalFailures ≡
    happened o events (fun t e => ∃ n, Ends n .failed t e) [MOD UInt64.size]
  evictions : (counters o events).renewalEvictions ≡
    happened o events (fun t e => ∃ n, Removes n t e) [MOD UInt64.size]
  invalidations : (counters o events).invalidations ≡
    happened o events (fun t e => ∃ k, Invalidates k t e) [MOD UInt64.size]
  scheduled_once : ∀ i j n, OccursAt step o.start events i (Schedules (some n)) →
    OccursAt step o.start events j (Schedules (some n)) → i = j
  ended_once : ∀ i j n a b, OccursAt step o.start events i (Ends n a) →
    OccursAt step o.start events j (Ends n b) → i = j ∧ a = b
  ended_scheduled : ∀ i n a, OccursAt step o.start events i (Ends n a) →
    ∃ j < i, OccursAt step o.start events j (Schedules (some n))
  begun_once : ∀ i j k k' q, OccursAt step o.start events i (Begins k q) →
    OccursAt step o.start events j (Begins k' q) → i = j

variable {o events} {i j n : Nat} {a b : Fate}

/-- What an event adds to a counter if `p` is true of it, and to no other, counts these events. -/
theorem eq_happened {p : Clocked (Cache ι κ ν ε ω) → CacheEvent ι κ ν ε ω → Prop}
    (counter : Tally → Nat) (zero : counter {} = 0)
    (counted : ∀ (events : List (CacheEvent ι κ ν ε ω)) (e : CacheEvent ι κ ν ε ω),
      counter ((events.foldl step o.start).state.tally + deeds (events.foldl step o.start) e) =
        counter (events.foldl step o.start).state.tally +
          indicator (p (events.foldl step o.start) e)) :
    counter (events.foldl step o.start).state.tally = happened o events p := by
  let measure : Clocked (Cache ι κ ν ε ω) → Nat := fun t => counter t.state.tally
  have hnext : ∀ (events : List (CacheEvent ι κ ν ε ω)) e,
      measure (step (events.foldl step o.start) e) =
        measure (events.foldl step o.start) + indicator (p (events.foldl step o.start) e) := by
    intro events e
    simp only [measure, tally_step]
    exact counted events e
  have hzero : measure o.start = 0 := zero
  exact eq_occurrences hzero hnext events

theorem tally_gets : (events.foldl step o.start).state.tally.gets =
    happened o events fun _ e => isGet e = true :=
  eq_happened Tally.gets rfl fun _ _ => rfl

theorem tally_renewalsScheduled : (events.foldl step o.start).state.tally.renewalsScheduled =
    happened o events fun t e => ∃ n, Schedules n t e :=
  eq_happened Tally.renewalsScheduled rfl fun _ _ => rfl

theorem tally_renewalsCompleted : (events.foldl step o.start).state.tally.renewalsCompleted =
    happened o events fun t e => ∃ n, Replaces n t e := by
  refine eq_happened Tally.renewalsCompleted rfl fun events e => ?_
  have hiff := fun n => ends_completed_iff (n := n) (e := e) (leasesHeld_run o events)
    (sound_run o events)
  rw [← indicator_congr (exists_congr hiff)]
  rfl

theorem tally_renewalFailures : (events.foldl step o.start).state.tally.renewalFailures =
    happened o events fun t e => ∃ n, Ends n .failed t e :=
  eq_happened Tally.renewalFailures rfl fun _ _ => rfl

theorem tally_renewalEvictions : (events.foldl step o.start).state.tally.renewalEvictions =
    happened o events fun t e => ∃ n, Removes n t e := by
  refine eq_happened Tally.renewalEvictions rfl fun events e => ?_
  have hiff := fun n => ends_evicted_iff (n := n) (e := e) (leasesHeld_run o events)
    (sound_run o events)
  rw [← indicator_congr (exists_congr hiff)]
  rfl

theorem tally_invalidations : (events.foldl step o.start).state.tally.invalidations =
    happened o events fun t e => ∃ k, Invalidates k t e :=
  eq_happened Tally.invalidations rfl fun _ _ => rfl

theorem tally_loads : (events.foldl step o.start).state.tally.loads =
    happened o events fun t e => ∃ k f, Begins k (.load f) t e :=
  eq_happened Tally.loads rfl fun _ _ => rfl

theorem flightsSince_run (o : Origin κ) (events : List (CacheEvent ι κ ν ε ω)) :
    (events.foldl step o.start).state.store.flights.size =
        (events.foldl step o.start).state.tally.loads ∧
      (events.foldl step o.start).state.store.failures =
        (events.foldl step o.start).state.tally.loadFailures := by
  induction events using List.reverseRecOn with
  | nil => exact ⟨rfl, rfl⟩
  | append_singleton events e ih =>
    obtain ⟨hs, hled⟩ := settled_run o events
    have hflights := flightsSince_step hs hled e
    rw [List.foldl_append]
    constructor
    · exact (hflights.size_eq.trans (congrArg (· + _) ih.1)).trans
        (congrArg Tally.loads (tally_step _ e)).symm
    · exact (hflights.failures_eq.trans (congrArg (· + _) ih.2)).trans
        (congrArg Tally.loadFailures (tally_step _ e)).symm

/-- The renewals that have been scheduled are those that are outstanding and those that have
ended. -/
theorem balance_run (o : Origin κ) (events : List (CacheEvent ι κ ν ε ω)) :
    (events.foldl step o.start).state.tally.renewalsScheduled =
      (events.foldl step o.start).state.renewals.size +
        (events.foldl step o.start).state.tally.renewalsCompleted +
        (events.foldl step o.start).state.tally.renewalFailures +
        (events.foldl step o.start).state.tally.renewalEvictions +
        happened o events EndsInVain := by
  induction events using List.reverseRecOn with
  | nil => rfl
  | append_singleton events e ih =>
    have hbalance := balance_step (leasesHeld_run o events) e
    have htally := tally_step (events.foldl step o.start) e
    have hscheduled := congrArg Tally.renewalsScheduled htally
    have hcompleted := congrArg Tally.renewalsCompleted htally
    have hfailed := congrArg Tally.renewalFailures htally
    have hevicted := congrArg Tally.renewalEvictions htally
    have hvain : happened o (events ++ [e]) EndsInVain = happened o events EndsInVain +
        indicator (EndsInVain (events.foldl step o.start) e) := occurrences_concat o.start events e
    simp only [Tally.add_def] at hscheduled hcompleted hfailed hevicted
    rw [List.foldl_append, List.foldl_cons, List.foldl_nil, hscheduled, hcompleted, hfailed,
      hevicted, hvain]
    simp only [deeds]
    omega

theorem scheduled_once (hi : OccursAt step o.start events i (Schedules (some n)))
    (hj : OccursAt step o.start events j (Schedules (some n))) : i = j := by
  refine hi.unique hj (motive := fun t => n < t.state.nextRenewal) ?_ ?_ ?_
  · exact fun _ _ h => h.number_eq.2
  · exact fun _ e h => Nat.lt_of_lt_of_le h (effect_perform _ e).follows.next_le
  · exact fun _ _ h hlt => absurd hlt (Nat.not_lt_of_le (Nat.le_of_eq h.number_eq.1.symm))

omit [DecidableEq ι] [DecidableEq ω] in
theorem Ends.fate_eq {t : Clocked (Cache ι κ ν ε ω)} {e : CacheEvent ι κ ν ε ω}
    (h : Ends n a t e) (h' : Ends n b t e) : a = b := by
  cases h with
  | run result ended fate =>
    cases h' with
    | run result' ended' fate' =>
      cases result.symm.trans result'
      cases ended.symm.trans ended'
      exact fate.symm.trans fate'
  | drop _ vain =>
    cases h' with
    | drop _ vain' => exact vain.trans vain'.symm

theorem ended_once (hi : OccursAt step o.start events i (Ends n a))
    (hj : OccursAt step o.start events j (Ends n b)) : i = j ∧ a = b := by
  have hended : ∀ {i : Nat} {a : Fate}, OccursAt step o.start events i (Ends n a) →
      OccursAt step o.start events i fun t e => ∃ a, Ends n a t e :=
    fun h => h.imp fun hends => ⟨_, hends⟩
  obtain rfl : i = j := by
    refine (hended hi).unique (hended hj) (motive := fun t => t.state.HasEnded n) ?_ ?_ ?_
    · rintro _ _ ⟨_, h⟩
      exact h.hasEnded (leasesHeld_run o _)
    · exact fun _ e h => h.step (settled_run o _).1 (sound_run o _) e
    · rintro _ _ ⟨a, h⟩ hgone
      obtain ⟨q, hq⟩ := h.exists_renewal
      cases hgone.2.symm.trans hq
  obtain ⟨e, he, hend⟩ := hi
  obtain ⟨e', he', hend'⟩ := hj
  cases he.symm.trans he'
  exact ⟨rfl, hend.fate_eq hend'⟩

theorem ended_scheduled (hi : OccursAt step o.start events i (Ends n a)) :
    ∃ j < i, OccursAt step o.start events j (Schedules (some n)) := by
  obtain ⟨e, -, hends⟩ := hi
  refine exists_occursAt (motive := fun t => ∃ q, t.state.renewals.get? n = some q) ?_ ?_
    hends.exists_renewal
  · rintro ⟨q, hq⟩
    cases hq
  · exact fun _ _ h => exists_renewal_or_schedules h

/-- Whatever happens to a cache, what it counts is what happens, each thing once and under one
heading. -/
theorem counts_conserved (o : Origin κ) (events : List (CacheEvent ι κ ν ε ω)) :
    CountsConserved o events := by
  obtain ⟨hflights, hfailed⟩ := flightsSince_run o events
  have hbalance := balance_run o events
  constructor
  case renewals =>
    simp only [Nat.ModEq, counters, Tally.shown, wrapped, UInt64.size]
    omega
  case queries =>
    have hasked : happened o events (fun t e => ∃ k q, Begins k q t e) =
        (events.foldl step o.start).state.tally.loads +
          happened o events fun t e => ∃ n, Starts n t e := by
      rw [tally_loads]
      exact occurrences_add (fun _ _ => indicator_begins) o.start events
    rw [hasked]
    exact (Nat.mod_modEq _ _).symm.add_right _
  case loads =>
    rw [hflights]
    exact Nat.mod_modEq _ _
  case loadFailures =>
    rw [hfailed]
    exact Nat.mod_modEq _ _
  case gets =>
    rw [← tally_gets]
    exact Nat.mod_modEq _ _
  case scheduled =>
    rw [← tally_renewalsScheduled]
    exact Nat.mod_modEq _ _
  case completed =>
    rw [← tally_renewalsCompleted]
    exact Nat.mod_modEq _ _
  case failures =>
    rw [← tally_renewalFailures]
    exact Nat.mod_modEq _ _
  case evictions =>
    rw [← tally_renewalEvictions]
    exact Nat.mod_modEq _ _
  case invalidations =>
    rw [← tally_invalidations]
    exact Nat.mod_modEq _ _
  case scheduled_once => exact fun _ _ _ hi hj => scheduled_once hi hj
  case ended_once => exact fun _ _ _ _ _ hi hj => ended_once hi hj
  case ended_scheduled => exact fun _ _ _ hi => ended_scheduled hi
  case begun_once => exact fun _ _ _ _ _ hi hj => begins_once hi hj

end Runs

end ReadThrough.Cache
