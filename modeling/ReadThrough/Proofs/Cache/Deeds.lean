import ReadThrough.Proofs.Cache.Beginnings
import ReadThrough.Proofs.Cache.Ledger

/-!
# What is to be counted

Each thing that a cache counts is stated here of the event in which it happens, by what becomes of
calls, renewals and entries. An event adds to the counts exactly the things that happen in it.
-/

namespace ReadThrough.Cache

variable {ι κ ν ε ω : Type}

section Deeds

/-- How a renewal has ended: with its entry replaced, with a failure of the source, with its entry
removed, or without any effect. -/
inductive Fate where
  | completed
  | failed
  | evicted
  | vain
  deriving DecidableEq

/-- A renewal has had no effect if its entry was not stored any more when it started or when its
load landed, or if it has crashed. -/
def RenewalEnd.fate : RenewalEnd ν ε → Fate
  | .renewed _ => .completed
  | .failed _ => .failed
  | .removed => .evicted
  | .stale => .vain
  | .superseded => .vain
  | .alreadyGone => .vain
  | .crashed _ => .vain
  | .expiryOverflow => .vain

def isGet : CacheEvent ι κ ν ε ω → Bool
  | .get .. => true
  | _ => false

variable [DecidableEq ι] [DecidableEq κ] [DecidableEq ω]

/-- The load of the flight that the event polls for has returned an error. -/
def FailsLoad (t : Clocked (Cache ι κ ν ε ω)) (e : CacheEvent ι κ ν ε ω) : Prop :=
  ∃ f err, outcome? t e = some (.loadFailed f err)

/-- The event schedules a renewal. It is outstanding since under this number, unless the executor
has dropped it at once. -/
inductive Schedules (spawned : Option Nat) (t : Clocked (Cache ι κ ν ε ω)) :
    CacheEvent ι κ ν ε ω → Prop where
  | poll {e : CacheEvent ι κ ν ε ω} {c : Cache ι κ ν ε ω} {id : ι} {call : Call κ ε ω} {waker : ω}
      {reply : Reply ν ε} (polls : Polls t e c id call waker reply)
      (told : (c.pollCall id call t.now waker reply).notices.any (·.isScheduled) = true)
      (outstanding : (c.pollCall id call t.now waker reply).spawned = spawned) :
      Schedules spawned t e
  | change {k : κ} {s : Scheduling ι κ ν ε ω} (reaction : t.state.change k t.now = some s)
      (told : s.notice.isScheduled = true) (outstanding : s.spawned = spawned) :
      Schedules spawned t (.change k)

/-- The renewal `n` passes the check that its entry is still stored, and its load begins. -/
inductive Starts (n : Nat) (t : Clocked (Cache ι κ ν ε ω)) : CacheEvent ι κ ν ε ω → Prop where
  | intro {q : Renewal κ ν} {c : Cache ι κ ν ε ω} {reply : Reply ν ε}
      (outstanding : t.state.renewals.get? n = some q) (waiting : q.running = false)
      (started : t.state.startLease q = some c) : Starts n t (.runRenewal n reply)

/-- The renewal `n` ends, by being run or by being dropped. -/
inductive Ends (n : Nat) (fate : Fate) (t : Clocked (Cache ι κ ν ε ω)) :
    CacheEvent ι κ ν ε ω → Prop where
  | run {reply : Reply ν ε} {run : RenewalRun ι κ ν ε ω} {e : RenewalEnd ν ε}
      (result : t.state.runRenewal n t.now reply = some run) (ended : run.ended = some e)
      (fate_eq : e.fate = fate) : Ends n fate t (.runRenewal n reply)
  | drop {q : Renewal κ ν} (outstanding : t.state.renewals.get? n = some q)
      (vain : fate = .vain) : Ends n fate t (.dropRenewal n)

/-- Some renewal ends without effect, be it as soon as it is scheduled. -/
def EndsInVain (t : Clocked (Cache ι κ ν ε ω)) (e : CacheEvent ι κ ν ε ω) : Prop :=
  (∃ n, Ends n .vain t e) ∨ Schedules none t e

/-- The entry of the renewal `n` is replaced by what the renewal has brought. -/
inductive Replaces (n : Nat) (t : Clocked (Cache ι κ ν ε ω)) : CacheEvent ι κ ν ε ω → Prop where
  | intro {q : Renewal κ ν} {reply : Reply ν ε} {v : ν} {time : Instant} {r : Ref (Entry ν)}
      (outstanding : t.state.renewals.get? n = some q)
      (stored : t.state.store.slot? q.key = some q.entry)
      (replaced : t.state.store.Replaced q.key (some v) time r
        (step t (.runRenewal n reply)).state.store) : Replaces n t (.runRenewal n reply)

/-- The entry of the renewal `n` is removed, as the source has nothing any more. -/
inductive Removes (n : Nat) (t : Clocked (Cache ι κ ν ε ω)) : CacheEvent ι κ ν ε ω → Prop where
  | intro {q : Renewal κ ν} {reply : Reply ν ε}
      (outstanding : t.state.renewals.get? n = some q)
      (stored : t.state.store.slot? q.key = some q.entry)
      (emptied : t.state.store.Emptied q.key (step t (.runRenewal n reply)).state.store) :
      Removes n t (.runRenewal n reply)

/-- The entry of `k` is removed as the value behind it may have changed. -/
inductive Invalidates (k : κ) (t : Clocked (Cache ι κ ν ε ω)) : CacheEvent ι κ ν ε ω → Prop where
  | intro {r : Ref (Entry ν)} (stored : t.state.store.slot? k = some r)
      (emptied : t.state.store.Emptied k (step t (.change k)).state.store) :
      Invalidates k t (.change k)

/-- The event does nothing that is counted, and ends no renewal. -/
structure Idle (t : Clocked (Cache ι κ ν ε ω)) (e : CacheEvent ι κ ν ε ω) : Prop where
  unpolled : ∀ c id call waker reply, ¬ Polls t e c id call waker reply
  unchanged : ∀ k, e = .change k → t.state.change k t.now = none
  unrun : ∀ n reply, e = .runRenewal n reply → t.state.runRenewal n t.now reply = none
  undropped : ∀ n, e = .dropRenewal n → t.state.renewals.get? n = none

/-- What an event can be to the counts of a cache. -/
inductive Deed (t : Clocked (Cache ι κ ν ε ω)) : CacheEvent ι κ ν ε ω → Prop where
  | polls {e : CacheEvent ι κ ν ε ω} {c : Cache ι κ ν ε ω} {id : ι} {call : Call κ ε ω} {waker : ω}
      {reply : Reply ν ε} (polls : Polls t e c id call waker reply) : Deed t e
  | changes {k : κ} {s : Scheduling ι κ ν ε ω} (reaction : t.state.change k t.now = some s) :
      Deed t (.change k)
  | runs {n : Nat} {reply : Reply ν ε} {run : RenewalRun ι κ ν ε ω}
      (result : t.state.runRenewal n t.now reply = some run) : Deed t (.runRenewal n reply)
  | drops {n : Nat} {q : Renewal κ ν} (outstanding : t.state.renewals.get? n = some q) :
      Deed t (.dropRenewal n)
  | idle {e : CacheEvent ι κ ν ε ω} (idle : Idle t e) : Deed t e

omit [DecidableEq ω] in
theorem deed (t : Clocked (Cache ι κ ν ε ω)) (e : CacheEvent ι κ ν ε ω) : Deed t e := by
  cases e with
  | get id k waker reply => exact .polls (.get id k waker reply)
  | poll id waker reply =>
    cases hc : t.state.session.calls.get? id with
    | some call => exact .polls (.poll hc waker reply)
    | none =>
      refine .idle ⟨fun _ _ _ _ _ polls => ?_, nofun, nofun, nofun⟩
      cases polls with
      | poll present => cases hc.symm.trans present
  | change k =>
    cases hs : t.state.change k t.now with
    | some s => exact .changes hs
    | none =>
      exact .idle ⟨fun _ _ _ _ _ polls => (nomatch polls), fun j h => by cases h; exact hs, nofun,
        nofun⟩
  | runRenewal n reply =>
    cases hrun : t.state.runRenewal n t.now reply with
    | some run => exact .runs hrun
    | none =>
      exact .idle ⟨fun _ _ _ _ _ polls => (nomatch polls), nofun,
        fun m r h => by cases h; exact hrun, nofun⟩
  | dropRenewal n =>
    cases hq : t.state.renewals.get? n with
    | some q => exact .drops hq
    | none =>
      exact .idle ⟨fun _ _ _ _ _ polls => (nomatch polls), nofun, nofun,
        fun m h => by cases h; exact hq⟩
  | _ => exact .idle ⟨fun _ _ _ _ _ polls => (nomatch polls), nofun, nofun, nofun⟩

/-- What an event adds to the counts of a cache. -/
noncomputable def deeds (t : Clocked (Cache ι κ ν ε ω)) (e : CacheEvent ι κ ν ε ω) : Tally where
  gets := indicator (isGet e = true)
  loads := indicator (∃ k f, Begins k (.load f) t e)
  loadFailures := indicator (FailsLoad t e)
  renewalsScheduled := indicator (∃ n, Schedules n t e)
  renewalsCompleted := indicator (∃ n, Ends n .completed t e)
  renewalFailures := indicator (∃ n, Ends n .failed t e)
  renewalEvictions := indicator (∃ n, Ends n .evicted t e)
  invalidations := indicator (∃ k, Invalidates k t e)

end Deeds

section Steps

variable [DecidableEq ι] [DecidableEq κ] [DecidableEq ω] {t : Clocked (Cache ι κ ν ε ω)}
  {e : CacheEvent ι κ ν ε ω} {n : Nat} {k : κ}

theorem not_schedules_runRenewal {o : Option Nat} {reply : Reply ν ε} :
    ¬ Schedules o t (.runRenewal n reply) := by
  intro hschedules
  cases hschedules with
  | poll polls => cases polls

theorem not_schedules_dropRenewal {o : Option Nat} : ¬ Schedules o t (.dropRenewal n) := by
  intro hschedules
  cases hschedules with
  | poll polls => cases polls

section Polls

variable {c : Cache ι κ ν ε ω} {id : ι} {call : Call κ ε ω} {waker : ω} {reply : Reply ν ε}
  (h : Polls t e c id call waker reply)

include h

omit [DecidableEq ω] in
theorem Polls.unique {c' : Cache ι κ ν ε ω} {id' : ι} {call' : Call κ ε ω} {waker' : ω}
    {reply' : Reply ν ε} (h' : Polls t e c' id' call' waker' reply') :
    c' = c ∧ id' = id ∧ call' = call ∧ waker' = waker ∧ reply' = reply := by
  cases h with
  | get =>
    cases h'
    exact ⟨rfl, rfl, rfl, rfl, rfl⟩
  | poll present =>
    cases h' with
    | poll present' =>
      cases present.symm.trans present'
      exact ⟨rfl, rfl, rfl, rfl, rfl⟩

theorem Polls.begins_iff : (∃ k f, Begins k (.load f) t e) ↔
    (c.pollCall id call t.now waker reply).asked = true := by
  constructor
  · rintro ⟨k, f, hbegins⟩
    cases h with
    | get =>
      cases hbegins with
      | get asked => exact asked
    | poll present =>
      cases hbegins with
      | poll present' _ asked =>
        cases present.symm.trans present'
        exact asked
  · intro asked
    cases h with
    | get => exact ⟨_, _, .get asked⟩
    | poll present => exact ⟨_, _, .poll present rfl asked⟩

theorem Polls.failsLoad_iff : FailsLoad t e ↔
    (c.pollCall id call t.now waker reply).outcome.any (·.isLoadFailure) = true := by
  have houtcome : outcome? t e = (c.pollCall id call t.now waker reply).outcome := by
    cases h with
    | get => rfl
    | poll present => simp only [outcome?, poll_of_present present, Option.bind_some]
  rw [FailsLoad, houtcome]
  cases (c.pollCall id call t.now waker reply).outcome with
  | none => simp
  | some o => cases o <;> simp [Outcome.isLoadFailure]

theorem Polls.schedules_iff {spawned : Option Nat} : Schedules spawned t e ↔
    (c.pollCall id call t.now waker reply).notices.any (·.isScheduled) = true ∧
      (c.pollCall id call t.now waker reply).spawned = spawned := by
  constructor
  · intro hschedules
    cases hschedules with
    | poll polls told outstanding =>
      obtain ⟨rfl, rfl, rfl, rfl, rfl⟩ := h.unique polls
      exact ⟨told, outstanding⟩
    | change => cases h
  · rintro ⟨told, outstanding⟩
    exact .poll h told outstanding

theorem Polls.schedulesAny_iff : (∃ o, Schedules o t e) ↔
    (c.pollCall id call t.now waker reply).notices.any (·.isScheduled) = true := by
  simp only [h.schedules_iff, exists_and_left, exists_eq', and_true]

omit [DecidableEq ω] in
theorem Polls.not_ends (fate : Fate) : ¬ ∃ n, Ends n fate t e := by
  rintro ⟨n, hends⟩
  cases hends <;> cases h

theorem Polls.deeds_eq :
    let served := c.pollCall id call t.now waker reply
    deeds t e =
      { gets := (isGet e).toNat
        loads := served.asked.toNat
        loadFailures := (served.outcome.any (·.isLoadFailure)).toNat
        renewalsScheduled := (served.notices.any (·.isScheduled)).toNat } := by
  have hinvalidates : ¬ ∃ k, Invalidates k t e := by
    rintro ⟨k, hinvalidates⟩
    cases hinvalidates
    cases h
  unfold deeds
  rw [indicator_eq_toNat Iff.rfl, indicator_eq_toNat h.begins_iff,
    indicator_eq_toNat h.failsLoad_iff, indicator_eq_toNat h.schedulesAny_iff,
    indicator_of_not (h.not_ends _), indicator_of_not (h.not_ends _),
    indicator_of_not (h.not_ends _), indicator_of_not hinvalidates]

theorem Polls.tally_eq : (step t e).state.tally = t.state.tally + deeds t e := by
  rw [h.step_eq, h.deeds_eq]
  have hcounted := c.tally_pollCall id call t.now waker reply
  cases h <;> exact hcounted

end Polls

section Changes

variable {s : Scheduling ι κ ν ε ω} (reaction : t.state.change k t.now = some s)

include reaction

theorem step_change : step t (.change k) = ⟨t.now, s.cache⟩ := by
  simp only [step, perform, reaction]

theorem schedules_change_iff {spawned : Option Nat} : Schedules spawned t (.change k) ↔
    s.notice.isScheduled = true ∧ s.spawned = spawned := by
  constructor
  · intro hschedules
    cases hschedules with
    | poll polls => cases polls
    | change reaction' told outstanding =>
      cases reaction.symm.trans reaction'
      exact ⟨told, outstanding⟩
  · rintro ⟨told, outstanding⟩
    exact .change reaction told outstanding

theorem schedulesAny_change_iff :
    (∃ o, Schedules o t (.change k)) ↔ s.notice.isScheduled = true := by
  simp only [schedules_change_iff reaction, exists_and_left, exists_eq', and_true]

theorem invalidates_change_iff :
    (∃ j, Invalidates j t (.change k)) ↔ s.notice.isRemoval = true := by
  have hkept : (∀ j, s.cache.store.slot? j = t.state.store.slot? j) →
      ¬ ∃ j, Invalidates j t (.change k) := by
    rintro hsame ⟨j, hinvalidates⟩
    cases hinvalidates with
    | intro stored emptied =>
      have hslot := emptied.slot?_eq k
      rw [step_change reaction, if_pos rfl, hsame k, stored] at hslot
      cases hslot
  cases reacted_change reaction with
  | missing missing eq =>
    refine iff_of_false (hkept fun j => ?_) ?_
    · rw [eq]
    · rw [eq]
      exact Bool.false_ne_true
  | renewed live due eq =>
    refine iff_of_false (hkept fun j => ?_) ?_
    · rw [eq]
      exact (sameRecords_schedule ..).slot?_eq j
    · rw [eq, not_isRemoval_schedule]
      exact Bool.false_ne_true
  | removed live early eq =>
    have hstored := (Option.filter_eq_some_iff.mp live).1
    refine iff_of_true ⟨k, .intro hstored ?_⟩ (by rw [eq]; rfl)
    have hremoved : s.cache.store = t.state.store.forget k := by
      have hdiscard : s.cache.store = (t.state.store.remove k).2 := by rw [eq]; rfl
      rw [hdiscard, Store.remove, hstored]
    rw [step_change reaction, hremoved]
    exact t.state.store.emptied_forget k

theorem deeds_change : deeds t (.change k) =
    { renewalsScheduled := s.notice.isScheduled.toNat
      invalidations := s.notice.isRemoval.toNat } := by
  have hends : ∀ fate, ¬ ∃ n, Ends n fate t (.change k) := fun fate ⟨n, h⟩ => nomatch h
  have hbegins : ¬ ∃ j f, Begins j (.load f) t (.change k) := fun ⟨j, f, h⟩ => nomatch h
  have hfails : ¬ FailsLoad t (.change k) := fun ⟨f, err, h⟩ => nomatch h
  have hget : ¬ isGet (.change k : CacheEvent ι κ ν ε ω) = true := Bool.false_ne_true
  unfold deeds
  rw [indicator_of_not hget, indicator_of_not hbegins, indicator_of_not hfails,
    indicator_eq_toNat (schedulesAny_change_iff reaction), indicator_of_not (hends _),
    indicator_of_not (hends _), indicator_of_not (hends _),
    indicator_eq_toNat (invalidates_change_iff reaction)]

end Changes

section Runs

variable {reply : Reply ν ε} {run : RenewalRun ι κ ν ε ω}
  (result : t.state.runRenewal n t.now reply = some run)

include result

omit [DecidableEq ι] [DecidableEq ω] in
theorem ends_run_iff {fate : Fate} : (∃ m, Ends m fate t (.runRenewal n reply)) ↔
    run.ended.map (·.fate) = some fate := by
  rw [Option.map_eq_some_iff]
  constructor
  · rintro ⟨m, hends⟩
    cases hends with
    | run result' ended fate_eq =>
      cases result.symm.trans result'
      exact ⟨_, ended, fate_eq⟩
  · rintro ⟨e, ended, fate_eq⟩
    exact ⟨n, .run result ended fate_eq⟩

theorem deeds_run : deeds t (.runRenewal n reply) = .ofEnd run.ended := by
  have hbegins : ¬ ∃ j f, Begins j (.load f) t (.runRenewal n reply) := fun ⟨j, f, h⟩ => nomatch h
  have hfails : ¬ FailsLoad t (.runRenewal n reply) := fun ⟨f, err, h⟩ => nomatch h
  have hinvalidates : ¬ ∃ k, Invalidates k t (.runRenewal n reply) := fun ⟨k, h⟩ => nomatch h
  have hget : ¬ isGet (.runRenewal n reply : CacheEvent ι κ ν ε ω) = true := Bool.false_ne_true
  unfold deeds
  rw [indicator_of_not hget, indicator_of_not hbegins, indicator_of_not hfails,
    indicator_of_not (not_exists.mpr fun _ => not_schedules_runRenewal),
    indicator_of_not hinvalidates]
  simp only [ends_run_iff result]
  cases run.ended with
  | none => simp [indicator, Tally.ofEnd]
  | some e => cases e <;> simp [indicator, Tally.ofEnd, RenewalEnd.fate]

end Runs

section Idle

omit [DecidableEq ι] [DecidableEq ω] in
theorem ends_drop_iff {q : Renewal κ ν} (outstanding : t.state.renewals.get? n = some q)
    {fate : Fate} : (∃ m, Ends m fate t (.dropRenewal n)) ↔ fate = .vain := by
  constructor
  · rintro ⟨m, hends⟩
    cases hends with
    | drop _ vain => exact vain
  · intro vain
    exact ⟨n, .drop outstanding vain⟩

theorem deeds_eq_none (get : isGet e = false) (begins : ¬ ∃ k f, Begins k (.load f) t e)
    (fails : ¬ FailsLoad t e) (schedules : ¬ ∃ o, Schedules o t e)
    (ends : ∀ fate, fate ≠ .vain → ¬ ∃ n, Ends n fate t e)
    (invalidates : ¬ ∃ k, Invalidates k t e) : deeds t e = {} := by
  have completed := ends .completed Fate.noConfusion
  have failed := ends .failed Fate.noConfusion
  have evicted := ends .evicted Fate.noConfusion
  unfold deeds
  rw [indicator_of_not (Bool.eq_false_iff.mp get), indicator_of_not begins, indicator_of_not fails,
    indicator_of_not schedules, indicator_of_not completed, indicator_of_not failed,
    indicator_of_not evicted, indicator_of_not invalidates]

theorem deeds_drop {q : Renewal κ ν} (outstanding : t.state.renewals.get? n = some q) :
    deeds t (.dropRenewal n) = {} := by
  apply deeds_eq_none
  case get => rfl
  case begins => exact fun ⟨_, _, h⟩ => nomatch h
  case fails => exact fun ⟨_, _, h⟩ => nomatch h
  case schedules => exact not_exists.mpr fun _ => not_schedules_dropRenewal
  case ends =>
    intro fate hne hends
    exact hne ((ends_drop_iff outstanding).mp hends)
  case invalidates => exact fun ⟨_, h⟩ => nomatch h

variable (h : Idle t e)

include h

theorem Idle.not_schedules (o : Option Nat) : ¬ Schedules o t e := by
  intro hschedules
  cases hschedules with
  | poll polls => exact h.unpolled _ _ _ _ _ polls
  | change reaction => cases (h.unchanged _ rfl).symm.trans reaction

omit [DecidableEq ω] in
theorem Idle.not_ends (fate : Fate) : ¬ ∃ n, Ends n fate t e := by
  rintro ⟨n, hends⟩
  cases hends with
  | run result => cases (h.unrun _ _ rfl).symm.trans result
  | drop outstanding => cases (h.undropped _ rfl).symm.trans outstanding

theorem deeds_idle : deeds t e = {} := by
  apply deeds_eq_none
  case get =>
    cases e with
    | get id k waker reply => exact absurd (.get id k waker reply) (h.unpolled _ _ _ _ _)
    | _ => rfl
  case begins =>
    rintro ⟨k, f, hbegins⟩
    cases hbegins with
    | get => exact h.unpolled _ _ _ _ _ (.get _ _ _ _)
    | poll present => exact h.unpolled _ _ _ _ _ (.poll present _ _)
  case fails =>
    rintro ⟨f, err, failed⟩
    cases e with
    | get id k waker reply => exact h.unpolled _ _ _ _ _ (.get id k waker reply)
    | poll id waker reply =>
      cases hc : t.state.session.calls.get? id with
      | none =>
        have hpoll : t.state.poll id t.now waker reply = none := by rw [poll, hc, Option.map_none]
        simp only [outcome?, hpoll] at failed
        cases failed
      | some call => exact h.unpolled _ _ _ _ _ (.poll hc waker reply)
    | _ => cases failed
  case schedules =>
    rintro ⟨o, hschedules⟩
    exact h.not_schedules o hschedules
  case ends => exact fun fate _ => h.not_ends fate
  case invalidates =>
    rintro ⟨k, hinvalidates⟩
    cases hinvalidates with
    | intro stored emptied =>
      have hstep : step t (.change k) = t := by simp only [step, perform, h.unchanged k rfl]
      have hslot := emptied.slot?_eq k
      rw [hstep, if_pos rfl, stored] at hslot
      cases hslot

theorem Idle.step_eq : (step t e).state.tally = t.state.tally ∧
    (step t e).state.renewals = t.state.renewals := by
  cases e with
  | get id k waker reply => exact absurd (.get id k waker reply) (h.unpolled _ _ _ _ _)
  | poll id waker reply =>
    cases hc : t.state.session.calls.get? id with
    | none =>
      rw [step_poll_of_absent hc]
      exact ⟨rfl, rfl⟩
    | some call => exact absurd (.poll hc waker reply) (h.unpolled _ _ _ _ _)
  | change k =>
    simp only [step, perform, h.unchanged k rfl]
    exact ⟨trivial, trivial⟩
  | runRenewal n reply =>
    simp only [step, perform, h.unrun n reply rfl]
    exact ⟨trivial, trivial⟩
  | dropRenewal n =>
    simp only [step, perform, h.undropped n rfl]
    exact ⟨trivial, trivial⟩
  | _ => exact ⟨rfl, rfl⟩

end Idle

theorem step_drop {q : Renewal κ ν} (outstanding : t.state.renewals.get? n = some q) :
    (step t (.dropRenewal n)).state = t.state.closeRenewal n q := by
  simp only [step, perform, outstanding]

/-- An event adds to the counts the things that happen in it. -/
theorem tally_step (t : Clocked (Cache ι κ ν ε ω)) (e : CacheEvent ι κ ν ε ω) :
    (step t e).state.tally = t.state.tally + deeds t e := by
  cases deed t e with
  | polls polls => exact polls.tally_eq
  | changes reaction =>
    rw [step_change reaction, deeds_change reaction]
    exact tally_change reaction
  | runs result =>
    rw [step_runRenewal result, deeds_run result]
    exact (closed_runRenewal result).tally_eq
  | drops outstanding =>
    rw [step_drop outstanding, deeds_drop outstanding]
    rfl
  | idle idle =>
    rw [idle.step_eq.1, deeds_idle idle]
    rfl

end Steps

end ReadThrough.Cache
