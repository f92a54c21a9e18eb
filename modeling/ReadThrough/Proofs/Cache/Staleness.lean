import ReadThrough.Proofs.Cache.Answers
import ReadThrough.Proofs.Cache.Gets

/-!
# Stale renewals

An entry that has left its slot never comes back, and a renewal whose entry has left its slot does
nothing any more. So after the entry of a key has been removed, no get of this key resolves to an
entry from a renewal that was scheduled before.
-/

namespace ReadThrough.Cache

variable {ι κ ν ε ω : Type} [DecidableEq ι] [DecidableEq κ] [DecidableEq ω]

section Events

/-- The event leaves nothing stored for `k`. -/
inductive Purges (k : κ) (t : Clocked (Cache ι κ ν ε ω)) : CacheEvent ι κ ν ε ω → Prop where
  | discard : Purges k t (.discard k)
  | clear : Purges k t .clear
  | change {s : Scheduling ι κ ν ε ω} (reaction : t.state.change k t.now = some s)
      (removed : s.notice = .removedAfterChange) : Purges k t (.change k)

/-- The event runs the renewal `n`, which stores its value as the entry `r`. -/
inductive Renews (n : Nat) (r : Ref (Entry ν)) (t : Clocked (Cache ι κ ν ε ω)) :
    CacheEvent ι κ ν ε ω → Prop where
  | run {reply : Reply ν ε} {run : RenewalRun ι κ ν ε ω}
      (outstanding : t.state.runRenewal n t.now reply = some run)
      (ended : run.ended = some (.renewed r)) : Renews n r t (.runRenewal n reply)

/-- A get of `k` can be polled now, or begun and polled, so that it resolves to the entry `r`. -/
inductive Returns (k : κ) (r : Ref (Entry ν)) (t : Clocked (Cache ι κ ν ε ω)) : Prop where
  | get {id : ι} {waker : ω} {reply : Reply ν ε}
      (resolved : (t.state.get id k t.now waker reply).outcome.bind (·.resolved?) = some r)
  | poll {id : ι} {call : Call κ ε ω} {waker : ω} {reply : Reply ν ε} {served : Served ι κ ν ε ω}
      (present : t.state.session.calls.get? id = some call) (key : call.key = k)
      (polled : t.state.poll id t.now waker reply = some served)
      (resolved : served.outcome.bind (·.resolved?) = some r)

variable {k : κ} {n : Nat} {r : Ref (Entry ν)} {t : Clocked (Cache ι κ ν ε ω)}
  {e : CacheEvent ι κ ν ε ω}

omit [DecidableEq ι] [DecidableEq κ] [DecidableEq ω] in
theorem notice_schedule (c : Cache ι κ ν ε ω) (k : κ) (r : Ref (Entry ν)) :
    (c.schedule k r).notice = .renewalInFlight ∨ (c.schedule k r).notice = .renewalScheduled := by
  cases c.scheduled_schedule k r with
  | busy held eq => exact .inl (congrArg Scheduling.notice eq)
  | outstanding present idle running eq => exact .inr (congrArg Scheduling.notice eq)
  | dropped present idle stopped eq => exact .inr (congrArg Scheduling.notice eq)

theorem Purges.slot?_eq_none (h : Purges k t e) : (step t e).state.store.slot? k = none := by
  have hremove : (t.state.store.remove k).2.slot? k = none := by
    rw [Store.slot?_remove, if_pos rfl]
  cases h with
  | discard => exact hremove
  | clear => exact Store.slot?_clear t.state.store k
  | @change s reaction removed =>
    have hstep : (step t (.change k)).state = s.cache := by simp only [step, perform, reaction]
    rw [hstep]
    cases reacted_change reaction with
    | missing missing eq => cases (congrArg Scheduling.notice eq).symm.trans removed
    | renewed live due eq =>
      rw [eq] at removed
      rcases notice_schedule t.state k _ with hnotice | hnotice
      · cases hnotice.symm.trans removed
      · cases hnotice.symm.trans removed
    | removed live early eq =>
      rw [eq]
      exact hremove

theorem Renews.replaced (h : Renews n r t e) (hc : t.state.LeasesHeld) (hs : t.state.store.Sound) :
    ∃ q v now, t.state.renewals.get? n = some q ∧ t.state.store.slot? q.key = some q.entry ∧
      t.state.store.Replaced q.key (some v) now r (step t e).state.store := by
  cases h with
  | @run reply run outstanding ended =>
    have hstep : (step t (.runRenewal n reply)).state = run.cache := by
      simp only [step, perform, outstanding]
    obtain ⟨q, hq, -⟩ := Option.map_eq_some_iff.mp outstanding
    cases applied_runRenewal hc hs hq outstanding with
    | kept _ _ others => exact absurd ended (others r)
    | removed _ _ ended' => cases ended.symm.trans ended'
    | @replaced d v r' answer complete ended' replaced =>
      cases ended.symm.trans ended'
      subst answer
      rw [hstep]
      exact ⟨q, v, t.now + d, hq, of_decide_eq_true complete.1, replaced⟩

theorem Returns.stored_or_new (h : Returns k r t) :
    t.state.store.slot? k = some r ∨ t.state.store.entryAt? r = none := by
  cases h with
  | @get id waker reply resolved =>
    have hdrop : t.state.store.SameTables (t.state.beginGet id).store :=
      Session.sameTables_drop t.state.session id
    rw [outcome_get] at resolved
    have hresolved := Store.resolved_poll resolved
    rw [hdrop.slot?_eq, hdrop.entryAt?_eq] at hresolved
    exact hresolved
  | @poll id call waker reply served present key polled resolved =>
    rw [poll_of_present present] at polled
    cases polled
    rw [outcome_pollCall] at resolved
    have hresolved := Store.resolved_poll resolved
    rw [key] at hresolved
    exact hresolved

end Events

section Runs

variable (o : Origin κ) {before after : List (CacheEvent ι κ ν ε ω)} {e : CacheEvent ι κ ν ε ω}
  {k : κ} {n : Nat} {r : Ref (Entry ν)}

theorem onward_run (before after : List (CacheEvent ι κ ν ε ω)) :
    (before.foldl step o.start).state.store.Onward
      ((before ++ after).foldl step o.start).state.store := by
  rw [List.foldl_append]
  exact (follows_foldl _ after).changes.onward (sound_run o before)

theorem onward_of_step (before after : List (CacheEvent ι κ ν ε ω)) (e : CacheEvent ι κ ν ε ω) :
    (step (before.foldl step o.start) e).state.store.Onward
      ((before ++ e :: after).foldl step o.start).state.store := by
  rw [List.foldl_append, List.foldl_cons]
  exact (follows_foldl _ after).changes.onward
    ((effect_perform _ e).follows.changes.sound (sound_run o before))

/-- A renewal that is outstanding now, and had a number before, had its entry then. -/
theorem exists_entry_of_scheduled {q : Renewal κ ν}
    (hq : ((before ++ after).foldl step o.start).state.renewals.get? n = some q)
    (scheduled : n < (before.foldl step o.start).state.nextRenewal) :
    ∃ x, (before.foldl step o.start).state.store.entryAt? q.entry = some x := by
  rw [List.foldl_append] at hq
  rcases (follows_foldl _ after).renewals hq with ⟨p, hp, -, hentry⟩ | hnew
  · obtain ⟨x, hx, -⟩ := Option.map_eq_some_iff.mp ((leasesHeld_run o before).held hp)
    exact ⟨x, hentry ▸ hx⟩
  · exact absurd scheduled (Nat.not_lt_of_le hnew)

theorem onward_event (before : List (CacheEvent ι κ ν ε ω)) (e : CacheEvent ι κ ν ε ω) :
    (before.foldl step o.start).state.store.Onward
      (step (before.foldl step o.start) e).state.store :=
  (effect_perform _ e).follows.changes.onward (sound_run o before)

/-- What a renewal has stored is not in the slot of a key that has been purged since the renewal was
scheduled. -/
theorem not_returns_of_purged (purged : Purges k (before.foldl step o.start) e)
    (scheduled : n < (before.foldl step o.start).state.nextRenewal)
    (renewed : Occurs step o.start (before ++ e :: after) (Renews n r)) :
    ¬ Returns k r ((before ++ e :: after).foldl step o.start) := by
  intro hreturns
  obtain ⟨before', e', after', hevents, hrenews⟩ := renewed
  obtain ⟨q, v, now, hq, hstored, hreplaced⟩ :=
    hrenews.replaced (leasesHeld_run o before') (sound_run o before')
  have hpurged := purged.slot?_eq_none
  have hpurge := onward_of_step o before after e
  have hrenew := onward_of_step o before' after' e'
  rw [← hevents] at hrenew
  have hslot : ((before ++ e :: after).foldl step o.start).state.store.slot? k = some r := by
    rcases hreturns.stored_or_new with hslot | hnew
    · exact hslot
    · obtain ⟨x, hx, -⟩ := hrenew.entries hreplaced.fresh
      cases hnew.symm.trans hx
  rcases append_cons_cases hevents with ⟨between, rfl⟩ | ⟨rfl, rfl⟩ | ⟨between, rfl⟩
  · -- The new entry is in existence when the key is purged, and is not stored afterwards.
    obtain ⟨x, hx, -⟩ := (onward_of_step o before' between e').entries hreplaced.fresh
    obtain ⟨y, hy, -⟩ := (onward_event o _ e).entries hx
    cases hpurged.symm.trans (hpurge.slots hy hslot)
  · cases purged <;> cases hrenews
  · -- The old entry is in existence then, and has to be stored until it is renewed.
    have hk : k = q.key := hreplaced.eq_of_slot? (sound_run o _).toTidy
      (hrenew.slots hreplaced.fresh hslot)
    obtain ⟨x, hx⟩ := exists_entry_of_scheduled o hq scheduled
    obtain ⟨y, hy, -⟩ := (onward_event o before e).entries hx
    rw [← hk] at hstored
    cases hpurged.symm.trans ((onward_of_step o before between e).slots hy hstored)

/-- In this run stale renewals do no harm. An entry that has left the tables never comes back, and
running a renewal changes them exactly if its load completes in time while its entry is stored. -/
structure StaleHarmless (start : Clocked (Cache ι κ ν ε ω))
    (events : List (CacheEvent ι κ ν ε ω)) : Prop where
  never_back : ∀ before after k r e, events = before ++ after →
    (before.foldl step start).state.store.entryAt? r = some e →
      (events.foldl step start).state.store.slot? k = some r →
        (before.foldl step start).state.store.slot? k = some r
  changed_iff : ∀ n q now reply, (events.foldl step start).state.renewals.get? n = some q →
    ∃ run, (events.foldl step start).state.runRenewal n now reply = some run ∧
      (¬ (events.foldl step start).state.store.SameRecords run.cache.store ↔
        Completes (events.foldl step start).state.store q now reply)
  applied : ∀ n q now reply run, (events.foldl step start).state.renewals.get? n = some q →
    (events.foldl step start).state.runRenewal n now reply = some run →
      Applied (events.foldl step start).state.store q now reply run
  dropped : ∀ n q, (events.foldl step start).state.renewals.get? n = some q →
    (events.foldl step start).state.store.SameRecords
      ((events.foldl step start).state.closeRenewal n q).store
  purged : ∀ before e after k n r, events = before ++ e :: after →
    Purges k (before.foldl step start) e → n < (before.foldl step start).state.nextRenewal →
      Occurs step start events (Renews n r) → ¬ Returns k r (events.foldl step start)

/-- Whatever happens to a cache, a renewal never undoes what has happened since it was scheduled. -/
theorem stale_renewals_never_clobber (events : List (CacheEvent ι κ ν ε ω)) :
    StaleHarmless o.start events := by
  have hleases := leasesHeld_run o events
  have hsound := sound_run o events
  constructor
  case never_back =>
    rintro before after k r e rfl he hr
    exact (onward_run o before after).slots he hr
  case changed_iff =>
    intro n q now reply hq
    obtain ⟨run, hrun⟩ := exists_runRenewal hq now reply
    refine ⟨run, hrun, ?_⟩
    rw [(applied_runRenewal hleases hsound hq hrun).unchanged_iff hsound.toTidy, not_not]
  case applied =>
    intro n q now reply run hq hrun
    exact applied_runRenewal hleases hsound hq hrun
  case dropped =>
    intro n q _
    exact sameRecords_closeRenewal _ n q
  case purged =>
    rintro before e after k n r rfl hpurged hscheduled hrenewed
    exact not_returns_of_purged o hpurged hscheduled hrenewed

end Runs

section Late

/-- Entries live for half of all time, and are due after a second. -/
def lateOrigin : Origin Nat where
  name := "late"
  scope := "late"
  policy := .dueAfter (.ofSeconds 1)
  executor := .running
  tokens := .start
  layout := ⟨.ofSeconds (secondsLimit / 2), 0, 0, none⟩
  hash := UInt64.ofNat
  now := 0

/-- An entry is loaded after a quarter of all time, and has to be renewed a second later. -/
def lateRun : List (CacheEvent Nat Nat Int Nat Nat) :=
  [.advance (secondsLimit / 4 * nanosPerSecond), .get 0 0 0 (.answered 0 (some 1)),
    .advance nanosPerSecond, .change 0]

/-- The renewal takes another quarter of all time. -/
def lateReply : Reply Int Nat := .answered (secondsLimit / 4 * nanosPerSecond) (some 2)

/-- An answer that comes while the entry is stored is lost if an entry made of it would expire
beyond the last point in time. -/
theorem late_answer_lost :
    let t := lateRun.foldl step lateOrigin.start
    (t.state.renewals.get? 0).map (fun q => t.state.store.holds q.key q.entry) = some true ∧
      (t.state.runRenewal 0 t.now lateReply).map (fun run =>
        (run.ended, run.cache.store.slot? 0, run.cache.store.deadline? 0)) =
          some (some .expiryOverflow, t.state.store.slot? 0, t.state.store.deadline? 0) := by
  decide +kernel

end Late

end ReadThrough.Cache
