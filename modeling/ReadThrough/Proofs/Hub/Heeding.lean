import ReadThrough.Proofs.Cache.Ahead
import ReadThrough.Proofs.Cache.Conservation
import ReadThrough.Proofs.Cache.Vacant
import ReadThrough.Proofs.Hub.FanOut
import ReadThrough.Proofs.Store.Agreement

/-!
# Changes that are heeded

A cache that hears of a change has no entry for the key afterwards, or one that is held for a
renewal. In either case nothing is left to be done about the same change at the same time. However
often the cache hears of it, it spends tokens at most.
-/

namespace ReadThrough.Cache

variable {ι κ ν ε ω : Type}

/-- Nothing but the count of tokens is different in `c'`. -/
def SameButTokens (c c' : Cache ι κ ν ε ω) : Prop := ∃ tokens, c' = { c with tokens := tokens }

namespace SameButTokens

variable {c c' c'' : Cache ι κ ν ε ω}

theorem refl (c : Cache ι κ ν ε ω) : SameButTokens c c := ⟨c.tokens, rfl⟩

theorem trans (h : SameButTokens c c') (h' : SameButTokens c' c'') : SameButTokens c c'' := by
  obtain ⟨tokens, rfl⟩ := h
  obtain ⟨tokens', rfl⟩ := h'
  exact ⟨tokens', rfl⟩

end SameButTokens

section Reactions

variable [DecidableEq κ] {c c' : Cache ι κ ν ε ω} {k : κ} {r : Ref (Entry ν)} {now : Instant}
  {s : Scheduling ι κ ν ε ω}

/-- Nothing is left to be done about a change: there is no live entry, or the policy cannot decide
about it, or it is due and held. -/
inductive Heeded (c : Cache ι κ ν ε ω) (k : κ) (now : Instant) : Prop where
  | missing (missing : c.store.live? k now = none)
  | undecided {r : Ref (Entry ν)} (live : c.store.live? k now = some r)
      (undecided : c.decision r now = .overflow)
  | held {r : Ref (Entry ν)} (live : c.store.live? k now = some r)
      (due : c.decision r now = .renew)
      (held : ∀ x, c.store.entryAt? r = some x → x.lease ≠ .idle)

theorem SameButTokens.heeded (same : SameButTokens c c') (h : c.Heeded k now) :
    c'.Heeded k now := by
  obtain ⟨tokens, rfl⟩ := same
  cases h with
  | missing missing => exact .missing missing
  | undecided live undecided => exact .undecided live undecided
  | held live due held => exact .held live due held

theorem Heeded.sameButTokens (h : c.Heeded k now) (reaction : c.change k now = some s) :
    SameButTokens c s.cache := by
  cases reacted_change reaction with
  | missing missing eq =>
    rw [eq]
    exact .refl c
  | @renewed r live due eq =>
    rw [eq]
    cases h with
    | missing missing => cases missing.symm.trans live
    | undecided live' undecided =>
      cases live.symm.trans live'
      cases due.symm.trans undecided
    | held live' due' held =>
      cases live.symm.trans live'
      cases c.scheduled_schedule k r with
      | busy held' eq => exact ⟨c.tokens.next.2, by rw [eq]⟩
      | outstanding present idle => exact absurd idle (held _ present)
      | dropped present idle => exact absurd idle (held _ present)
  | removed live early =>
    cases h with
    | missing missing => cases missing.symm.trans live
    | undecided live' undecided =>
      cases live.symm.trans live'
      cases early.symm.trans undecided
    | held live' due =>
      cases live.symm.trans live'
      cases early.symm.trans due

theorem change_eq_none_iff : c.change k now = none ↔
    ∃ r, c.store.live? k now = some r ∧ c.decision r now = .overflow := by
  unfold change
  split
  · rename_i missing
    simp [missing]
  · rename_i r live
    split
    · rename_i decided
      simp [live, decided]
    · rename_i decided
      simp [live, decided]
    · rename_i decided
      simp [live, decided]

omit [DecidableEq κ] in
theorem held_schedule (running : c.executor = .running) (k : κ) (r : Ref (Entry ν))
    {x : Entry ν} (hx : (c.schedule k r).cache.store.entryAt? r = some x) : x.lease ≠ .idle := by
  cases c.scheduled_schedule k r with
  | busy held eq =>
    rw [eq] at hx
    exact held x hx
  | outstanding present idle running' eq =>
    rw [eq] at hx
    have hget : (c.taken r).store.entryAt? r = some x := hx
    have htaken : (c.taken r).store.entryAt? r = _ := Store.entryAt?_modifyEntry c.store r _ r
    rw [htaken, if_pos rfl, present] at hget
    cases hget
    exact LeaseWord.pack_ne_idle _ _
  | dropped present idle stopped => exact absurd running stopped

/-- A cache whose renewals are run heeds every change that it does not crash over. -/
theorem heeded_change (running : c.executor = .running) (reaction : c.change k now = some s) :
    s.cache.Heeded k now := by
  cases reacted_change reaction with
  | missing missing eq =>
    rw [eq]
    exact .missing missing
  | @renewed r live due eq =>
    have hrecords := c.sameRecords_schedule k r
    have hpolicy := congrArg (·.2.2) (c.identity_schedule k r)
    rw [eq]
    refine .held (r := r) ?_ ?_ fun x hx => held_schedule running k r hx
    · rw [hrecords.live?_eq, live]
    · rw [decision_congr hpolicy (hrecords.contents?_eq r), due]
  | removed live early eq =>
    rw [eq]
    exact .missing ((Store.live?_remove c.store k k).trans (if_pos rfl))

end Reactions

section Repetitions

variable [DecidableEq ι] [DecidableEq κ] [DecidableEq ω] {c : Cache ι κ ν ε ω} {k : κ}
  {now : Instant} {t : Clocked (Cache ι κ ν ε ω)} {s : Scheduling ι κ ν ε ω}

theorem step_change_of_some (reaction : t.state.change k t.now = some s) :
    step t (.change k) = ⟨t.now, s.cache⟩ := by
  simp only [step, perform, reaction]

theorem step_change_of_none (crash : t.state.change k t.now = none) : step t (.change k) = t := by
  simp only [step, perform, crash]

theorem step_change_of_early {r : Ref (Entry ν)} (live : t.state.store.live? k t.now = some r)
    (early : t.state.decision r t.now = .keep) : step t (.change k) =
      ⟨t.now, { (t.state.discard k).2 with
        tally := { t.state.tally with invalidations := t.state.tally.invalidations + 1 } }⟩ := by
  refine step_change_of_some (s := ⟨_, .removedAfterChange, none⟩) ?_
  simp only [change, live, early]
  rfl

theorem slot?_step_of_early {r : Ref (Entry ν)} (live : t.state.store.live? k t.now = some r)
    (early : t.state.decision r t.now = .keep) :
    (step t (.change k)).state.store.slot? k = none := by
  rw [step_change_of_early live early]
  exact (Store.slot?_remove t.state.store k k).trans (if_pos rfl)

theorem heeded_step (running : t.state.executor = .running) (k : κ) :
    (step t (.change k)).state.Heeded k t.now := by
  cases hs : t.state.change k t.now with
  | none =>
    obtain ⟨r, live, undecided⟩ := change_eq_none_iff.mp hs
    rw [step_change_of_none hs]
    exact .undecided live undecided
  | some s =>
    rw [step_change_of_some hs]
    exact heeded_change running hs

theorem Heeded.hearing (h : c.Heeded k now) (n : Nat) :
    SameButTokens c (Hub.hearing c k now n).state := by
  refine Hub.hearing_of_preserved (motive := fun d => SameButTokens c d) ?_ (.refl c) n
  intro d s same reaction
  exact same.trans ((same.heeded h).sameButTokens reaction)

/-- Hearing of a change any number of times is as good as hearing of it once. -/
theorem sameButTokens_hearing (running : t.state.executor = .running) (k : κ) (n : Nat) :
    SameButTokens (step t (.change k)).state (Hub.hearing t.state k t.now (n + 1)).state := by
  have hheeded := (heeded_step running k).hearing n
  have hstep : (step t (.change k)).state = (Hub.hearing t.state k t.now 1).state := rfl
  rw [hstep, Hub.hearing_add, Nat.add_comm] at hheeded
  exact hheeded

theorem now_hearing (c : Cache ι κ ν ε ω) (k : κ) (now : Instant) (n : Nat) :
    (Hub.hearing c k now n).now = now := by
  induction n generalizing c with
  | zero => rfl
  | succ n ih => rw [Hub.hearing_succ, ih]

theorem sameButTokens_deliverLocally (running : t.state.executor = .running) {h : Hub ι κ ν ε ω}
    {i : Ref (Cache ι κ ν ε ω)} (hi : h.caches.get? i = some t.state) {registry scope : String}
    (registered : .cache i ∈ (h.subscribersTo registry scope).1) (k : κ) :
    ∃ c', (h.deliverLocally registry scope k t.now).2.hub.caches.get? i = some c' ∧
      SameButTokens (step t (.change k)).state c' := by
  have hreached := (Hub.reached_deliverLocally h registry scope k t.now).caches_eq i
  have hbefore : (h.subscribersTo registry scope).2.caches.get? i = some t.state := hi
  obtain ⟨n, hn⟩ := Nat.exists_eq_succ_of_ne_zero (List.count_pos_iff.mpr registered).ne'
  rw [hbefore, Option.map_some, hn] at hreached
  exact ⟨_, hreached, sameButTokens_hearing running k n⟩

end Repetitions

section Renewals

variable [DecidableEq κ] {c : Cache ι κ ν ε ω} {k : κ} {r : Ref (Entry ν)}

/-- In `c'`, which `c` has become, the entry `r` is still stored for `k`, and held by a renewal: a
new one if the entry was idle, and the one that there was otherwise. -/
structure LeavesHeld (c : Cache ι κ ν ε ω) (k : κ) (r : Ref (Entry ν)) (c' : Cache ι κ ν ε ω) :
    Prop where
  stored : c'.store.slot? k = some r
  contents_eq : c'.store.contents? r = c.store.contents? r
  stage : ∃ x, c'.store.entryAt? r = some x ∧ (x.stage = .scheduled ∨ x.stage = .running)
  outstanding : ∃! n, ∃ q, c'.renewals.get? n = some q ∧ q.entry = r
  spawned : ∀ x, c.store.entryAt? r = some x → x.stage = .idle →
    c.renewals.get? c.nextRenewal = none ∧
      c'.renewals = c.renewals.put c.nextRenewal ⟨k, r, c.tokens.next.1, false⟩
  joined : ∀ x, c.store.entryAt? r = some x → x.stage ≠ .idle → c'.renewals = c.renewals

theorem leavesHeld_schedule (hleases : c.LeasesHeld) (hsound : c.store.Sound)
    (running : c.executor = .running) (hr : c.store.slot? k = some r) :
    c.LeavesHeld k r (c.schedule k r).cache := by
  have hrecords := c.sameRecords_schedule k r
  have hleases' := hleases.schedule k r
  have hslot : (c.schedule k r).cache.store.slot? k = some r := (hrecords.slot?_eq k).trans hr
  have hsound' := (c.follows_schedule k r).changes.sound hsound
  obtain ⟨x, hx⟩ := hsound'.present hslot
  have hone := (hleases'.lease_ne_idle_iff hx).mp (held_schedule running k r hx)
  constructor
  case stored => exact hslot
  case contents_eq => exact hrecords.contents?_eq r
  case stage =>
    obtain ⟨n, ⟨q, hq, hentry⟩, -⟩ := hone
    have hstage := (hleases'.stage_eq_iff hx q.running).mpr ⟨n, q, hq, hentry, rfl⟩
    refine ⟨x, hx, ?_⟩
    rw [hstage]
    cases q.running with
    | false => exact .inl rfl
    | true => exact .inr rfl
  case outstanding => exact hone
  case spawned =>
    intro y hy idle
    refine ⟨hleases.get?_nextRenewal, ?_⟩
    cases c.scheduled_schedule k r with
    | busy held => exact absurd ((hleases.stage_eq_idle_iff hy).mp idle) (held y hy)
    | outstanding present idle running eq => rw [eq]
    | dropped present idle stopped => exact absurd running stopped
  case joined =>
    intro y hy held
    cases c.scheduled_schedule k r with
    | busy held eq => rw [eq]
    | outstanding present idle =>
      cases hy.symm.trans present
      exact absurd ((hleases.stage_eq_idle_iff hy).mpr idle) held
    | dropped present idle stopped => exact absurd running stopped

end Renewals

section Runs

variable [DecidableEq ι] [DecidableEq κ] [DecidableEq ω]

/-- What a change of the value behind `k` does to a cache in the state `t`. An entry that is not due
is removed, so that the next poll for the key finds nothing; one that is due is held for a renewal.
Hearing of it again, or being registered for it more than once, makes no difference. -/
structure HeedsChange (t : Clocked (Cache ι κ ν ε ω)) (k : κ) : Prop where
  uncached : t.state.store.live? k t.now = none → step t (.change k) = t
  undecided : ∀ r, t.state.store.live? k t.now = some r → t.state.decision r t.now = .overflow →
    step t (.change k) = t
  removed : ∀ r, t.state.store.live? k t.now = some r → t.state.decision r t.now = .keep →
    let c := (step t (.change k)).state
    (∀ i : Fin (shardCount c.store.shardBits),
      k ∉ (c.store.shards.get i).slots.keys ∧ k ∉ (c.store.shards.get i).deadlines.keys) ∧
    c.tally = { t.state.tally with invalidations := t.state.tally.invalidations + 1 }
  fetched : ∀ r, t.state.store.live? k t.now = some r → t.state.decision r t.now = .keep →
    ∀ after, ¬ Occurs step (step t (.change k)) after (PollsFor k) →
      ∀ e c id call waker reply, let t' := after.foldl step (step t (.change k))
        Polls t' e c id call waker reply → call.key = k →
          Fetches c id call (c.pollCall id call t'.now waker reply)
  renewed : t.state.executor = .running →
    ∀ r, t.state.store.live? k t.now = some r → t.state.decision r t.now = .renew →
      t.state.LeavesHeld k r (step t (.change k)).state
  repeated : t.state.executor = .running → ∀ n,
    (Hub.hearing t.state k t.now (n + 1)).now = t.now ∧
      SameButTokens (step t (.change k)).state (Hub.hearing t.state k t.now (n + 1)).state
  delivered : t.state.executor = .running → ∀ (h : Hub ι κ ν ε ω) i registry scope,
    h.caches.get? i = some t.state → .cache i ∈ (h.subscribersTo registry scope).1 →
      ∃ c', (h.deliverLocally registry scope k t.now).2.hub.caches.get? i = some c' ∧
        SameButTokens (step t (.change k)).state c'

variable (o : Origin κ) (events : List (CacheEvent ι κ ν ε ω)) (k : κ)

/-- Whatever has happened to a cache, a change removes the entry or leaves it held for a renewal,
and hearing of it again makes no difference. -/
theorem heeds_change : HeedsChange (events.foldl step o.start) k := by
  constructor
  case uncached =>
    intro missing
    have hreaction : (events.foldl step o.start).state.change k (events.foldl step o.start).now =
        some ⟨(events.foldl step o.start).state, .changeOfUncached, none⟩ := by
      rw [change, missing]
    rw [step_change_of_some hreaction]
  case undecided =>
    intro r live undecided
    exact step_change_of_none (change_eq_none_iff.mpr ⟨r, live, undecided⟩)
  case removed =>
    intro r live early c
    have hsound := sound_run o (events ++ [.change k])
    rw [List.foldl_append] at hsound
    refine ⟨fun i => hsound.not_mem_keys (slot?_step_of_early live early) i, ?_⟩
    exact congrArg (fun t => t.state.tally) (step_change_of_early live early)
  case fetched =>
    rintro r live early after unpolled e c id call waker reply t' polls rfl
    have hslot := slot?_step_of_early live early
    have ht : step (events.foldl step o.start) (.change call.key) =
        (events ++ [CacheEvent.change call.key]).foldl step o.start := by
      rw [List.foldl_append]
      rfl
    have ht' : t' = (events ++ [CacheEvent.change call.key] ++ after).foldl step o.start := by
      rw [List.foldl_append, ← ht]
    rw [ht] at hslot unpolled
    have habsent := slot?_run_eq_none o _ hslot unpolled
    rw [← List.foldl_append] at habsent
    rw [ht'] at polls ⊢
    exact fetches_run o _ habsent polls
  case renewed =>
    intro running r live due
    have hreaction : (events.foldl step o.start).state.change k (events.foldl step o.start).now =
        some ((events.foldl step o.start).state.schedule k r) := by
      simp only [change, live, due]
    rw [step_change_of_some hreaction]
    exact leavesHeld_schedule (leasesHeld_run o events) (sound_run o events) running
      (Store.live?_eq_some_iff.mp live).1
  case repeated =>
    intro running n
    exact ⟨now_hearing .., sameButTokens_hearing running k n⟩
  case delivered =>
    intro running h i registry scope hi registered
    exact sameButTokens_deliverLocally running hi registered k

/-- When a change has removed the entry for `k`, the next poll of a get for it waits for a load or
runs one. -/
def LoadsAnew (t : Clocked (Cache ι κ ν ε ω)) (k : κ) : Prop :=
  ∀ r, t.state.store.live? k t.now = some r → t.state.decision r t.now = .keep →
    ∀ e c id call waker reply, Polls (step t (.change k)) e c id call waker reply → call.key = k →
      let served := c.pollCall id call t.now waker reply
      served.outcome = some .pending ∨ served.ran = true

end Runs

section Belated

/-- Entries live for ten seconds. -/
def belatedOrigin : Origin Nat where
  name := "belated"
  scope := "belated"
  policy := .thirdQuarter
  executor := .running
  tokens := .start
  layout := ⟨.ofSeconds 10, 0, 0, none⟩
  hash := UInt64.ofNat
  now := 0

/-- Two gets are begun for the same key, and the load that the second one waits for fails. Before it
is polled again, a third one loads the key. -/
def belatedRun : List (CacheEvent Nat Nat Int Nat Nat) :=
  [.get 0 7 0 .pending, .get 1 7 1 .pending, .poll 0 0 (.failed 0 5),
    .get 2 7 2 (.answered 0 (some 1))]

/-- A get that has been waiting for a load which has failed returns the failure, though the key has
been loaded since and a change has removed its entry again. -/
theorem belated_loads_nothing : ¬ LoadsAnew (belatedRun.foldl step belatedOrigin.start) 7 := by
  have hfacts : let t := belatedRun.foldl step belatedOrigin.start
      t.state.store.live? 7 t.now = some ⟨0⟩ ∧ t.state.decision ⟨0⟩ t.now = .keep ∧
        (step t (.change 7)).state.session.calls.get? 1 = some ⟨7, .waiting true ⟨0⟩⟩ ∧
        ((step t (.change 7)).state.pollCall 1 ⟨7, .waiting true ⟨0⟩⟩ t.now 1
          (.answered 0 (some 2))).outcome = some (.sharedFailure ⟨0⟩ 5) ∧
        ((step t (.change 7)).state.pollCall 1 ⟨7, .waiting true ⟨0⟩⟩ t.now 1
          (.answered 0 (some 2))).ran = false := by decide +kernel
  obtain ⟨live, early, present, houtcome, hran⟩ := hfacts
  intro h
  have hpolls := Polls.poll present 1 (.answered 0 (some 2))
  rcases h _ live early _ _ _ _ _ _ hpolls rfl with pending | ran
  · cases houtcome.symm.trans pending
  · cases hran.symm.trans ran

end Belated

end ReadThrough.Cache
