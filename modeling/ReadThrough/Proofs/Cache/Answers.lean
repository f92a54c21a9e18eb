import ReadThrough.Proofs.Cache.Course
import ReadThrough.Proofs.Store.Replacing

/-!
# What a renewal does to the tables

A renewal changes the tables at most once, when its load completes with an answer. It does so
exactly if its entry is still stored then. A value needs an entry of its own, so it has to come in
time for one.
-/

namespace ReadThrough.Cache

variable {ι κ ν ε ω : Type} [DecidableEq κ]

/-- The load of a renewal completes with an answer while the entry is still stored. If the answer is
a value, its entry would not expire too late. -/
def Completes (s : Store κ ν ε ω) (q : Renewal κ ν) (now : Instant) : Reply ν ε → Prop
  | .answered d value => s.holds q.key q.entry = true ∧
      (value.isSome = true → isRepresentable (now + d + s.timeToLive.toNanos) = true)
  | _ => False

/-- What running a renewal can have done to the tables. -/
inductive Applied (s : Store κ ν ε ω) (q : Renewal κ ν) (now : Instant) (reply : Reply ν ε)
    (run : RenewalRun ι κ ν ε ω) : Prop where
  | kept (incomplete : ¬ Completes s q now reply) (same : s.SameRecords run.cache.store)
      (ended : ∀ r, run.ended ≠ some (.renewed r))
  | replaced {d : Nat} {v : ν} {r : Ref (Entry ν)} (answer : reply = .answered d (some v))
      (complete : Completes s q now reply) (ended : run.ended = some (.renewed r))
      (replaced : s.Replaced q.key (some v) (now + d) r run.cache.store)
  | removed {d : Nat} (answer : reply = .answered d none) (complete : Completes s q now reply)
      (ended : run.ended = some .removed) (emptied : s.Emptied q.key run.cache.store)

variable {s s' : Store κ ν ε ω} {c : Cache ι κ ν ε ω} {n : Nat} {q : Renewal κ ν} {now : Instant}
  {reply : Reply ν ε} {run : RenewalRun ι κ ν ε ω}

theorem completes_congr (h : s.SameRecords s') :
    Completes s' q now reply ↔ Completes s q now reply := by
  cases reply with
  | answered d value => rw [Completes, Completes, h.holds_eq, h.timeToLive_eq]
  | _ => exact Iff.rfl

theorem Applied.congr (h : Applied s' q now reply run) (same : s.SameRecords s') :
    Applied s q now reply run := by
  cases h with
  | kept incomplete kept ended =>
    exact .kept (mt (completes_congr same).mpr incomplete) (same.trans kept) ended
  | replaced answer complete ended replaced =>
    exact .replaced answer ((completes_congr same).mp complete) ended
      (replaced.congr same (.refl _) rfl)
  | removed answer complete ended emptied =>
    exact .removed answer ((completes_congr same).mp complete) ended
      (emptied.congr same (.refl _))

/-- The tables are as they were exactly if no load has completed with an answer to be applied. -/
theorem Applied.unchanged_iff (h : Applied s q now reply run) (hs : s.Tidy) :
    s.SameRecords run.cache.store ↔ ¬ Completes s q now reply := by
  have hstored : Completes s q now reply → s.slot? q.key = some q.entry := by
    intro hcomplete
    cases reply with
    | answered d value => exact of_decide_eq_true hcomplete.1
    | _ => cases hcomplete
  cases h with
  | kept incomplete same ended => exact iff_of_true same incomplete
  | replaced answer complete ended replaced =>
    refine iff_of_false (fun same => ?_) (not_not_intro complete)
    have hslot := replaced.slot?_self
    rw [same.slot?_eq, hstored complete] at hslot
    split at hslot
    · exact hs.ne_of_new replaced.new (hstored complete) (Option.some.inj hslot)
    · cases hslot
  | removed answer complete ended emptied =>
    refine iff_of_false (fun same => ?_) (not_not_intro complete)
    have hslot := emptied.slot?_eq q.key
    rw [same.slot?_eq, hstored complete, if_pos rfl] at hslot
    cases hslot

omit [DecidableEq κ] in
theorem entryAt?_closeRenewal (c : Cache ι κ ν ε ω) (n : Nat) {r : Ref (Entry ν)}
    (hr : r ≠ q.entry) : (c.closeRenewal n q).store.entryAt? r = c.store.entryAt? r :=
  (Store.entryAt?_modifyEntry c.store q.entry _ r).trans (if_neg hr)

theorem sameRecords_closeRenewal (c : Cache ι κ ν ε ω) (n : Nat) (q : Renewal κ ν) :
    c.store.SameRecords (c.closeRenewal n q).store :=
  Store.sameRecords_modifyEntry c.store q.entry fun _ => rfl

theorem sameRecords_endRenewal (c : Cache ι κ ν ε ω) (n : Nat) (q : Renewal κ ν)
    (e : RenewalEnd ν ε) : c.store.SameRecords (c.endRenewal n q e).store :=
  sameRecords_closeRenewal _ n q

theorem sameRecords_setLease (c : Cache ι κ ν ε ω) (r : Ref (Entry ν)) (w : LeaseWord) :
    c.store.SameRecords (c.setLease r w).store :=
  Store.sameRecords_modifyEntry c.store r fun _ => rfl

theorem applyAnswer_none (c : Cache ι κ ν ε ω) (q : Renewal κ ν) (now : Instant) :
    c.applyAnswer q none now = if c.store.holds q.key q.entry then
      (.removed, [], c.withStore (c.store.forget q.key)) else (.alreadyGone, [], c) := by
  rw [applyAnswer, Store.removeIfSame]
  cases c.store.holds q.key q.entry with
  | false => rfl
  | true => rfl

section Swapping

variable {d : Nat} {v : ν}

/-- A value is not applied only if the entry has changed or the new one would expire too late. -/
theorem not_completes_of_swapFailure {failure : Store.SwapFailure}
    (h : s.swapIfSame q.key q.entry (some v) (now + d) = .error failure) :
    ¬ Completes s q now (.answered d (some v)) := by
  rintro ⟨hholds, htime⟩
  obtain ⟨stored, hstored⟩ : ∃ stored, s.swapIfSame q.key q.entry (some v) (now + d) = .ok stored :=
    Store.exists_swapIfSame hholds (htime rfl)
  cases h.symm.trans hstored

theorem replaced_of_swapIfSame (hs : s.Sound) {stored : Store.Stored κ ν ε ω}
    (h : s.swapIfSame q.key q.entry (some v) (now + d) = .ok stored) :
    Completes s q now (.answered d (some v)) ∧ stored.entry ≠ q.entry ∧
      s.Replaced q.key (some v) (now + d) stored.entry stored.store := by
  obtain ⟨hholds, e, hfresh, -⟩ := Store.swapIfSame_eq_ok h
  have hstored : s.slot? q.key = some q.entry := of_decide_eq_true hholds
  have hreplaced := (Store.roomMade_swapIfSame hs.toTidy h).replaced hs
    ((Store.changes_swapIfSame h).sound hs).toTidy hstored
  refine ⟨⟨hholds, fun _ => ?_⟩, (hs.ne_of_new hreplaced.new hstored).symm, hreplaced⟩
  obtain ⟨htime, rfl⟩ := Entry.fresh?_eq_some_iff.mp hfresh
  exact htime

end Swapping

theorem applied_runStarted (hs : c.store.Sound) (n : Nat) (q : Renewal κ ν) (asked : Bool)
    (now : Instant) (reply : Reply ν ε) :
    Applied c.store q now reply (c.runStarted n q asked now reply) := by
  unfold runStarted
  cases reply with
  | pending => exact .kept id (.refl _) fun r h => by cases h
  | failed d error => exact .kept id (c.sameRecords_endRenewal n q _) fun r h => by cases h
  | crashed d text => exact .kept id (c.sameRecords_endRenewal n q _) fun r h => by cases h
  | answered d value =>
    cases value with
    | none =>
      by_cases hholds : c.store.holds q.key q.entry = true
      · have hemptied := c.store.emptied_forget q.key
        simp only [applyAnswer_none, if_pos hholds]
        exact .removed rfl ⟨hholds, fun h => by cases h⟩ rfl
          (hemptied.congr (.refl _)
            (sameRecords_endRenewal (c.withStore (c.store.forget q.key)) n q _))
      · simp only [applyAnswer_none, if_neg hholds]
        exact .kept (fun h => hholds h.1) (c.sameRecords_endRenewal n q _) fun r h => by cases h
    | some v =>
      simp only [applyAnswer]
      cases hswap : c.store.swapIfSame q.key q.entry (some v) (now + d) with
      | error failure =>
        have hincomplete := not_completes_of_swapFailure hswap
        cases failure with
        | superseded =>
          exact .kept hincomplete (c.sameRecords_endRenewal n q _) fun r h => by cases h
        | expiryOverflow =>
          exact .kept hincomplete (c.sameRecords_endRenewal n q _) fun r h => by cases h
      | ok stored =>
        obtain ⟨hcomplete, hne, hreplaced⟩ := replaced_of_swapIfSame hs hswap
        exact .replaced rfl hcomplete rfl (hreplaced.congr (.refl _)
          (sameRecords_endRenewal (c.withStore stored.store) n q _)
          (entryAt?_closeRenewal _ n hne))

theorem exists_runRenewal (hq : c.renewals.get? n = some q) (now : Instant) (reply : Reply ν ε) :
    ∃ run, c.runRenewal n now reply = some run := by
  rw [runRenewal, hq]
  exact ⟨_, rfl⟩

/-- A renewal that is run applies the answer of its load, or leaves the tables as they are. -/
theorem applied_runRenewal (hc : c.LeasesHeld) (hs : c.store.Sound)
    (hq : c.renewals.get? n = some q) (hrun : c.runRenewal n now reply = some run) :
    Applied c.store q now reply run := by
  obtain ⟨q', hq', resumed⟩ := resumed_runRenewal hrun
  cases hq.symm.trans hq'
  cases resumed with
  | further running eq =>
    rw [eq]
    exact applied_runStarted hs n q false now reply
  | started waiting started eq =>
    have hstarted := (follows_startLease started).changes.sound hs
    obtain ⟨-, -, rfl⟩ := startLease_eq_some_iff.mp started
    rw [eq]
    exact (applied_runStarted hstarted n q true now reply).congr (c.sameRecords_setLease q.entry _)
  | stale waiting stale eq =>
    rw [eq]
    refine .kept (fun h => ?_) (c.sameRecords_endRenewal n q _) fun r h => by cases h
    cases reply with
    | answered d value => cases stale.symm.trans ((hc.startLease_eq hq waiting).trans (if_pos h.1))
    | _ => cases h

theorem completes_of_removed_runStarted {asked : Bool}
    (ended : (c.runStarted n q asked now reply).ended = some .removed) :
    Completes c.store q now reply := by
  unfold runStarted at ended
  cases reply with
  | pending => cases ended
  | failed d error => cases ended
  | crashed d text => cases ended
  | answered d value =>
    cases value with
    | none =>
      simp only [applyAnswer_none] at ended
      split at ended
      · exact ⟨‹_›, fun h => by cases h⟩
      · cases ended
    | some v =>
      simp only [applyAnswer] at ended
      split at ended <;> cases ended

theorem completes_of_removed (hq : c.renewals.get? n = some q)
    (hrun : c.runRenewal n now reply = some run) (ended : run.ended = some .removed) :
    Completes c.store q now reply := by
  obtain ⟨q', hq', resumed⟩ := resumed_runRenewal hrun
  cases hq.symm.trans hq'
  cases resumed with
  | further running eq =>
    rw [eq] at ended
    exact completes_of_removed_runStarted ended
  | started waiting started eq =>
    obtain ⟨-, -, rfl⟩ := startLease_eq_some_iff.mp started
    rw [eq] at ended
    exact (completes_congr (c.sameRecords_setLease q.entry _)).mp
      (completes_of_removed_runStarted ended)
  | stale waiting stale eq =>
    rw [eq] at ended
    cases ended

end ReadThrough.Cache
