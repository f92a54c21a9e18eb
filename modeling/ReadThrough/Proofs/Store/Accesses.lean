import ReadThrough.Proofs.Store.Histories

/-!
# When entries are read

An entry keeps the instant at which it has last been read, as far as offsets from its creation can
tell it, or else the instant of its creation. Nothing but being read changes that.
-/

namespace ReadThrough

variable {κ ν ε ω σ α : Type}

namespace Entry

/-- The access time of an entry that has last been read at this instant, or never. -/
def accessAfter (e : Entry ν) (read : Option Instant) : Instant :=
  e.created + read.elim 0 fun t => min (t - e.created) maxOffset

theorem accessTime_recordAccess {e : Entry ν} {now : Instant}
    (h : e.accessOffset ≤ min (now - e.created) maxOffset) :
    (e.recordAccess now).accessTime = e.accessAfter (some now) :=
  congrArg (e.created + ·) (Nat.max_eq_right h)

end Entry

/-- The instant at which the entry `r` is last read in a run, if it is. -/
def lastRead? (step : Clocked σ → α → Clocked σ)
    (read? : Clocked σ → α → Option (Ref (Entry ν))) (r : Ref (Entry ν)) :
    Clocked σ → List α → Option Instant
  | _, [] => none
  | t, e :: events =>
    (lastRead? step read? r (step t e) events).or (if read? t e = some r then some t.now else none)

theorem lastRead?_concat (step : Clocked σ → α → Clocked σ)
    (read? : Clocked σ → α → Option (Ref (Entry ν))) (r : Ref (Entry ν)) (t : Clocked σ)
    (events : List α) (e : α) :
    lastRead? step read? r t (events ++ [e]) =
      if read? (events.foldl step t) e = some r then some (events.foldl step t).now
      else lastRead? step read? r t events := by
  induction events generalizing t with
  | nil => rfl
  | cons a events ih =>
    rw [List.cons_append, lastRead?, ih, lastRead?, List.foldl_cons]
    split
    · rfl
    · rfl

namespace History

variable [DecidableEq κ] {step : Clocked σ → α → Clocked σ} {store : σ → Store κ ν ε ω}
  {read? : Clocked σ → α → Option (Ref (Entry ν))}
  {Brings : κ → Ref (Entry ν) → Option ν → Instant → Clocked σ → α → Prop} {start : Clocked σ}
  (h : History step store read? Brings start) {events : List α} {e : α} {r : Ref (Entry ν)}
  {x : Entry ν} {time : Instant}

include h

theorem lastRead?_le (read : lastRead? step read? r start events = some time) :
    time ≤ (events.foldl step start).now := by
  induction events using List.reverseRecOn with
  | nil => cases read
  | append_singleton events e ih =>
    rw [lastRead?_concat] at read
    rw [foldl_concat]
    refine Nat.le_trans ?_ (h.clock _ e)
    split at read
    · cases read
      exact Nat.le_refl _
    · exact ih read

theorem readOffset_le (events : List α) (r : Ref (Entry ν)) (created : Instant) :
    ((lastRead? step read? r start events).elim 0 fun t => min (t - created) Entry.maxOffset) ≤
      min ((events.foldl step start).now - created) Entry.maxOffset := by
  cases hlast : lastRead? step read? r start events with
  | none => exact Nat.zero_le _
  | some t => exact min_le_min_right _ (Nat.sub_le_sub_right (h.lastRead?_le hlast) _)

theorem exists_of_read (hread : read? (events.foldl step start) e = some r) :
    ∃ x, (store (events.foldl step start).state).contents? r = some x := by
  obtain ⟨⟨k, hlive⟩, -, -⟩ := h.reads events e r hread
  exact h.exists_contents (Option.filter_eq_some_iff.mp hlive).1

theorem lastRead?_eq_none (absent : (store (events.foldl step start).state).contents? r = none) :
    lastRead? step read? r start events = none := by
  induction events using List.reverseRecOn with
  | nil => rfl
  | append_singleton events e ih =>
    rw [foldl_concat] at absent
    have hbefore : (store (events.foldl step start).state).contents? r = none := by
      cases hx : (store (events.foldl step start).state).contents? r with
      | none => rfl
      | some x => cases absent.symm.trans (h.contents?_step hx)
    rw [lastRead?_concat, if_neg, ih hbefore]
    intro hread
    obtain ⟨x, hx⟩ := h.exists_of_read hread
    cases hbefore.symm.trans hx

/-- An entry keeps when it has last been read. -/
theorem accessOffset_eq (hx : (store (events.foldl step start).state).contents? r = some x) :
    x.accessOffset = (lastRead? step read? r start events).elim 0 fun t =>
      min (t - x.created) Entry.maxOffset := by
  induction events using List.reverseRecOn generalizing x with
  | nil =>
    rw [Store.contents?, List.foldl_nil, h.empty] at hx
    cases hx
  | append_singleton events e ih =>
    rw [foldl_concat] at hx
    rw [lastRead?_concat]
    cases hy : (store (events.foldl step start).state).contents? r with
    | some y =>
      have hkept := ih hy
      cases hx.symm.trans (h.contents?_step hy)
      by_cases hread : read? (events.foldl step start) e = some r
      · rw [if_pos hread, if_pos hread]
        -- The clock has not gone back since the entry was read before.
        refine Nat.max_eq_right ?_
        rw [hkept]
        exact h.readOffset_le events r y.created
      · rw [if_neg hread, if_neg hread, hkept]
    | none =>
      obtain ⟨k, v, time, hbrings⟩ := h.contents?_new hy hx
      obtain ⟨-, hstocked⟩ := h.brings events e k r v time hbrings
      cases hx.symm.trans hstocked.fresh
      rw [if_neg, h.lastRead?_eq_none hy]
      · rfl
      · intro hread
        obtain ⟨x, hx⟩ := h.exists_of_read hread
        cases hy.symm.trans hx

theorem accessOffset_le (hx : (store (events.foldl step start).state).entryAt? r = some x) :
    x.accessOffset ≤ min ((events.foldl step start).now - x.created) Entry.maxOffset := by
  have hoffset := h.accessOffset_eq (Store.contents?_of_entryAt? hx)
  exact hoffset.trans_le (h.readOffset_le events r x.created)

theorem accessTime_eq (hx : (store (events.foldl step start).state).entryAt? r = some x) :
    x.accessTime = x.accessAfter (lastRead? step read? r start events) := by
  have hoffset := h.accessOffset_eq (Store.contents?_of_entryAt? hx)
  exact congrArg (x.created + ·) hoffset

/-- An event that does not read an entry leaves its times alone. -/
theorem lifetime_eq_of_unread (hx : (store (events.foldl step start).state).entryAt? r = some x)
    (unread : read? (events.foldl step start) e ≠ some r) :
    ∃ y, (store (step (events.foldl step start) e).state).entryAt? r = some y ∧
      y.lifetime = x.lifetime := by
  have hafter := h.contents?_step (e := e) (Store.contents?_of_entryAt? hx)
  rw [if_neg unread] at hafter
  obtain ⟨y, hy, hsame⟩ := Option.map_eq_some_iff.mp hafter
  have hlifetime := congrArg Entry.lifetime hsame
  exact ⟨y, hy, hlifetime⟩

end History

end ReadThrough
