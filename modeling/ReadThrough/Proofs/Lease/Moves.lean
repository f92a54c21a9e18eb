import ReadThrough.Lease
import ReadThrough.Proofs.Runs
import ReadThrough.Store.Entry

/-!
# How a lease changes hands

A lease is taken when it is idle, started when it is scheduled, and given back when it is either
scheduled or running. Starting it and giving it back are done under the token that has taken it,
and nothing else that is done to an entry changes its lease. So from one time that it is idle to
the next it is in one hand.
-/

namespace ReadThrough

/-- The token that it is done under. -/
def EntryEvent.token? : EntryEvent → Option Token
  | .schedule t => some t
  | .start t => some t
  | .release t => some t
  | .touch _ => none

namespace Lease

variable {l l' : Lease} {t : Token} {ev : EntryEvent}

/-- The lease after an event. One that cannot be taken or started stays as it is. -/
def perform (l : Lease) : EntryEvent → Lease
  | .schedule t => (l.schedule t).getD l
  | .start t => (l.start t).getD l
  | .release t => l.release t
  | .touch _ => l

def answer? (l : Lease) : EntryEvent → Option Bool
  | .schedule t => some (l.schedule t).isSome
  | .start t => some (l.start t).isSome
  | .release _ => none
  | .touch _ => none

/-- The only ways in which a lease ever changes. -/
inductive Moves : Lease → EntryEvent → Lease → Prop where
  | take (t : Token) : Moves .idle (.schedule t) (.scheduled t)
  | begin (t : Token) : Moves (.scheduled t) (.start t) (.running t)
  | cancel (t : Token) : Moves (.scheduled t) (.release t) .idle
  | finish (t : Token) : Moves (.running t) (.release t) .idle

theorem Moves.perform_eq (h : Moves l ev l') : l.perform ev = l' := by
  cases h <;> simp [perform, Lease.schedule, Lease.start, Lease.release]

theorem Moves.ne (h : Moves l ev l') : l' ≠ l := by
  cases h <;> simp

/-- Every event either is one of the moves or leaves the lease as it is. -/
theorem moves_or_stays (l : Lease) (ev : EntryEvent) :
    Moves l ev (l.perform ev) ∨ l.perform ev = l := by
  cases ev with
  | schedule t =>
    cases l with
    | idle => exact .inl (.take t)
    | scheduled => exact .inr rfl
    | running => exact .inr rfl
  | start t =>
    by_cases h : l = .scheduled t
    · subst h
      simp only [perform, start, if_pos, Option.getD_some]
      exact .inl (.begin t)
    · simp only [perform, start, if_neg h, Option.getD_none]
      exact .inr trivial
  | release t =>
    by_cases h : l = .scheduled t ∨ l = .running t
    · have hidle : l.perform (.release t) = .idle := if_pos h
      rw [hidle]
      rcases h with rfl | rfl
      · exact .inl (.cancel t)
      · exact .inl (.finish t)
    · exact .inr (if_neg h)
  | touch now => exact .inr rfl

theorem moves_iff : Moves l ev l' ↔ l.perform ev = l' ∧ l' ≠ l := by
  constructor
  · intro h
    exact ⟨h.perform_eq, h.ne⟩
  · rintro ⟨rfl, hne⟩
    exact (moves_or_stays l ev).resolve_right hne

theorem answer?_schedule_iff : l.answer? (.schedule t) = some true ↔ l = .idle := by
  cases l <;> simp [answer?, Lease.schedule]

theorem answer?_start_iff : l.answer? (.start t) = some true ↔ l = .scheduled t := by
  by_cases h : l = .scheduled t <;> simp [answer?, Lease.start, h]

theorem moves_of_answer (h : l.answer? ev = some true) : Moves l ev (l.perform ev) := by
  cases ev with
  | schedule t =>
    rw [answer?_schedule_iff] at h
    subst h
    exact .take t
  | start t =>
    rw [answer?_start_iff] at h
    subst h
    have hrunning : (scheduled t).perform (.start t) = .running t := (Moves.begin t).perform_eq
    rw [hrunning]
    exact .begin t
  | release => cases h
  | touch => cases h

def holder? : Lease → Option Token
  | .idle => none
  | .scheduled t => some t
  | .running t => some t

/-- A lease that is held changes under the token of its holder only. -/
theorem Moves.token_eq (h : Moves l ev l') (held : l.holder? = some t) : ev.token? = some t := by
  cases h with
  | take => cases held
  | begin => exact held
  | cancel => exact held
  | finish => exact held

theorem Moves.holder?_eq (h : Moves l ev l') (held : l.holder? = some t) (busy : l' ≠ .idle) :
    l'.holder? = some t := by
  cases h with
  | take => cases held
  | begin => exact held
  | cancel => exact absurd rfl busy
  | finish => exact absurd rfl busy

variable {events : List EntryEvent} {m n : Nat}

theorem stateAt_moves_or_stays (l : Lease) (events : List EntryEvent) (n : Nat) :
    (∃ ev, events[n]? = some ev ∧
      Moves (stateAt perform l events n) ev (stateAt perform l events (n + 1))) ∨
    stateAt perform l events (n + 1) = stateAt perform l events n := by
  cases hev : events[n]? with
  | none => exact .inr (stateAt_succ_of_none hev)
  | some ev =>
    rw [stateAt_succ hev]
    exact (moves_or_stays _ ev).imp_left fun h => ⟨ev, rfl, h⟩

theorem taken_of_busy (idle : stateAt perform l events n = .idle)
    (busy : stateAt perform l events (n + 1) ≠ .idle) :
    ∃ t, events[n]? = some (.schedule t) ∧
      (stateAt perform l events (n + 1)).holder? = some t := by
  rcases stateAt_moves_or_stays l events n with ⟨ev, hev, h⟩ | h
  · rw [idle] at h
    generalize stateAt perform l events (n + 1) = l' at h
    cases h with
    | take t => exact ⟨t, hev, rfl⟩
  · exact absurd (h.trans idle) busy

theorem kept_of_busy (held : (stateAt perform l events n).holder? = some t)
    (busy : stateAt perform l events (n + 1) ≠ .idle) :
    (stateAt perform l events (n + 1)).holder? = some t := by
  rcases stateAt_moves_or_stays l events n with ⟨ev, -, h⟩ | h
  · exact h.holder?_eq held busy
  · rw [h]
    exact held

theorem released_of_idle (held : (stateAt perform l events n).holder? = some t)
    (idle : stateAt perform l events (n + 1) = .idle) : events[n]? = some (.release t) := by
  rcases stateAt_moves_or_stays l events n with ⟨ev, hev, h⟩ | h
  · rw [idle] at h
    generalize stateAt perform l events n = l' at held h
    cases h with
    | cancel => cases held; exact hev
    | finish => cases held; exact hev
  · rw [← h, idle] at held
    cases held

/-- From idle on, as long as it is not idle again, a lease is held by whoever has taken it. -/
theorem held_since (idle : stateAt perform l events m = .idle)
    (busy : ∀ i, m < i → i ≤ n → stateAt perform l events i ≠ .idle) (lt : m < n) :
    ∃ t, events[m]? = some (.schedule t) ∧
      ∀ i, m < i → i ≤ n → (stateAt perform l events i).holder? = some t := by
  obtain ⟨t, htaken, hfirst⟩ := taken_of_busy idle (busy (m + 1) (Nat.lt_succ_self m) lt)
  refine ⟨t, htaken, fun i hi => ?_⟩
  induction hi with
  | refl => exact fun _ => hfirst
  | @step i hi ih =>
    intro hin
    exact kept_of_busy (ih (Nat.le_of_succ_le hin)) (busy (i + 1) (Nat.lt_succ_of_lt hi) hin)

/-- The event is done under `t` and makes a difference to the lease. -/
def Succeeds (t : Token) (l : Lease) (ev : EntryEvent) : Prop :=
  ev.token? = some t ∧ l.perform ev ≠ l

/-- Between two times that it is idle, a lease is taken and given back under one token, and no
other token succeeds. -/
theorem one_token (before : stateAt perform l events m = .idle)
    (busy : ∀ i, m < i → i ≤ n → stateAt perform l events i ≠ .idle)
    (after : stateAt perform l events (n + 1) = .idle) (lt : m < n) :
    ∃ t, events[m]? = some (.schedule t) ∧ events[n]? = some (.release t) ∧
      ∀ t', (∃ i, m ≤ i ∧ i ≤ n ∧ OccursAt perform l events i (Succeeds t')) ↔ t' = t := by
  obtain ⟨t, htaken, hheld⟩ := held_since before busy lt
  refine ⟨t, htaken, released_of_idle (hheld n lt (Nat.le_refl n)) after, fun t' => ⟨?_, ?_⟩⟩
  · rintro ⟨i, hmi, hin, ev, hev, htoken, hchanged⟩
    rcases Nat.lt_or_eq_of_le hmi with hlt | rfl
    · have hmoves := (moves_or_stays _ ev).resolve_right hchanged
      exact Option.some.inj (htoken.symm.trans (hmoves.token_eq (hheld i hlt hin)))
    · cases htaken.symm.trans hev
      exact (Option.some.inj htoken).symm
  · rintro rfl
    have hfirst := busy (m + 1) (Nat.lt_succ_self m) lt
    rw [stateAt_succ htaken, ← before] at hfirst
    exact ⟨m, Nat.le_refl m, Nat.le_of_lt lt, _, htaken, rfl, hfirst⟩

end Lease

end ReadThrough
