import Mathlib.Data.List.Induction
import ReadThrough.Span

/-!
# Runs

A run is a list of events, performed one after the other from some start. What is said of a run is
said of the state that it ends in and of the events that occurred in it, each in the state that it
found.
-/

namespace ReadThrough

/-- A state, and the time at which it is looked at. -/
structure Clocked (σ : Type) where
  now : Instant
  state : σ

variable {σ α : Type}

/-- Some event of the run has found a state in which `p` was true of it. -/
def Occurs (step : σ → α → σ) (start : σ) (events : List α) (p : σ → α → Prop) : Prop :=
  ∃ before e after, events = before ++ e :: after ∧ p (before.foldl step start) e

variable {step : σ → α → σ} {start : σ} {p : σ → α → Prop}

@[simp] theorem not_occurs_nil : ¬ Occurs step start [] p := by
  rintro ⟨before, e, after, h, -⟩
  cases before <;> cases h

theorem occurs_concat_iff {events : List α} {e : α} :
    Occurs step start (events ++ [e]) p ↔
      Occurs step start events p ∨ p (events.foldl step start) e := by
  constructor
  · rintro ⟨before, a, after, h, hp⟩
    rcases List.eq_nil_or_concat after with rfl | ⟨after, b, rfl⟩
    · obtain ⟨rfl, hb⟩ := List.append_inj' h rfl
      cases hb
      exact .inr hp
    · have hlast : events ++ [e] = (before ++ a :: after) ++ [b] := by simpa using h
      obtain ⟨rfl, -⟩ := List.append_inj' hlast rfl
      exact .inl ⟨before, a, after, rfl, hp⟩
  · rintro (⟨before, a, after, rfl, hp⟩ | hp)
    · exact ⟨before, a, after ++ [e], by simp, hp⟩
    · exact ⟨events, e, [], rfl, hp⟩

theorem append_cons_cases {before after before' after' : List α} {a b : α}
    (h : before ++ a :: after = before' ++ b :: after') :
    (∃ between, before = before' ++ b :: between) ∨ (before = before' ∧ a = b) ∨
      ∃ between, before' = before ++ a :: between := by
  rcases List.append_eq_append_iff.mp h with ⟨as, rfl, hrest⟩ | ⟨as, rfl, hrest⟩
  · cases as with
    | nil => exact .inr (.inl ⟨by simp, (List.cons.inj hrest).1⟩)
    | cons x xs =>
      obtain ⟨rfl, -⟩ := List.cons.inj hrest
      exact .inr (.inr ⟨xs, rfl⟩)
  · cases as with
    | nil => exact .inr (.inl ⟨by simp, (List.cons.inj hrest).1.symm⟩)
    | cons x xs =>
      obtain ⟨rfl, -⟩ := List.cons.inj hrest
      exact .inl ⟨xs, rfl⟩

section Positions

/-- The state that the event at position `n` of the run finds. -/
def stateAt (step : σ → α → σ) (start : σ) (events : List α) (n : Nat) : σ :=
  (events.take n).foldl step start

def OccursAt (step : σ → α → σ) (start : σ) (events : List α) (n : Nat) (p : σ → α → Prop) :
    Prop :=
  ∃ e, events[n]? = some e ∧ p (stateAt step start events n) e

variable {events : List α} {m n : Nat}

theorem stateAt_succ {e : α} (he : events[n]? = some e) :
    stateAt step start events (n + 1) = step (stateAt step start events n) e := by
  rw [stateAt, List.take_add_one, he, Option.toList_some, List.foldl_append]
  rfl

theorem stateAt_succ_of_none (he : events[n]? = none) :
    stateAt step start events (n + 1) = stateAt step start events n := by
  rw [stateAt, List.take_add_one, he, Option.toList_none, List.append_nil, stateAt]

theorem stateAt_of_preserved {motive : σ → Prop} (base : motive (stateAt step start events m))
    (next : ∀ n e, motive (stateAt step start events n) →
      motive (step (stateAt step start events n) e)) (le : m ≤ n) :
    motive (stateAt step start events n) := by
  induction le with
  | refl => exact base
  | @step n _ ih =>
    cases he : events[n]? with
    | none =>
      rw [stateAt_succ_of_none he]
      exact ih
    | some e =>
      rw [stateAt_succ he]
      exact next n e ih

/-- What does not hold at the start, but does later, has come about at some event. -/
theorem exists_occursAt {motive : σ → Prop} (base : ¬ motive start)
    (next : ∀ n e, motive (step (stateAt step start events n) e) →
      motive (stateAt step start events n) ∨ p (stateAt step start events n) e)
    (h : motive (stateAt step start events n)) : ∃ m < n, OccursAt step start events m p := by
  induction n with
  | zero => exact absurd h base
  | succ n ih =>
    have hearlier : motive (stateAt step start events n) →
        ∃ m < n + 1, OccursAt step start events m p := by
      intro h
      obtain ⟨m, hm, hp⟩ := ih h
      exact ⟨m, Nat.lt_succ_of_lt hm, hp⟩
    cases he : events[n]? with
    | none =>
      rw [stateAt_succ_of_none he] at h
      exact hearlier h
    | some e =>
      rw [stateAt_succ he] at h
      rcases next n e h with h | hp
      · exact hearlier h
      · exact ⟨n, Nat.lt_succ_self n, e, he, hp⟩

theorem Occurs.exists_at (h : Occurs step start (events.take n) p) :
    ∃ m < n, OccursAt step start events m p := by
  obtain ⟨before, e, after, htake, hp⟩ := h
  have hlength := congrArg List.length htake
  rw [List.length_take, List.length_append, List.length_cons] at hlength
  have hlt : before.length < n := by omega
  have hget : (events.take n)[before.length]? = some e := by rw [htake]; simp
  have hbefore : (events.take n).take before.length = before := by rw [htake]; simp
  rw [List.getElem?_take_of_lt hlt] at hget
  rw [List.take_take, Nat.min_eq_left (Nat.le_of_lt hlt)] at hbefore
  refine ⟨before.length, hlt, e, hget, ?_⟩
  rw [stateAt, hbefore]
  exact hp

/-- What establishes something for good that excludes it occurs only once. -/
theorem OccursAt.unique {motive : σ → Prop} (hm : OccursAt step start events m p)
    (hn : OccursAt step start events n p)
    (established : ∀ m e, p (stateAt step start events m) e →
      motive (step (stateAt step start events m) e))
    (lasting : ∀ n e, motive (stateAt step start events n) →
      motive (step (stateAt step start events n) e))
    (excluded : ∀ n e, p (stateAt step start events n) e → ¬ motive (stateAt step start events n)) :
    m = n := by
  have hlater : ∀ {m n : Nat}, OccursAt step start events m p → OccursAt step start events n p →
      ¬ m < n := by
    rintro m n ⟨e, he, hp⟩ ⟨e', -, hp'⟩ hlt
    have hdone : motive (stateAt step start events (m + 1)) := by
      rw [stateAt_succ he]
      exact established m e hp
    exact excluded n e' hp' (stateAt_of_preserved hdone lasting hlt)
  have hmn := hlater hm hn
  have hnm := hlater hn hm
  omega

theorem OccursAt.imp {q : σ → α → Prop} (h : OccursAt step start events n p)
    (hpq : ∀ {s e}, p s e → q s e) : OccursAt step start events n q := by
  obtain ⟨e, he, hp⟩ := h
  exact ⟨e, he, hpq hp⟩

end Positions

section Gathering

variable {β : Type} {f : σ → α → List β}

/-- What the events of a run have contributed, each in the state that it has found, in order. -/
def gathered (step : σ → α → σ) (f : σ → α → List β) : σ → List α → List β
  | _, [] => []
  | start, e :: events => f start e ++ gathered step f (step start e) events

theorem gathered_append (start : σ) (events later : List α) :
    gathered step f start (events ++ later) =
      gathered step f start events ++ gathered step f (events.foldl step start) later := by
  induction events generalizing start with
  | nil => rfl
  | cons a events ih => simp [gathered, ih]

theorem gathered_concat (start : σ) (events : List α) (e : α) :
    gathered step f start (events ++ [e]) =
      gathered step f start events ++ f (events.foldl step start) e := by
  rw [gathered_append]
  simp [gathered]

end Gathering

section Counting

open Classical in
/-- One if it holds, and zero otherwise. -/
noncomputable def indicator (p : Prop) : Nat := if p then 1 else 0

theorem indicator_of {p : Prop} (h : p) : indicator p = 1 := if_pos h

theorem indicator_of_not {p : Prop} (h : ¬ p) : indicator p = 0 := if_neg h

theorem indicator_or {p q : Prop} (h : ¬ (p ∧ q)) :
    indicator (p ∨ q) = indicator p + indicator q := by
  by_cases hp : p
  · have hq : ¬ q := fun hq => h ⟨hp, hq⟩
    rw [indicator_of (.inl hp), indicator_of hp, indicator_of_not hq]
  · rw [indicator_of_not hp, Nat.zero_add]
    exact congrArg indicator (propext (or_iff_right hp))

theorem indicator_congr {p q : Prop} (h : p ↔ q) : indicator p = indicator q := by rw [h]

theorem indicator_eq_toNat {p : Prop} {b : Bool} (h : p ↔ b = true) : indicator p = b.toNat := by
  rw [indicator_congr h]
  cases b with
  | false => exact indicator_of_not Bool.false_ne_true
  | true => exact indicator_of rfl

/-- How many events of a run have found a state in which `p` was true of them. -/
noncomputable def occurrences (step : σ → α → σ) (p : σ → α → Prop) : σ → List α → Nat
  | _, [] => 0
  | start, e :: events => indicator (p start e) + occurrences step p (step start e) events

theorem occurrences_concat (start : σ) (events : List α) (e : α) :
    occurrences step p start (events ++ [e]) =
      occurrences step p start events + indicator (p (events.foldl step start) e) := by
  induction events generalizing start with
  | nil => simp [occurrences]
  | cons a events ih => simp [occurrences, ih, Nat.add_assoc]

/-- Whatever is one of two things that exclude each other has occurred as often as these
together. -/
theorem occurrences_add {q r : σ → α → Prop}
    (split : ∀ s e, indicator (p s e) = indicator (q s e) + indicator (r s e)) (start : σ)
    (events : List α) :
    occurrences step p start events = occurrences step q start events +
      occurrences step r start events := by
  induction events generalizing start with
  | nil => rfl
  | cons e events ih =>
    simp only [occurrences, ih, split]
    omega

/-- What grows by one where `p` is true of an event, and by nothing elsewhere, counts those
events. -/
theorem eq_occurrences {measure : σ → Nat} (base : measure start = 0)
    (next : ∀ (events : List α) (e : α), measure (step (events.foldl step start) e) =
      measure (events.foldl step start) + indicator (p (events.foldl step start) e))
    (events : List α) : measure (events.foldl step start) = occurrences step p start events := by
  induction events using List.reverseRecOn with
  | nil => exact base
  | append_singleton events e ih =>
    rw [occurrences_concat, ← ih, List.foldl_append]
    exact next events e

end Counting

end ReadThrough
