import ReadThrough.Proofs.Store.Orderly
import ReadThrough.Store.Session

/-!
# Polls keep order

What holds of every pass holds of a poll, which is a chain of passes, and of the calls of a session
while they are started, polled and dropped.
-/

namespace ReadThrough

namespace Store

variable {κ ν ε ω : Type} [DecidableEq κ] [DecidableEq ω] {s : Store κ ν ε ω} {now : Instant}
  {waker : ω} {source : Source ν ε} {c : Call κ ε ω} {p : Progress κ ν ε ω}

theorem Pass.store_eq (h : Pass s now waker source c p) (outcome : p.outcome = none) :
    p.store = s ∨ s.live? c.key now = none ∧ s.flight? c.key = none := by
  cases h with
  | join => exact .inl rfl
  | retry => exact .inl rfl
  | lead missing vacant => exact .inr ⟨missing, vacant⟩
  | _ => cases outcome

theorem Pass.asked (h : Pass s now waker source c p) (asked : p.asked = true) :
    s.live? c.key now = none ∧ s.flight? c.key = none := by
  cases h with
  | lead missing vacant => exact ⟨missing, vacant⟩
  | refuse missing vacant => exact ⟨missing, vacant⟩
  | _ => cases asked

/-- The source is asked only if the store has no live entry and no flight for the key. -/
theorem Polled.asked (h : Polled now waker source s c p) (asked : p.asked = true) :
    s.live? c.key now = none ∧ s.flight? c.key = none := by
  induction h with
  | last pass _ => exact pass.asked asked
  | next pass outcome _ ih =>
    rw [Bool.or_eq_true] at asked
    rcases asked with hp | hq
    · exact pass.asked hp
    · rcases pass.store_eq outcome with hs | missing
      · rw [hs, pass.key_eq] at ih
        exact ih hq
      · exact missing

theorem Pass.ran (h : Pass s now waker source c p) (ran : p.ran = true) :
    ∃ f, c.phase.led? = some f := by
  cases h with
  | park => exact ⟨_, rfl⟩
  | land => exact ⟨_, rfl⟩
  | overflow => exact ⟨_, rfl⟩
  | fail => exact ⟨_, rfl⟩
  | crash => exact ⟨_, rfl⟩
  | _ => cases ran

/-- A load is run by a call that leads a flight already, or comes to lead one by this poll. -/
theorem Polled.ran (h : Polled now waker source s c p) (ran : p.ran = true) :
    (∃ f, c.phase.led? = some f) ∨ s.flight? c.key = none := by
  induction h with
  | last pass _ => exact .inl (pass.ran ran)
  | @next s c p q pass outcome _ ih =>
    have hquiet : p.ran = false := by
      cases pass <;> first | rfl | cases outcome
    rw [hquiet, Bool.false_or] at ran
    have hq := ih ran
    cases pass with
    | join _ registered =>
      rcases hq with ⟨f, hf⟩ | vacant
      · cases hf
      · exact .inr vacant
    | retry =>
      rcases hq with ⟨f, hf⟩ | vacant
      · cases hf
      · exact .inr vacant
    | lead _ vacant => exact .inr vacant
    | _ => cases outcome

variable {ι : Type} [DecidableEq ι] {calls : ι → Option (Call κ ε ω)} {id : ι}

/-- A poll keeps order, and strands its key if the source crashes at being asked. -/
theorem Orderly.polled (h : s.Orderly calls) (hc : calls id = some c)
    (hp : Polled now waker source s c p) :
    p.store.Orderly (Function.update calls id (some p.call)) ∧
      ∀ {k}, p.store.Stranded (Function.update calls id (some p.call)) k ↔
        s.Stranded calls k ∨ k = c.key ∧ p.asked = true ∧ source.refusal.isSome = true := by
  induction hp generalizing calls with
  | last pass _ => exact ⟨h.traffic hc pass.traffic, h.stranded_traffic_iff hc pass.traffic⟩
  | @next s c p q pass _ rest ih =>
    have hget : Function.update calls id (some p.call) id = some p.call := Function.update_self ..
    obtain ⟨hq, hstranded⟩ := ih (h.traffic hc pass.traffic) hget
    rw [Function.update_idem] at hq hstranded
    refine ⟨hq, fun {k} => ?_⟩
    rw [hstranded, h.stranded_traffic_iff hc pass.traffic, pass.key_eq]
    rw [or_assoc, ← and_or_left, ← or_and_right, Bool.or_eq_true]

theorem Orderly.abandoned (h : s.Orderly calls) (hc : calls id = some c) :
    (s.abandon c).2.Orderly (Function.update calls id none) ∧
      ∀ {k}, (s.abandon c).2.Stranded (Function.update calls id none) k ↔ s.Stranded calls k := by
  have t := traffic_abandon s c
  refine ⟨h.traffic hc t, fun {k} => ?_⟩
  rw [h.stranded_traffic_iff hc t]
  simp

end Store

end ReadThrough
