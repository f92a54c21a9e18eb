import ReadThrough.Proofs.Store.Landings

/-!
# Calls between their polls

A call stays as it is until it is polled, dropped or replaced, whatever else is done in its session.
A landing is final there too. So a call that waits for a flight that has landed has been waiting
for it since before the landing. A key without a flight stays so until a call for it finds no live
entry.
-/

namespace ReadThrough

variable {ι κ ν ε ω : Type}

def SessionEvent.call? : SessionEvent ι κ ν ε ω → Option ι
  | .start id _ => some id
  | .poll id _ _ _ => some id
  | .drop id => some id
  | _ => none

namespace Session

variable [DecidableEq ι] [DecidableEq κ] [DecidableEq ω]

theorem Orderly.polled_poll {s : Session ι κ ν ε ω} (hs : s.Orderly) (c : Call κ ε ω)
    (now : Instant) (waker : ω) (source : Source ν ε) :
    Store.Polled now waker source s.store c (s.store.poll c now waker source) :=
  Store.polled_poll hs.allAloft c

section Events

variable {t : Clocked (Session ι κ ν ε ω)} {i j : ι} {k : κ} {f : Ref (Flight ε ω)}
  {c : Call κ ε ω} {e : SessionEvent ι κ ν ε ω}

theorem state_perform_poll {waker : ω} {source : Source ν ε} {keepCrashed : Bool}
    (hc : t.state.calls.get? i = some c) :
    (perform t (.poll i waker source keepCrashed)).state =
      let s := (t.state.pollKept i c t.now waker source).2
      if keepCrashed = false ∧
          (t.state.store.poll c t.now waker source).outcome.any (·.isCrash) = true then
        (s.drop i).2
      else s := by
  have hreport : (t.state.pollKept i c t.now waker source).1.outcome =
      (t.state.store.poll c t.now waker source).outcome := rfl
  simp only [perform, hc, pollCall, hreport]
  cases keepCrashed with
  | true => simp
  | false =>
    cases (t.state.store.poll c t.now waker source).outcome.any (·.isCrash) <;> simp

theorem state_perform_poll_of_absent {waker : ω} {source : Source ν ε} {keepCrashed : Bool}
    (hc : t.state.calls.get? i = none) :
    (perform t (.poll i waker source keepCrashed)).state = t.state := by
  simp only [perform, hc]

theorem store_perform_poll {waker : ω} {source : Source ν ε} {keepCrashed : Bool}
    {o : Outcome ν ε ω} (hc : t.state.calls.get? i = some c)
    (outcome : (t.state.store.poll c t.now waker source).outcome = some o)
    (noCrash : o.isCrash = false) :
    (perform t (.poll i waker source keepCrashed)).state.store =
      (t.state.store.poll c t.now waker source).store := by
  rw [state_perform_poll hc, outcome, Option.any_some, noCrash]
  simp only [Bool.false_eq_true, and_false, if_false]
  rfl

theorem get?_perform_of_ne (h : e.call? ≠ some j) :
    (perform t e).state.calls.get? j = t.state.calls.get? j := by
  have hdrop : ∀ {i : ι} {s : Session ι κ ν ε ω}, j ≠ i →
      (s.drop i).2.calls.get? j = s.calls.get? j := by
    intro i s hji
    rw [get?_drop, Function.update_of_ne hji]
  have hne : ∀ {i : ι}, e.call? = some i → j ≠ i := by
    rintro i he rfl
    exact h he
  cases e with
  | start i key =>
    have hji : j ≠ i := hne rfl
    have hput : (perform t (.start i key)).state.calls.get? j =
        ((t.state.drop i).2.calls.put i (.start key)).get? j := rfl
    rw [hput, Table.get?_put, if_neg hji, hdrop hji]
  | drop i => exact hdrop (hne rfl)
  | poll i waker source keepCrashed =>
    have hji : j ≠ i := hne rfl
    cases hc : t.state.calls.get? i with
    | none => rw [state_perform_poll_of_absent hc]
    | some c =>
      have hkept : (t.state.pollKept i c t.now waker source).2.calls.get? j =
          t.state.calls.get? j := by
        rw [get?_pollKept, Function.update_of_ne hji]
      rw [state_perform_poll hc]
      simp only
      split
      · rw [hdrop hji, hkept]
      · exact hkept
  | _ => rfl

theorem keepsLandings_drop {s : Session ι κ ν ε ω} (hs : s.Orderly) (i : ι) :
    s.store.KeepsLandings (s.drop i).2.store := by
  cases hc : s.calls.get? i with
  | none =>
    rw [drop_of_absent hc]
    exact .refl s.store
  | some c =>
    rw [drop_of_present hc]
    exact Store.Orderly.keepsLandings_traffic hs hc (Store.traffic_abandon s.store c)

theorem keepsLandings_perform (hs : t.state.Orderly) (e : SessionEvent ι κ ν ε ω) :
    t.state.store.KeepsLandings (perform t e).state.store := by
  cases e with
  | start i key => exact keepsLandings_drop hs i
  | drop i => exact keepsLandings_drop hs i
  | peek key => exact .refl _
  | advance elapsed => exact .refl _
  | remove key => exact (Store.sameCells_remove _ key).sameStanding.keepsLandings
  | removeIfSame key current =>
    exact (Store.sameCells_removeIfSame _ key current).sameStanding.keepsLandings
  | clear => exact (Store.sameCells_clear _).sameStanding.keepsLandings
  | swapIfSame key current value =>
    exact (Store.sameFlights_swapped _ key current value t.now).sameStanding.keepsLandings
  | poll i waker source keepCrashed =>
    cases hc : t.state.calls.get? i with
    | none =>
      rw [state_perform_poll_of_absent hc]
      exact .refl _
    | some c =>
      have hkept : t.state.store.KeepsLandings (t.state.pollKept i c t.now waker source).2.store :=
        Store.Orderly.keepsLandings_polled hs hc (hs.polled_poll c t.now waker source)
      rw [state_perform_poll hc]
      simp only
      split
      · exact hkept.trans
          (keepsLandings_drop ((settles_pollKept (.present hc)).orderly hs) i)
      · exact hkept

/-- Who waits for a flight after an event has waited for it before, or has just been polled, and
then the flight has not landed. -/
theorem awaited_before (hs : t.state.Orderly)
    (hc : (perform t e).state.calls.get? j = some c) (awaited : c.phase.awaited? = some f)
    (down : (perform t e).state.store.IsDown f) :
    e.call? ≠ some j ∧ t.state.calls.get? j = some c := by
  suffices hne : e.call? ≠ some j from ⟨hne, by rw [← get?_perform_of_ne hne, hc]⟩
  intro he
  cases e with
  | start i key =>
    cases he
    have hput : (perform t (.start j key)).state.calls.get? j =
        ((t.state.drop j).2.calls.put j (.start key)).get? j := rfl
    rw [hput, Table.get?_put_self] at hc
    cases hc
    cases awaited
  | drop i =>
    cases he
    have hdrop : (perform t (.drop j)).state.calls.get? j = none := by
      rw [perform, get?_drop, Function.update_self]
    cases hc.symm.trans hdrop
  | poll i waker source keepCrashed =>
    cases he
    cases hd : t.state.calls.get? j with
    | none =>
      rw [state_perform_poll_of_absent hd, hd] at hc
      cases hc
    | some d =>
      have hpolled := hs.polled_poll d t.now waker source
      rw [state_perform_poll hd] at hc down
      simp only at hc down
      split at hc
      · rw [get?_drop, Function.update_self] at hc
        cases hc
      · rename_i hcrash
        rw [if_neg hcrash] at down
        rw [get?_pollKept, Function.update_self] at hc
        cases hc
        have pending := hpolled.pending_of_awaited awaited
        rcases Store.Orderly.pending_polled hs hd hpolled pending with
          ⟨g, hload⟩ | ⟨armed, g, hwait, haloft, -⟩
        · rw [hload] at awaited
          cases awaited
        · rw [hwait] at awaited
          cases awaited
          exact haloft.not_isDown down
  | _ => cases he

/-- The event polls a call for `k` that looks the key up and finds no live entry. -/
inductive FindsNothing (k : κ) (t : Clocked (Session ι κ ν ε ω)) :
    SessionEvent ι κ ν ε ω → Prop where
  | poll {i : ι} {c : Call κ ε ω} {waker : ω} {source : Source ν ε} {keepCrashed : Bool}
      (present : t.state.calls.get? i = some c) (key : c.key = k)
      (looksUp : t.state.store.LooksUp c) (missing : t.state.store.live? k t.now = none) :
      FindsNothing k t (.poll i waker source keepCrashed)

omit [DecidableEq ω] in
theorem flight?_drop_eq_none {s : Session ι κ ν ε ω} (vacant : s.store.flight? k = none) (i : ι) :
    (s.drop i).2.store.flight? k = none := by
  unfold drop
  split
  · exact Store.flight?_abandon_eq_none vacant _
  · exact vacant

theorem flight?_perform_eq_none (hs : t.state.Orderly) (vacant : t.state.store.flight? k = none)
    (found : ¬ FindsNothing k t e) : (perform t e).state.store.flight? k = none := by
  have hsame : ∀ {s : Store κ ν ε ω}, t.state.store.SameFlights s → s.flight? k = none :=
    fun same => by rw [same.flight?_eq, vacant]
  cases e with
  | start i key => exact flight?_drop_eq_none vacant i
  | drop i => exact flight?_drop_eq_none vacant i
  | peek key => exact vacant
  | advance elapsed => exact vacant
  | remove key => exact hsame (Store.sameCells_remove _ key).toSameFlights
  | removeIfSame key current =>
    exact hsame (Store.sameCells_removeIfSame _ key current).toSameFlights
  | clear => exact hsame (Store.sameCells_clear _).toSameFlights
  | swapIfSame key current value =>
    exact hsame (Store.sameFlights_swapped _ key current value t.now)
  | poll i waker source keepCrashed =>
    cases hc : t.state.calls.get? i with
    | none => rw [state_perform_poll_of_absent hc, vacant]
    | some c =>
      have hpolled := hs.polled_poll c t.now waker source
      have hkept : (t.state.pollKept i c t.now waker source).2.store.flight? k = none := by
        rcases hpolled.flight?_eq_none vacant with hkept | ⟨key, looksUp, missing⟩
        · exact hkept
        · exact absurd (.poll hc key looksUp missing) found
      rw [state_perform_poll hc]
      simp only
      split
      · exact flight?_drop_eq_none hkept i
      · exact hkept

end Events

section Runs

variable {t : Clocked (Session ι κ ν ε ω)} {j : ι} {k : κ} {f : Ref (Flight ε ω)}
  {c : Call κ ε ω} {e : SessionEvent ι κ ν ε ω}

theorem orderly_foldl (hs : t.state.Orderly) (events : List (SessionEvent ι κ ν ε ω)) :
    (events.foldl perform t).state.Orderly := by
  induction events generalizing t with
  | nil => exact hs
  | cons e events ih => exact ih ((settles_perform t e).orderly hs)

theorem keepsLandings_foldl (hs : t.state.Orderly) (events : List (SessionEvent ι κ ν ε ω)) :
    t.state.store.KeepsLandings (events.foldl perform t).state.store := by
  induction events generalizing t with
  | nil => exact .refl _
  | cons e events ih =>
    exact (keepsLandings_perform hs e).trans (ih ((settles_perform t e).orderly hs))

theorem get?_foldl_of_untouched {events : List (SessionEvent ι κ ν ε ω)}
    (untouched : ∀ e ∈ events, e.call? ≠ some j) :
    (events.foldl perform t).state.calls.get? j = t.state.calls.get? j := by
  induction events generalizing t with
  | nil => rfl
  | cons e events ih =>
    obtain ⟨he, hrest⟩ := List.forall_mem_cons.mp untouched
    rw [List.foldl_cons, ih hrest, get?_perform_of_ne he]

theorem flight?_foldl_eq_none (hs : t.state.Orderly) (vacant : t.state.store.flight? k = none)
    {events : List (SessionEvent ι κ ν ε ω)}
    (found : ¬ Occurs perform t events (FindsNothing k)) :
    (events.foldl perform t).state.store.flight? k = none := by
  induction events using List.reverseRecOn with
  | nil => exact vacant
  | append_singleton events e ih =>
    rw [occurs_concat_iff, not_or] at found
    rw [List.foldl_append]
    exact flight?_perform_eq_none (orderly_foldl hs events) (ih found.1) found.2

/-- Who waits for a flight that has landed has waited for it since before the landing. -/
theorem awaited_since (hs : t.state.Orderly) (down : t.state.store.IsDown f)
    {events : List (SessionEvent ι κ ν ε ω)}
    (hc : (events.foldl perform t).state.calls.get? j = some c)
    (awaited : c.phase.awaited? = some f) :
    t.state.calls.get? j = some c ∧ ∀ e ∈ events, e.call? ≠ some j := by
  induction events using List.reverseRecOn with
  | nil => exact ⟨hc, fun e he => nomatch he⟩
  | append_singleton events e ih =>
    have hdown := (keepsLandings_foldl hs (events ++ [e])).isDown down
    rw [List.foldl_append] at hc hdown
    obtain ⟨hne, hc⟩ := awaited_before (orderly_foldl hs events) hc awaited hdown
    obtain ⟨hbefore, huntouched⟩ := ih hc
    refine ⟨hbefore, fun a ha => ?_⟩
    rcases List.mem_append.mp ha with ha | ha
    · exact huntouched a ha
    · rw [List.mem_singleton.mp ha]
      exact hne

theorem standing?_foldl (hs : t.state.Orderly) {l : Landing ε}
    (landed : (perform t e).state.store.standing? f = some (some l))
    (after : List (SessionEvent ι κ ν ε ω)) :
    ((e :: after).foldl perform t).state.store.standing? f = some (some l) :=
  keepsLandings_foldl ((settles_perform t e).orderly hs) after f l landed

end Runs

end Session

end ReadThrough
