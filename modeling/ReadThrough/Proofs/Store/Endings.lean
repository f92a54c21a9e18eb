import ReadThrough.Proofs.Store.Sharing

/-!
# Every poll comes to an end

A poll goes round a loop and leaves it by an outcome. It goes back from waiting to looking up, so
that a flight which has landed and were still registered would keep it going round for ever. None
ever is, and three rounds are enough. For the same reason nobody comes to load who has asked the
source before, and the only calls that cannot be polled are those that have returned the result of a
load.
-/

namespace ReadThrough

variable {ι κ ν ε ω : Type}

/-- Whether this is the result of a load: of the call's own, or of one whose failure it shares. -/
def Outcome.isResult : Outcome ν ε ω → Bool
  | .loaded _ => true
  | .loadFailed _ _ => true
  | .sharedFailure _ _ => true
  | _ => false

namespace Store

variable [DecidableEq κ] [DecidableEq ω]

section Loop

variable (now : Instant) (waker : ω) (source : Source ν ε)

/-- Going round without a bound, the poll of a call leaves the loop in the `n`-th round, and has
come to `p` by then. -/
inductive EndsIn : Nat → Store κ ν ε ω → Call κ ε ω → Progress κ ν ε ω → Prop where
  | last {s : Store κ ν ε ω} {c : Call κ ε ω} {o : Outcome ν ε ω}
      (outcome : (s.pass c now waker source).outcome = some o) :
      EndsIn 1 s c (s.pass c now waker source)
  | next {n : Nat} {s : Store κ ν ε ω} {c : Call κ ε ω} {q : Progress κ ν ε ω}
      (outcome : (s.pass c now waker source).outcome = none)
      (rest : EndsIn n (s.pass c now waker source).store (s.pass c now waker source).call q) :
      EndsIn (n + 1) s c { q with
        woken := (s.pass c now waker source).woken ++ q.woken
        evicted := (s.pass c now waker source).evicted ++ q.evicted
        asked := (s.pass c now waker source).asked || q.asked
        ran := (s.pass c now waker source).ran || q.ran }

variable {now waker source} {s : Store κ ν ε ω} {c : Call κ ε ω} {p : Progress κ ν ε ω}

theorem endsIn_passes {n : Nat} {o : Outcome ν ε ω}
    (outcome : (s.passes n c now waker source).outcome = some o) :
    ∃ m ≤ n, EndsIn now waker source m s c (s.passes n c now waker source) := by
  induction n generalizing s c with
  | zero => cases outcome
  | succ n ih =>
    rw [passes] at outcome ⊢
    cases hpass : (s.pass c now waker source).outcome with
    | some o' =>
      exact ⟨1, Nat.le_add_left 1 n, .last hpass⟩
    | none =>
      simp only [hpass] at outcome ⊢
      obtain ⟨m, hm, hrest⟩ := ih outcome
      exact ⟨m + 1, Nat.succ_le_succ hm, .next hpass hrest⟩

/-- The loop ends in one way only. -/
theorem EndsIn.unique {m n : Nat} {q : Progress κ ν ε ω} (h : EndsIn now waker source m s c p)
    (h' : EndsIn now waker source n s c q) : m = n ∧ p = q := by
  induction h generalizing n q with
  | last outcome =>
    cases h' with
    | last => exact ⟨rfl, rfl⟩
    | next outcome' => cases outcome.symm.trans outcome'
  | next outcome _ ih =>
    cases h' with
    | last outcome' => cases outcome.symm.trans outcome'
    | next _ rest' =>
      obtain ⟨rfl, rfl⟩ := ih rest'
      exact ⟨rfl, rfl⟩

/-- Unless a flight that has landed is registered, the loop ends within three rounds. -/
theorem endsIn_poll (hs : s.AllAloft) (c : Call κ ε ω) (now : Instant) (waker : ω)
    (source : Source ν ε) :
    ∃ n ≤ 3, EndsIn now waker source n s c (s.poll c now waker source) := by
  have hpolled : Polled now waker source s c (s.poll c now waker source) := polled_poll hs c
  obtain ⟨o, ho⟩ := hpolled.outcome_ne_none
  exact endsIn_passes ho

end Loop

variable {s : Store κ ν ε ω} {now : Instant} {waker : ω} {source : Source ν ε} {c : Call κ ε ω}
  {p : Progress κ ν ε ω}

/-- Nobody comes to load who has asked the source before: the flight that was started then is still
registered. -/
theorem Orderly.outcome_ne_unarmed [DecidableEq ι] {calls : ι → Option (Call κ ε ω)} {id : ι}
    (h : s.Orderly calls) (hc : calls id = some c) (hp : Polled now waker source s c p) :
    p.outcome ≠ some .unarmed := by
  induction hp generalizing calls with
  | last pass _ =>
    cases pass with
    | unarmed _ vacant =>
      obtain ⟨f, hf, -⟩ := h.spent hc rfl
      cases vacant.symm.trans hf
    | _ => rintro ⟨⟩
  | next pass _ _ ih => exact ih (h.traffic hc pass.traffic) (Function.update_self ..)

theorem Polled.exhausted_iff (h : Polled now waker source s c p) :
    p.outcome = some .exhausted ↔ c.phase = .finished := by
  induction h with
  | last pass _ => cases pass <;> simp
  | next pass outcome _ ih =>
    rw [ih]
    cases pass with
    | join => simp
    | lead => simp
    | retry => simp
    | _ => cases outcome

theorem Polled.finished_iff (h : Polled now waker source s c p) :
    p.call.phase = .finished ↔ c.phase = .finished ∨ p.outcome.any (·.isResult) = true := by
  induction h with
  | last pass _ => cases pass <;> simp [Outcome.isResult]
  | next pass outcome _ ih =>
    rw [ih]
    cases pass with
    | join => simp
    | lead => simp
    | retry => simp
    | _ => cases outcome

end Store

namespace Session

variable [DecidableEq ι] [DecidableEq κ] [DecidableEq ω]

/-- The event polls the call `i`, which returns the result of a load. -/
def Returns (i : ι) (t : Clocked (Session ι κ ν ε ω)) (e : SessionEvent ι κ ν ε ω) : Prop :=
  ∃ o, Answers i o t e ∧ o.isResult = true

variable {t : Clocked (Session ι κ ν ε ω)} {i : ι} {c : Call κ ε ω} {e : SessionEvent ι κ ν ε ω}

theorem returns_poll_iff {waker : ω} {source : Source ν ε} {keepCrashed : Bool}
    (hc : t.state.calls.get? i = some c) : Returns i t (.poll i waker source keepCrashed) ↔
      (t.state.store.poll c t.now waker source).outcome.any (·.isResult) = true := by
  constructor
  · rintro ⟨o, ⟨present, outcome⟩, hresult⟩
    cases hc.symm.trans present
    rw [outcome, Option.any_some, hresult]
  · intro h
    cases ho : (t.state.store.poll c t.now waker source).outcome with
    | none =>
      rw [ho] at h
      cases h
    | some o =>
      rw [ho, Option.any_some] at h
      exact ⟨o, .poll hc ho, h⟩

/-- A call that is under way after an event that has not made it was under way before, and has
finished if it had before, or has returned a result in between. -/
theorem finished_perform (hs : t.state.Orderly) (notMade : ∀ k, e ≠ .start i k)
    (hc : (perform t e).state.calls.get? i = some c) :
    ∃ d, t.state.calls.get? i = some d ∧
      (c.phase = .finished ↔ d.phase = .finished ∨ Returns i t e) := by
  by_cases hcall : e.call? = some i
  · cases e with
    | start j k =>
      cases hcall
      exact absurd rfl (notMade k)
    | drop j =>
      cases hcall
      have hnone : (perform t (.drop i)).state.calls.get? i = none := by
        have hdrop : (perform t (.drop i)).state.calls.get? = _ := get?_drop t.state i
        rw [hdrop, Function.update_self]
      cases hnone.symm.trans hc
    | poll j waker source keepCrashed =>
      cases hcall
      cases hd : t.state.calls.get? i with
      | none =>
        rw [state_perform_poll_of_absent hd, hd] at hc
        cases hc
      | some d =>
        refine ⟨d, rfl, ?_⟩
        rw [state_perform_poll hd] at hc
        simp only at hc
        split at hc
        · rw [get?_drop, Function.update_self] at hc
          cases hc
        · rw [get?_pollKept, Function.update_self] at hc
          cases hc
          rw [(hs.polled_poll d t.now waker source).finished_iff, returns_poll_iff hd]
    | _ => cases hcall
  · refine ⟨c, (get?_perform_of_ne hcall).symm.trans hc, (or_iff_left ?_).symm⟩
    rintro ⟨o, answers, -⟩
    exact hcall answers.call?_eq

theorem finished_foldl (hs : t.state.Orderly) {events : List (SessionEvent ι κ ν ε ω)}
    (notMade : ∀ k, SessionEvent.start i k ∉ events)
    (hc : (events.foldl perform t).state.calls.get? i = some c) :
    ∃ d, t.state.calls.get? i = some d ∧
      (c.phase = .finished ↔ d.phase = .finished ∨ Occurs perform t events (Returns i)) := by
  induction events using List.reverseRecOn generalizing c with
  | nil => exact ⟨c, hc, (or_iff_left not_occurs_nil).symm⟩
  | append_singleton events e ih =>
    rw [List.foldl_append] at hc
    obtain ⟨b, hb, hlast⟩ := finished_perform (orderly_foldl hs events)
      (fun k he => notMade k (by simp [he])) hc
    obtain ⟨d, hd, hbefore⟩ := ih (fun k hk => notMade k (List.mem_append_left _ hk)) hb
    refine ⟨d, hd, ?_⟩
    rw [hlast, hbefore, occurs_concat_iff, or_assoc]

theorem get?_perform_start (t : Clocked (Session ι κ ν ε ω)) (i : ι) (k : κ) :
    (perform t (.start i k)).state.calls.get? i = some (.start k) := by
  have hput : (perform t (.start i k)).state.calls = (t.state.drop i).2.calls.put i (.start k) :=
    rfl
  rw [hput, Table.get?_put_self]

theorem exists_start {start : Clocked (Session ι κ ν ε ω)} (hs : start.state.Orderly)
    (hnone : start.state.calls.get? i = none) {events : List (SessionEvent ι κ ν ε ω)}
    (hc : (events.foldl perform start).state.calls.get? i = some c) :
    ∃ before k after, events = before ++ .start i k :: after ∧
      ∀ k', SessionEvent.start i k' ∉ after := by
  induction events using List.reverseRecOn generalizing c with
  | nil => cases hnone.symm.trans hc
  | append_singleton events e ih =>
    by_cases hmade : ∃ k, e = .start i k
    · obtain ⟨k, rfl⟩ := hmade
      exact ⟨events, k, [], rfl, fun _ => List.not_mem_nil⟩
    · rw [List.foldl_append] at hc
      obtain ⟨d, hd, -⟩ := finished_perform (orderly_foldl hs events) (not_exists.mp hmade) hc
      obtain ⟨before, k, after, rfl, hafter⟩ := ih hd
      refine ⟨before, k, after ++ [e], by simp, fun k' hk' => ?_⟩
      rcases List.mem_append.mp hk' with hk' | hk'
      · exact hafter k' hk'
      · exact hmade ⟨k', (List.mem_singleton.mp hk').symm⟩

/-- After this run, any call that is under way can be polled, and the poll comes to an end within
three rounds. It is never left without a way to ask the source, and refuses exactly if it has
returned the result of a load before. -/
structure PollsEnd (start : Clocked (Session ι κ ν ε ω))
    (events : List (SessionEvent ι κ ν ε ω)) : Prop where
  registered : ∀ k f, (events.foldl perform start).state.store.flight? k = some f →
    ((events.foldl perform start).state.store.flight f).landing = none
  ends : ∀ i c, (events.foldl perform start).state.calls.get? i = some c → ∀ waker source,
    let t := events.foldl perform start
    ∃ n ≤ 3, ∀ m p, Store.EndsIn t.now waker source m t.state.store c p ↔
      m = n ∧ p = t.state.store.poll c t.now waker source
  armed : ∀ i c, (events.foldl perform start).state.calls.get? i = some c → ∀ waker source,
    let t := events.foldl perform start
    (t.state.store.poll c t.now waker source).outcome ≠ some .unarmed
  made : ∀ i c, (events.foldl perform start).state.calls.get? i = some c →
    ∃ before k after, events = before ++ .start i k :: after ∧
      ∀ k', SessionEvent.start i k' ∉ after
  exhausted_iff : ∀ before i k after, events = before ++ .start i k :: after →
    (∀ k', SessionEvent.start i k' ∉ after) →
      ∀ c, (events.foldl perform start).state.calls.get? i = some c → ∀ waker source,
        let t := events.foldl perform start
        (t.state.store.poll c t.now waker source).outcome = some .exhausted ↔
          Occurs perform (perform (before.foldl perform start) (.start i k)) after (Returns i)

variable (l : Layout) (hash : κ → UInt64) (start : Instant) (events : List (SessionEvent ι κ ν ε ω))

/-- Whatever happens to a store and its callers, every poll comes to an end. -/
theorem polls_end : PollsEnd ⟨start, ofLayout l hash⟩ events := by
  have hs := orderly_run l hash start events
  constructor
  case registered => exact hs.allAloft
  case ends =>
    intro i c _ waker source
    obtain ⟨n, hn, hends⟩ := Store.endsIn_poll hs.allAloft c _ waker source
    refine ⟨n, hn, fun m p => ⟨fun h => h.unique hends, ?_⟩⟩
    rintro ⟨rfl, rfl⟩
    exact hends
  case armed =>
    intro i c hc waker source
    exact Store.Orderly.outcome_ne_unarmed hs hc (hs.polled_poll c _ waker source)
  case made =>
    intro i c hc
    exact exists_start (orderly_run l hash start []) rfl hc
  case exhausted_iff =>
    rintro before i k after rfl hafter c hc waker source t
    rw [List.foldl_append, List.foldl_cons] at hc
    obtain ⟨d, hd, hfinished⟩ := finished_foldl
      ((settles_perform _ _).orderly (orderly_run l hash start before)) hafter hc
    cases (get?_perform_start _ i k).symm.trans hd
    rw [(hs.polled_poll c _ waker source).exhausted_iff, hfinished, or_iff_right]
    rintro ⟨⟩

end Session

end ReadThrough
