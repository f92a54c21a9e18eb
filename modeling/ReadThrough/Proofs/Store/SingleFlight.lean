import ReadThrough.Proofs.Store.SessionRuns

/-!
# Single flight

The loads that two callers run for one key are never in progress together. A flight is registered
for as long as its load is in progress and no longer, with one exception: a source that crashes at
being asked leaves a flight behind that nobody leads, and no load of that key is asked for again.
-/

namespace ReadThrough

namespace Store

variable {κ ν ε ω : Type} [DecidableEq κ] [DecidableEq ω] {s : Store κ ν ε ω} {now : Instant}
  {waker : ω} {source : Source ν ε}

theorem Polled.asked_start_iff {k : κ} {p : Progress κ ν ε ω}
    (h : Polled now waker source s (.start k) p) :
    p.asked = true ↔ s.live? k now = none ∧ s.flight? k = none := by
  refine ⟨h.asked, ?_⟩
  rintro ⟨missing, vacant⟩
  cases h with
  | last pass outcome =>
    cases pass with
    | hit live =>
      rw [missing] at live
      cases live
    | refuse => rfl
    | join | lead => cases outcome
  | next pass outcome rest =>
    cases pass with
    | hit live =>
      rw [missing] at live
      cases live
    | join _ registered =>
      rw [vacant] at registered
      cases registered
    | lead => rfl
    | refuse => rfl

end Store

namespace Session

variable {ι κ ν ε ω : Type} [DecidableEq ι] [DecidableEq κ] [DecidableEq ω]

/-- The loads that two calls run for one key are never in progress together. A key has one leader at
most, whose flight is registered and has not landed, and the source is asked only for a key with
neither a live entry nor a flight. -/
structure SingleFlight (t : Clocked (Session ι κ ν ε ω)) : Prop where
  one_leader : ∀ i j k f g, t.state.Leads i k f → t.state.Leads j k g → i = j
  registered : ∀ i k f, t.state.Leads i k f →
    t.state.store.flight? k = some f ∧ t.state.store.IsAloft f
  not_down : ∀ k f, t.state.store.flight? k = some f → ¬ t.state.store.IsDown f
  asked : ∀ i c waker source, t.state.calls.get? i = some c →
    (t.state.store.poll c t.now waker source).asked = true →
      t.state.store.live? c.key t.now = none ∧ t.state.store.flight? c.key = none
  ran : ∀ i c waker source, t.state.calls.get? i = some c →
    (t.state.store.poll c t.now waker source).ran = true → ∀ j f, t.state.Leads j c.key f → j = i

/-- A flight is registered for `k` that no call leads, and no call will ask for another load. -/
structure Orphaned (t : Clocked (Session ι κ ν ε ω)) (k : κ) : Prop where
  unled : ∃ f, t.state.store.flight? k = some f ∧ ∀ i, ¬ t.state.Leads i k f
  not_asked : ∀ c waker source, c.key = k →
    (t.state.store.poll c t.now waker source).asked = false

/-- The flight registered for `k` is led by a call. Once no call leads one there is none, and the
next call asks its source unless it finds a live entry. -/
structure Attended (t : Clocked (Session ι κ ν ε ω)) (k : κ) : Prop where
  led : ∀ f, t.state.store.flight? k = some f → ∃ i, t.state.Leads i k f
  vacant : t.state.IsIdle k → t.state.store.flight? k = none
  asked : t.state.IsIdle k → ∀ waker source,
    (t.state.store.poll (.start k) t.now waker source).asked = true ↔
      t.state.store.live? k t.now = none

theorem Orphaned.not_attended {t : Clocked (Session ι κ ν ε ω)} {k : κ} (h : Orphaned t k) :
    ¬ Attended t k := by
  intro hk
  obtain ⟨f, hf, hnone⟩ := h.unled
  obtain ⟨i, hi⟩ := hk.led f hf
  exact hnone i hi

theorem Orderly.orphaned {t : Clocked (Session ι κ ν ε ω)} (hs : t.state.Orderly) {k : κ}
    (hk : t.state.Stranded k) : Orphaned t k := by
  obtain ⟨f, hf, hnone⟩ := hs.stranded_iff.mp hk
  refine ⟨⟨f, hf, hnone⟩, fun c waker source hkey => ?_⟩
  have hp : Store.Polled t.now waker source t.state.store c _ := Store.polled_poll hs.allAloft c
  rw [Bool.eq_false_iff]
  intro hasked
  have hvacant := (hp.asked hasked).2
  rw [hkey, hf] at hvacant
  cases hvacant

theorem Orderly.attended {t : Clocked (Session ι κ ν ε ω)} (hs : t.state.Orderly) {k : κ}
    (hk : ¬ t.state.Stranded k) : Attended t k where
  led f := hs.exists_leads hk
  vacant := hs.flight?_eq_none hk
  asked idle waker source := by
    have hvacant := hs.flight?_eq_none hk idle
    rw [(Store.polled_poll hs.allAloft (.start k)).asked_start_iff, and_iff_left hvacant]

variable (l : Layout) (hash : κ → UInt64) (start : Instant)
  (events : List (SessionEvent ι κ ν ε ω))

/-- Whatever happens to a store and its callers, the loads of one key follow one another. -/
theorem single_flight : SingleFlight (events.foldl perform ⟨start, ofLayout l hash⟩) := by
  have hs := orderly_run l hash start events
  constructor
  case one_leader =>
    intro i j k f g hi hj
    exact hs.leads_unique hi hj
  case registered =>
    intro i k f hi
    exact ⟨hs.registered hi, Store.Orderly.aloft hs (hs.registered hi)⟩
  case not_down =>
    intro k f hf
    exact (Store.Orderly.aloft hs hf).not_isDown
  case asked =>
    intro i c waker source _ hasked
    exact (Store.polled_poll hs.allAloft c).asked hasked
  case ran =>
    intro i c waker source hc hran j g hj
    rcases (Store.polled_poll hs.allAloft c).ran hran with ⟨f, hf⟩ | hvacant
    · have hreg := Store.Orderly.registered hs hc hf
      have hi := hs.leads_of_ledBy hreg ((Store.ledBy_of_eq_some hc).trans hf)
      exact hs.leads_unique hj hi
    · rw [hs.registered hj] at hvacant
      cases hvacant

/-- After any run, a key is orphaned exactly if a source has crashed at being asked to load it, and
attended exactly if none has. -/
theorem orphaned_iff_refused (k : κ) :
    (Orphaned (events.foldl perform ⟨start, ofLayout l hash⟩) k ↔
      Occurs perform ⟨start, ofLayout l hash⟩ events (Refused k)) ∧
    (Attended (events.foldl perform ⟨start, ofLayout l hash⟩) k ↔
      ¬ Occurs perform ⟨start, ofLayout l hash⟩ events (Refused k)) := by
  have hs := orderly_run l hash start events
  rw [← stranded_run_iff l hash start events k]
  constructor
  · constructor
    · intro horphaned
      by_contra hk
      exact horphaned.not_attended (hs.attended hk)
    · exact hs.orphaned
  · constructor
    · intro hattended hk
      exact (hs.orphaned hk).not_attended hattended
    · exact hs.attended

/-- The source crashes at being asked for a load, and the call that has asked is dropped. -/
def refusedRun : Clocked (Session Nat Int Int Nat Nat) :=
  [SessionEvent.start 0 7, .poll 0 0 ⟨some "init", .pending⟩ false].foldl perform
    ⟨0, ofLayout ⟨.ofSeconds 10, 4, 0, none⟩ fun _ => 0⟩

/-- No call is left, but the flight is still registered, and the next call waits for it and does
not ask its own source. -/
theorem orphan_of_refusedRun :
    refusedRun.state.calls.toList = [] ∧
      (refusedRun.state.store.flight? 7).isSome = true ∧
      refusedRun.state.store.live? 7 refusedRun.now = none ∧
      (refusedRun.state.store.poll (.start 7) refusedRun.now 1 ⟨none, .answered 0 none⟩).asked =
        false ∧
      (refusedRun.state.store.poll (.start 7) refusedRun.now 1 ⟨none, .answered 0 none⟩).outcome =
        some .pending := by
  decide

end Session

end ReadThrough
