import ReadThrough.Proofs.Store.SessionRuns
import ReadThrough.Proofs.Store.Wakers

/-!
# What a landing leaves behind

A flight lands once, and how it has landed never changes after that. So a call that has waited for
it finds the same landing however late it is polled again. It shares a failure, and after any other
landing its poll is that of a new call, which answers with a live entry, joins the flight that is
registered, or leads one of its own.
-/

namespace ReadThrough

namespace Store

variable {κ ν ε ω : Type} {s s' s'' : Store κ ν ε ω} {f : Ref (Flight ε ω)} {l : Landing ε}

section Standing

/-- Whatever has landed in `s` has landed in the same way in `s'`. -/
def KeepsLandings (s s' : Store κ ν ε ω) : Prop :=
  ∀ f l, s.standing? f = some (some l) → s'.standing? f = some (some l)

theorem KeepsLandings.refl (s : Store κ ν ε ω) : s.KeepsLandings s := fun _ _ h => h

theorem KeepsLandings.trans (h : s.KeepsLandings s') (h' : s'.KeepsLandings s'') :
    s.KeepsLandings s'' := fun f l hf => h' f l (h f l hf)

theorem KeepsLandings.isDown (h : s.KeepsLandings s') (hf : s.IsDown f) : s'.IsDown f := by
  obtain ⟨l, hl⟩ := hf
  exact ⟨l, h f l hl⟩

theorem standing?_eq_landed_iff :
    s.standing? f = some (some l) ↔ (s.flight f).landing = some l := by
  rw [standing?, flight]
  cases s.flights.get? f with
  | none => simp [Flight.started]
  | some fl => simp

variable [DecidableEq κ]

theorem SameStanding.keepsLandings (h : s.SameStanding s') : s.KeepsLandings s' := fun f l hf => by
  rw [h.standing?_eq, hf]

theorem keepsLandings_register (s : Store κ ν ε ω) (k : κ) :
    s.KeepsLandings (s.register k).2 := fun f l hf => by
  have hdown : s.IsDown f := ⟨l, hf⟩
  rw [standing?_register, if_neg hdown.ne_next, hf]

theorem IsAloft.keepsLandings_concludeFlight (h : s.IsAloft f) (k : κ) (l : Landing ε) :
    s.KeepsLandings (s.concludeFlight k f l).2 := fun g l' hg => by
  have hne : g ≠ f := by
    rintro rfl
    exact h.not_isDown ⟨l', hg⟩
  rw [h.standing?_concludeFlight, if_neg hne, hg]

theorem flight?_concludeFlight_eq_none {k : κ} (vacant : s.flight? k = none) (j : κ)
    (f : Ref (Flight ε ω)) (l : Landing ε) : (s.concludeFlight j f l).2.flight? k = none := by
  rw [flight?_concludeFlight]
  split
  · rename_i hk
    rw [← hk, vacant]
    rfl
  · exact vacant

theorem flight?_abandon_eq_none {k : κ} (vacant : s.flight? k = none) (c : Call κ ε ω) :
    (s.abandon c).2.flight? k = none := by
  unfold abandon
  split
  · exact flight?_concludeFlight_eq_none vacant _ _ _
  · exact vacant

theorem flight?_register_eq_none {j k : κ} (vacant : s.flight? k = none) (hk : j ≠ k) :
    (s.register j).2.flight? k = none := by
  rw [flight?_register, if_neg (Ne.symm hk), vacant]

end Standing

variable [DecidableEq κ] [DecidableEq ω] {now : Instant} {waker : ω} {source : Source ν ε}
  {c : Call κ ε ω} {p : Progress κ ν ε ω} {k : κ}

section Polls

variable {ι : Type} {calls : ι → Option (Call κ ε ω)} {id : ι}

/-- Whatever a pass does to the flights, landings are final. -/
theorem Orderly.keepsLandings_traffic (h : s.Orderly calls) (hc : calls id = some c)
    {w : Option ω} {refusal : Option String} {o : Option (Call κ ε ω)} {woken : List ω}
    {asked : Bool} (t : Traffic s c w refusal s' o woken asked) : s.KeepsLandings s' := by
  cases t with
  | stays same => exact same.sameStanding.keepsLandings
  | leaves => exact .refl s
  | joins => exact (sameStanding_joinFlight s _ _).keepsLandings
  | leads => exact keepsLandings_register s c.key
  | strands => exact keepsLandings_register s c.key
  | concludes led same =>
    have haloft := h.aloft (h.registered hc led)
    exact (haloft.keepsLandings_concludeFlight c.key _).trans same.sameStanding.keepsLandings

theorem Orderly.keepsLandings_polled [DecidableEq ι] (h : s.Orderly calls)
    (hc : calls id = some c) (hp : Polled now waker source s c p) : s.KeepsLandings p.store := by
  induction hp generalizing calls with
  | last pass _ => exact h.keepsLandings_traffic hc pass.traffic
  | next pass _ _ ih =>
    have hrest := ih (h.traffic hc pass.traffic) (Function.update_self ..)
    exact (h.keepsLandings_traffic hc pass.traffic).trans hrest

theorem Orderly.loadFailed_polled [DecidableEq ι] (h : s.Orderly calls) (hc : calls id = some c)
    (hp : Polled now waker source s c p) {e : ε} (failed : p.outcome = some (.loadFailed f e)) :
    ¬ s.IsDown f ∧ p.store.standing? f = some (some (.failed e)) := by
  induction hp generalizing calls with
  | last pass _ =>
    cases pass with
    | fail reply =>
      cases failed
      have haloft := h.aloft (h.registered hc rfl)
      exact ⟨haloft.not_isDown, by rw [haloft.standing?_concludeFlight, if_pos rfl]⟩
    | _ => cases failed
  | next pass _ _ ih =>
    obtain ⟨hup, hdown⟩ := ih (h.traffic hc pass.traffic) (Function.update_self ..) failed
    exact ⟨fun hf => hup ((h.keepsLandings_traffic hc pass.traffic).isDown hf), hdown⟩

theorem Polled.sharedFailure (hs : s.AllAloft) (h : Polled now waker source s c p) {e : ε}
    (shared : p.outcome = some (.sharedFailure f e)) :
    c.phase.awaited? = some f ∧ s.standing? f = some (some (.failed e)) := by
  induction h with
  | last pass _ =>
    cases pass with
    | share landing =>
      cases shared
      exact ⟨rfl, standing?_eq_landed_iff.mpr landing⟩
    | _ => cases shared
  | next pass outcome _ ih =>
    cases pass with
    | join _ registered =>
      obtain ⟨hawaited, hstanding⟩ := ih hs shared
      cases hawaited
      rw [standing?_eq_landed_iff, hs _ _ registered] at hstanding
      cases hstanding
    | retry => cases (ih hs shared).1
    | lead => cases (ih (hs.register _) shared).1
    | _ => cases outcome

theorem Polled.pending_of_awaited (h : Polled now waker source s c p)
    (awaited : p.call.phase.awaited? = some f) : p.outcome = some .pending := by
  induction h with
  | last pass outcome =>
    cases pass with
    | wait => rfl
    | join => cases outcome
    | _ => cases awaited
  | next _ _ _ ih => exact ih awaited

/-- The poll of a call that leads a flight runs its load, and comes to an outcome at once. -/
theorem Polled.of_loading (h : Polled now waker source s ⟨k, .loading f⟩ p) :
    Pass s now waker source ⟨k, .loading f⟩ p := by
  cases h with
  | last pass _ => exact pass
  | next pass outcome _ => cases pass <;> cases outcome

theorem IsAloft.loaded_polled (h : s.IsAloft f)
    (hp : Polled now waker source s ⟨k, .loading f⟩ p) {r : Ref (Entry ν)}
    (loaded : p.outcome = some (.loaded r)) : p.store.standing? f = some (some .loaded) := by
  cases hp.of_loading with
  | land =>
    rw [(sameFlights_landed s k f _ _).sameStanding.standing?_eq, h.standing?_concludeFlight,
      if_pos rfl]
  | _ => cases loaded

theorem Polled.crashed_loading (hp : Polled now waker source s ⟨k, .loading f⟩ p)
    (crashed : p.outcome.any (·.isCrash) = true) : p.store = s ∧ p.call = ⟨k, .loading f⟩ := by
  cases hp.of_loading with
  | overflow => exact ⟨rfl, rfl⟩
  | crash => exact ⟨rfl, rfl⟩
  | _ => cases crashed

end Polls

section Retrying

/-- A poll of this call looks its key up: the call has not waited yet, or it has waited for a flight
that has not failed. -/
inductive LooksUp (s : Store κ ν ε ω) : Call κ ε ω → Prop where
  | lookup {k : κ} {armed : Bool} : LooksUp s ⟨k, .lookup armed⟩
  | retry {k : κ} {armed : Bool} {f : Ref (Flight ε ω)} {l : Landing ε}
      (landing : (s.flight f).landing = some l) (notFailed : ∀ e, l ≠ .failed e) :
      LooksUp s ⟨k, .waiting armed f⟩

/-- A flight comes onto the register only if a call for its key looks it up and finds nothing. -/
theorem Polled.flight?_eq_none (h : Polled now waker source s c p) (vacant : s.flight? k = none) :
    p.store.flight? k = none ∨ c.key = k ∧ s.LooksUp c ∧ s.live? k now = none := by
  induction h with
  | @last s c p o pass outcome =>
    cases pass with
    | @refuse j _ missing =>
      by_cases hk : j = k
      · exact .inr ⟨hk, .lookup, hk ▸ missing⟩
      · exact .inl (flight?_register_eq_none vacant hk)
    | @unarmed j missing =>
      by_cases hk : j = k
      · exact .inr ⟨hk, .lookup, hk ▸ missing⟩
      · exact .inl (flight?_register_eq_none vacant hk)
    | @land j f d v e =>
      left
      rw [(sameFlights_landed s j f e _).flight?_eq]
      exact flight?_concludeFlight_eq_none vacant j f .loaded
    | @fail j f d e => exact .inl (flight?_concludeFlight_eq_none vacant j f (.failed e))
    | join => cases outcome
    | lead => cases outcome
    | retry => cases outcome
    | _ => exact .inl vacant
  | next pass outcome _ ih =>
    cases pass with
    | join _ registered =>
      rcases ih vacant with hq | ⟨rfl, -, -⟩
      · exact .inl hq
      · cases vacant.symm.trans registered
    | retry landing notFailed =>
      rcases ih vacant with hq | ⟨hk, -, missing⟩
      · exact .inl hq
      · exact .inr ⟨hk, .retry landing notFailed, missing⟩
    | @lead j missing =>
      by_cases hk : j = k
      · exact .inr ⟨hk, .lookup, hk ▸ missing⟩
      · rcases ih (flight?_register_eq_none vacant hk) with hq | ⟨hk', -, -⟩
        · exact .inl hq
        · exact absurd hk' hk
    | _ => cases outcome

variable (s) (waker) (source)

theorem passes_succ (n : Nat) (c : Call κ ε ω) {o : Outcome ν ε ω}
    (outcome : (s.pass c now waker source).outcome = some o) :
    s.passes (n + 1) c now waker source = s.pass c now waker source := by
  unfold passes
  simp only [outcome]

theorem passes_succ_of_silent (n : Nat) {c d : Call κ ε ω}
    (silent : s.pass c now waker source = { store := s', call := d }) :
    s.passes (n + 1) c now waker source = s'.passes n d now waker source := by
  rw [passes, silent]
  simp only [List.nil_append, Bool.false_or]

theorem pass_eq_of_failed {armed : Bool} {e : ε}
    (landing : (s.flight f).landing = some (.failed e)) :
    s.pass ⟨k, .waiting armed f⟩ now waker source =
      { store := s, call := ⟨k, .finished⟩, outcome := some (.sharedFailure f e) } := by
  have hpass := s.pass_spec now waker source ⟨k, .waiting armed f⟩
  generalize s.pass ⟨k, .waiting armed f⟩ now waker source = p at hpass ⊢
  cases hpass with
  | wait aloft => cases landing.symm.trans aloft
  | share landing' =>
    cases landing.symm.trans landing'
    rfl
  | retry landing' notFailed =>
    exact absurd (Option.some.inj (landing'.symm.trans landing)) (notFailed e)

theorem pass_eq_of_landed {armed : Bool} (landing : (s.flight f).landing = some l)
    (notFailed : ∀ e, l ≠ .failed e) :
    s.pass ⟨k, .waiting armed f⟩ now waker source =
      { store := s, call := ⟨k, .lookup armed⟩ } := by
  have hpass := s.pass_spec now waker source ⟨k, .waiting armed f⟩
  generalize s.pass ⟨k, .waiting armed f⟩ now waker source = p at hpass ⊢
  cases hpass with
  | wait aloft => cases landing.symm.trans aloft
  | share landing' => exact absurd (Option.some.inj (landing.symm.trans landing')) (notFailed _)
  | retry => rfl

theorem poll_eq_of_failed {armed : Bool} {e : ε}
    (landing : (s.flight f).landing = some (.failed e)) :
    s.poll ⟨k, .waiting armed f⟩ now waker source =
      { store := s, call := ⟨k, .finished⟩, outcome := some (.sharedFailure f e) } := by
  have hpass : s.pass ⟨k, .waiting armed f⟩ now waker source = _ :=
    s.pass_eq_of_failed waker source landing
  rw [poll, passBound, s.passes_succ waker source 2 _ (by rw [hpass]), hpass]

theorem lookUp_eq_of_live {armed : Bool} {r : Ref (Entry ν)} (live : s.live? k now = some r) :
    s.pass ⟨k, .lookup armed⟩ now waker source =
      { store := s.modifyEntry r (·.recordAccess now), call := ⟨k, .lookup armed⟩,
        outcome := some (.hit r) } := by
  simp only [pass, lookUp, live]

theorem lookUp_eq_of_registered {armed : Bool} (missing : s.live? k now = none)
    (registered : s.flight? k = some f) :
    s.pass ⟨k, .lookup armed⟩ now waker source =
      { store := s, call := ⟨k, .waiting armed f⟩ } := by
  simp only [pass, lookUp, missing, registered]

theorem lookUp_eq_of_vacant (missing : s.live? k now = none) (vacant : s.flight? k = none)
    (accepted : source.refusal = none) :
    s.pass ⟨k, .lookup true⟩ now waker source =
      { store := (s.register k).2, call := ⟨k, .loading (s.register k).1⟩, asked := true } := by
  simp only [pass, lookUp, missing, vacant, accepted, if_true]

variable {s} {waker} {source}

theorem passes_succ_eq {n : Nat} {s : Store κ ν ε ω} {c : Call κ ε ω} {o : Outcome ν ε ω}
    (outcome : (s.passes n c now waker source).outcome = some o) :
    s.passes (n + 1) c now waker source = s.passes n c now waker source := by
  induction n generalizing s c with
  | zero => cases outcome
  | succ n ih =>
    rw [passes] at outcome ⊢
    conv_rhs => rw [passes]
    cases hp : (s.pass c now waker source).outcome with
    | some o => rfl
    | none =>
      simp only [hp] at outcome ⊢
      rw [ih outcome]

/-- A call that has waited for a flight is polled like a new call once it has landed, unless the
flight has failed. -/
theorem poll_eq_start_of_landed (hs : s.AllAloft) (landing : (s.flight f).landing = some l)
    (notFailed : ∀ e, l ≠ .failed e) :
    s.poll ⟨k, .waiting true f⟩ now waker source = s.poll (.start k) now waker source := by
  have hpass : s.pass ⟨k, .waiting true f⟩ now waker source = _ :=
    s.pass_eq_of_landed waker source landing notFailed
  have hpolled : Polled now waker source s (.start k) (s.passes 2 (.start k) now waker source) :=
    polled_passes 2 hs (Nat.le_refl 2)
  obtain ⟨o, outcome⟩ := hpolled.outcome_ne_none
  rw [poll, poll, passBound, s.passes_succ_of_silent waker source 2 hpass]
  exact (passes_succ_eq outcome).symm

theorem poll_start_of_live {r : Ref (Entry ν)} (live : s.live? k now = some r) :
    s.poll (.start k) now waker source =
      { store := s.modifyEntry r (·.recordAccess now), call := .start k,
        outcome := some (.hit r) } := by
  have hpass : s.pass ⟨k, .lookup true⟩ now waker source = _ :=
    s.lookUp_eq_of_live waker source live
  rw [poll, passBound, Call.start, s.passes_succ waker source 2 _ (by rw [hpass]), hpass]

theorem poll_start_of_registered (hs : s.AllAloft) (missing : s.live? k now = none)
    (registered : s.flight? k = some f) :
    s.poll (.start k) now waker source =
      { store := s.joinFlight f waker
        call := ⟨k, .waiting true f⟩
        outcome := some .pending } := by
  have hpass : s.pass ⟨k, .lookup true⟩ now waker source = _ :=
    s.lookUp_eq_of_registered waker source missing registered
  have hwait : s.pass ⟨k, .waiting true f⟩ now waker source =
      { store := s.joinFlight f waker
        call := ⟨k, .waiting true f⟩
        outcome := some .pending } := by
    have hspec := s.pass_spec now waker source ⟨k, .waiting true f⟩
    generalize s.pass ⟨k, .waiting true f⟩ now waker source = p at hspec ⊢
    have haloft := hs k f registered
    cases hspec with
    | wait => rfl
    | share landing => cases haloft.symm.trans landing
    | retry landing => cases haloft.symm.trans landing
  rw [poll, passBound, Call.start, s.passes_succ_of_silent waker source 2 hpass,
    s.passes_succ waker source 1 _ (by rw [hwait]), hwait]

omit [DecidableEq ω] in
theorem exists_outcome_runLoad (s : Store κ ν ε ω) (k : κ) (f : Ref (Flight ε ω)) (now : Instant)
    (reply : Reply ν ε) : ∃ o, (s.runLoad k f now reply).outcome = some o := by
  cases reply with
  | answered d v =>
    simp only [runLoad, landValue]
    split
    · exact ⟨_, rfl⟩
    · exact ⟨_, rfl⟩
  | _ => exact ⟨_, rfl⟩

theorem poll_of_loading (s : Store κ ν ε ω) (k : κ) (f : Ref (Flight ε ω)) (now : Instant)
    (waker : ω) (source : Source ν ε) :
    s.poll ⟨k, .loading f⟩ now waker source = s.runLoad k f now source.reply := by
  obtain ⟨o, outcome⟩ := s.exists_outcome_runLoad k f now source.reply
  exact s.passes_succ waker source 2 _ outcome

/-- A new call leads a flight of its own, and runs its load, where there is none. -/
theorem poll_start_of_vacant (missing : s.live? k now = none) (vacant : s.flight? k = none)
    (accepted : source.refusal = none) :
    s.poll (.start k) now waker source =
      { (s.register k).2.runLoad k (s.register k).1 now source.reply with asked := true } := by
  have hpass := s.lookUp_eq_of_vacant waker source missing vacant accepted
  have hload : (s.register k).2.pass ⟨k, .loading (s.register k).1⟩ now waker source =
      (s.register k).2.runLoad k (s.register k).1 now source.reply := rfl
  obtain ⟨o, outcome⟩ := (s.register k).2.exists_outcome_runLoad k (s.register k).1 now source.reply
  rw [poll, passBound, Call.start, passes]
  simp only [hpass, List.nil_append, Bool.true_or]
  rw [(s.register k).2.passes_succ waker source 1 _ (hload ▸ outcome), hload]
  simp

end Retrying

end Store

end ReadThrough
