import ReadThrough.Proofs.Store.Sessions

/-!
# No waker is lost

A waker that has been left with a flight stays there until the flight lands, and is fired then. So
it is with every pass, with every poll, and with whatever else is done in a session. A poll that
ends in waiting has left its waker, and one that finds no flight to wait for does not end so.
-/

namespace ReadThrough

namespace Store

variable {κ ν ε ω : Type}

/-- Landings are final, and a flight either keeps its wakers or lands and has them fired. -/
structure Advances (s s' : Store κ ν ε ω) (woken : List ω) : Prop where
  down : ∀ {f}, s.IsDown f → s'.IsDown f
  aloft : ∀ {f}, s.IsAloft f →
    s'.IsAloft f ∧ (s.flight f).waiting ⊆ (s'.flight f).waiting ∨
    s'.IsDown f ∧ (s.flight f).waiting ⊆ woken

variable {s s' s'' : Store κ ν ε ω}

theorem Advances.refl (s : Store κ ν ε ω) : s.Advances s [] :=
  ⟨id, fun h => .inl ⟨h, List.Subset.refl _⟩⟩

theorem Advances.trans {woken woken' : List ω} (h : s.Advances s' woken)
    (h' : s'.Advances s'' woken') : s.Advances s'' (woken ++ woken') where
  down hf := h'.down (h.down hf)
  aloft hf := by
    rcases h.aloft hf with ⟨hf', hsub⟩ | ⟨hf', hsub⟩
    · rcases h'.aloft hf' with ⟨hf'', hsub'⟩ | ⟨hf'', hsub'⟩
      · exact .inl ⟨hf'', List.Subset.trans hsub hsub'⟩
      · right
        exact ⟨hf'', List.subset_append_of_subset_right _ (List.Subset.trans hsub hsub')⟩
    · exact .inr ⟨h'.down hf', List.subset_append_of_subset_left _ hsub⟩

theorem IsDown.landing_ne_none {f : Ref (Flight ε ω)} (h : s.IsDown f) :
    (s.flight f).landing ≠ none := by
  obtain ⟨l, hl⟩ := h
  obtain ⟨fl, hget, hfl⟩ := Option.map_eq_some_iff.mp hl
  rw [flight, hget, Option.getD_some, hfl]
  exact Option.some_ne_none l

section Joining

variable [DecidableEq ω]

theorem flight_joinFlight_of_ne {f g : Ref (Flight ε ω)} (h : g ≠ f) (w : ω) :
    (s.joinFlight f w).flight g = s.flight g := by
  have hget : (s.joinFlight f w).flights.get? g = if g = f then _ else s.flights.get? g :=
    Arena.get?_modify _ _ _ _
  rw [flight, hget, if_neg h, flight]

theorem IsAloft.waiting_joinFlight {f : Ref (Flight ε ω)} (h : s.IsAloft f) (w : ω) :
    w ∈ ((s.joinFlight f w).flight f).waiting ∧
      (s.flight f).waiting ⊆ ((s.joinFlight f w).flight f).waiting := by
  obtain ⟨fl, hget, hl, hfl⟩ := h.flight_eq
  have hjoin : (s.joinFlight f w).flight f = (fl.poll w).2 := by
    have hget' : (s.joinFlight f w).flights.get? f =
        if f = f then (s.flights.get? f).map (fun _ => ((s.flight f).poll w).2)
        else s.flights.get? f := Arena.get?_modify _ _ _ _
    rw [flight, hget', if_pos rfl, hget, hfl]
    rfl
  rw [hjoin, hfl, Flight.poll, hl]
  by_cases hw : w ∈ fl.waiting
  · simp [hw]
  · simp [hw]

theorem advances_joinFlight (s : Store κ ν ε ω) (f : Ref (Flight ε ω)) (w : ω) :
    s.Advances (s.joinFlight f w) [] where
  down {g} hg := by
    rw [IsDown, standing?_joinFlight]
    exact hg
  aloft {g} hg := by
    left
    rw [IsAloft, standing?_joinFlight]
    refine ⟨hg, ?_⟩
    by_cases h : g = f
    · subst h
      exact (hg.waiting_joinFlight w).2
    · rw [flight_joinFlight_of_ne h]
      exact List.Subset.refl _

end Joining

variable [DecidableEq κ]

theorem SameFlights.advances (h : s.SameFlights s') : s.Advances s' [] where
  down {f} hf := by
    rw [IsDown, h.sameStanding.standing?_eq]
    exact hf
  aloft {f} hf := by
    left
    rw [IsAloft, h.sameStanding.standing?_eq, h.flight_eq]
    exact ⟨hf, List.Subset.refl _⟩

theorem advances_register (s : Store κ ν ε ω) (k : κ) : s.Advances (s.register k).2 [] where
  down {f} hf := by
    rw [IsDown, standing?_register, if_neg hf.ne_next]
    exact hf
  aloft {f} hf := by
    left
    rw [IsAloft, standing?_register, if_neg hf.ne_next, flight_register]
    exact ⟨hf, List.Subset.refl _⟩

theorem IsAloft.advances_concludeFlight {f : Ref (Flight ε ω)} (h : s.IsAloft f) (k : κ)
    (l : Landing ε) : s.Advances (s.concludeFlight k f l).2 (s.concludeFlight k f l).1 where
  down {g} hg := by
    have hne : g ≠ f := by
      rintro rfl
      exact h.not_isDown hg
    rw [IsDown, h.standing?_concludeFlight, if_neg hne]
    exact hg
  aloft {g} hg := by
    by_cases hgf : g = f
    · subst hgf
      refine .inr ⟨⟨l, by rw [h.standing?_concludeFlight, if_pos rfl]⟩, ?_⟩
      rw [woken_concludeFlight, Flight.land, h.landing_eq]
      exact List.Subset.refl _
    · left
      rw [IsAloft, h.standing?_concludeFlight, if_neg hgf]
      refine ⟨hg, ?_⟩
      have hget : (s.concludeFlight k f l).2.flights.get? g = s.flights.get? g := by
        rw [flights_concludeFlight, Arena.get?_modify, if_neg hgf]
      rw [flight, flight, hget]
      exact List.Subset.refl _

variable [DecidableEq ω] {ι : Type} {calls : ι → Option (Call κ ε ω)} {id : ι} {c : Call κ ε ω}
  {now : Instant} {waker : ω} {source : Source ν ε} {p : Progress κ ν ε ω}

theorem Orderly.advances_traffic (h : s.Orderly calls) (hc : calls id = some c)
    {w : Option ω} {refusal : Option String} {o : Option (Call κ ε ω)} {woken : List ω}
    {asked : Bool} (t : Traffic s c w refusal s' o woken asked) : s.Advances s' woken := by
  cases t with
  | stays same => exact same.advances
  | leaves => exact .refl s
  | joins => exact advances_joinFlight s _ _
  | leads => exact advances_register s c.key
  | strands => exact advances_register s c.key
  | concludes led same =>
    have haloft := h.aloft (h.registered hc led)
    have hadv := (haloft.advances_concludeFlight c.key _).trans same.advances
    rwa [List.append_nil] at hadv

theorem Orderly.advances_polled [DecidableEq ι] (h : s.Orderly calls) (hc : calls id = some c)
    (hp : Polled now waker source s c p) : s.Advances p.store p.woken := by
  induction hp generalizing calls with
  | last pass _ => exact h.advances_traffic hc pass.traffic
  | next pass _ _ ih =>
    have hrest := ih (h.traffic hc pass.traffic) (Function.update_self ..)
    exact (h.advances_traffic hc pass.traffic).trans hrest

/-- A poll that is pending has run a load, or has left its waker with a flight. -/
theorem Polled.pending_cases (h : Polled now waker source s c p)
    (pending : p.outcome = some .pending) :
    (∃ f, p.call.phase = .loading f) ∨
      ∃ armed f, ∃ s₀ : Store κ ν ε ω, p.call.phase = .waiting armed f ∧
        p.store = s₀.joinFlight f waker ∧ (s₀.flight f).landing = none := by
  induction h with
  | last pass _ =>
    cases pass with
    | wait aloft => exact .inr ⟨_, _, _, rfl, rfl, aloft⟩
    | park => exact .inl ⟨_, rfl⟩
    | _ => cases pending
  | next _ _ _ ih => exact ih pending

/-- A poll that is pending leaves its call with a flight that it leads, or with one that is aloft
and keeps the waker of this poll. -/
theorem Orderly.pending_polled [DecidableEq ι] (h : s.Orderly calls) (hc : calls id = some c)
    (hp : Polled now waker source s c p) (pending : p.outcome = some .pending) :
    (∃ f, p.call.phase = .loading f) ∨
      ∃ armed f, p.call.phase = .waiting armed f ∧ p.store.IsAloft f ∧
        waker ∈ (p.store.flight f).waiting := by
  rcases hp.pending_cases pending with hload | ⟨armed, f, s₀, hphase, hstore, hlanding⟩
  · exact .inl hload
  · have hafter := (h.polled hc hp).1
    have haloft : p.store.IsAloft f := by
      have hawaited : p.call.phase.awaited? = some f := by rw [hphase]; rfl
      rcases hafter.awaited (Function.update_self ..) hawaited with hreg | hdown
      · exact hafter.aloft hreg
      · rw [hstore, IsDown, standing?_joinFlight] at hdown
        exact absurd hlanding (IsDown.landing_ne_none hdown)
    refine .inr ⟨armed, f, hphase, haloft, ?_⟩
    rw [hstore, IsAloft, standing?_joinFlight] at haloft
    rw [hstore]
    exact (IsAloft.waiting_joinFlight haloft waker).1

/-- How a poll of `c` ends that has nobody to wait for. -/
inductive Unhindered (c : Call κ ε ω) (p : Progress κ ν ε ω) : Prop where
  | found {r : Ref (Entry ν)} (outcome : p.outcome = some (.hit r))
  | shared {f : Ref (Flight ε ω)} {x : ε} (awaited : c.phase.awaited? = some f)
      (outcome : p.outcome = some (.sharedFailure f x))
  | led (asked : p.asked = true) (ran : p.ran = true)
      (leads : p.outcome = some .pending → ∃ f, p.call = ⟨c.key, .loading f⟩)

theorem Pass.unhindered {k : κ} {f : Ref (Flight ε ω)} {c : Call κ ε ω}
    (h : Pass s now waker source ⟨k, .loading f⟩ p) (key : c.key = k) :
    Unhindered c { p with asked := true } := by
  subst key
  cases h with
  | park => exact .led rfl rfl fun _ => ⟨f, rfl⟩
  | land => exact .led rfl rfl nofun
  | overflow => exact .led rfl rfl nofun
  | fail => exact .led rfl rfl nofun
  | crash => exact .led rfl rfl nofun

/-- A call that may still ask its source, and finds no flight for its key, does not end in
waiting. -/
theorem Polled.unhindered (h : Polled now waker source s c p) (vacant : s.flight? c.key = none)
    (accepted : source.refusal = none) (led : c.phase.led? = none) (unfinished : c.phase ≠ .finished)
    (unspent : c.phase.isSpent = false) (awaited : ∀ f, c.phase.awaited? = some f → s.IsDown f) :
    Unhindered c p := by
  induction h with
  | last pass outcome =>
    cases pass with
    | hit => exact .found rfl
    | share => exact .shared rfl rfl
    | wait aloft => exact absurd aloft (awaited _ rfl).landing_ne_none
    | refuse _ _ refused => cases accepted.symm.trans refused
    | unarmed => cases unspent
    | exhaust => exact absurd rfl unfinished
    | lead => cases outcome
    | join => cases outcome
    | retry => cases outcome
    | _ => cases led
  | @next s c p q pass outcome rest ih =>
    cases pass with
    | join _ registered => cases vacant.symm.trans registered
    | lead =>
      cases rest with
      | last pass _ => simpa using pass.unhindered rfl
      | next pass outcome _ => cases pass <;> cases outcome
    | @retry k armed =>
      cases ih vacant rfl nofun unspent nofun with
      | found outcome => exact .found outcome
      | shared awaited => cases awaited
      | led asked ran leads => exact .led asked ran leads
    | _ => cases outcome

end Store

namespace Session

variable {ι κ ν ε ω : Type} [DecidableEq ι] [DecidableEq κ]

/-- Order is kept from `s` to `s'`, no key is stranded, and no waker is lost. -/
structure Proceeds (s s' : Session ι κ ν ε ω) (woken : List ω) : Prop where
  settles : s.Settles s' fun _ => False
  advances : s.Orderly → s.store.Advances s'.store woken

variable {s s' s'' : Session ι κ ν ε ω}

/-- The flight `f` for `k` keeps the waker `w` of the get `i`, and another get leads it, and no
other. -/
structure Parked (s : Session ι κ ν ε ω) (i : ι) (k : κ) (f : Ref (Flight ε ω)) (w : ω) : Prop where
  aloft : s.store.IsAloft f
  registered : s.store.flight? k = some f
  leader : ∃ j, j ≠ i ∧ s.Leads j k f ∧ ∀ j' k', s.Leads j' k' f → j' = j
  kept : w ∈ (s.store.flight f).waiting

theorem parked_of_waiting {i : ι} {c : Call κ ε ω} {armed : Bool}
    {f : Ref (Flight ε ω)} {w : ω} (hs : s.Orderly) (hk : ∀ k, ¬ s.Stranded k)
    (hc : s.calls.get? i = some c) (hphase : c.phase = .waiting armed f)
    (haloft : s.store.IsAloft f) (hw : w ∈ (s.store.flight f).waiting) :
    s.Parked i c.key f w := by
  have hawaited : c.phase.awaited? = some f := by rw [hphase]; rfl
  have hreg : s.store.flight? c.key = some f :=
    (Store.Orderly.awaited hs hc hawaited).resolve_right haloft.not_isDown
  obtain ⟨j, hj⟩ := hs.exists_leads (hk c.key) hreg
  refine ⟨haloft, hreg, ⟨j, ?_, hj, ?_⟩, hw⟩
  · rintro rfl
    have hc' : c = ⟨c.key, .loading f⟩ := Option.some.inj (hc.symm.trans hj)
    rw [hc'] at hphase
    cases hphase
  · intro j' k' hj'
    exact Store.Orderly.leader hs hj'.ledBy_eq hj.ledBy_eq

theorem Proceeds.refl (s : Session ι κ ν ε ω) : s.Proceeds s [] :=
  ⟨.refl s, fun _ => .refl s.store⟩

theorem Proceeds.trans {woken woken' : List ω} (h : s.Proceeds s' woken)
    (h' : s'.Proceeds s'' woken') : s.Proceeds s'' (woken ++ woken') :=
  ⟨h.settles.trans_of_lossless h'.settles, fun hs =>
    (h.advances hs).trans (h'.advances (h.settles.orderly hs))⟩

theorem proceeds_of_sameFlights (calls : s'.calls = s.calls) (h : s.store.SameFlights s'.store) :
    s.Proceeds s' [] :=
  ⟨settles_of_sameFlights calls h, fun _ => h.advances⟩

variable [DecidableEq ω]

theorem proceeds_drop (s : Session ι κ ν ε ω) (id : ι) :
    s.Proceeds (s.drop id).2 (s.drop id).1 := by
  refine ⟨s.settles_drop id, fun hs => ?_⟩
  cases hc : s.calls.get? id with
  | none =>
    rw [drop_of_absent hc]
    exact .refl s.store
  | some c =>
    rw [drop_of_present hc]
    exact Store.Orderly.advances_traffic hs hc (Store.traffic_abandon s.store c)

variable {id : ι} {c : Call κ ε ω} {now : Instant} {waker : ω} {reply : Reply ν ε}

theorem proceeds_pollKept (hc : s.Admits id c) :
    s.Proceeds (s.pollKept id c now waker ⟨none, reply⟩).2
      (s.store.poll c now waker ⟨none, reply⟩).woken := by
  constructor
  · have h : s.Settles (s.pollKept id c now waker ⟨none, reply⟩).2 _ := settles_pollKept hc
    refine ⟨h.orderly, fun hs k => ?_⟩
    rw [h.stranded_iff hs]
    simp
  · intro hs
    exact (hc.orderly hs).advances_polled (Function.update_self ..)
      (Store.polled_poll hs.allAloft c)

theorem proceeds_pollCall (hc : s.Admits id c) :
    s.Proceeds (s.pollCall id c now waker ⟨none, reply⟩).2
      (s.pollCall id c now waker ⟨none, reply⟩).1.woken := by
  unfold pollCall
  simp only
  split
  · exact (proceeds_pollKept hc).trans (proceeds_drop _ id)
  · exact (proceeds_pollKept hc).trans (.refl _)

theorem pending_pollKept (hc : s.Admits id c) (hs : s.Orderly)
    (pending : (s.store.poll c now waker ⟨none, reply⟩).outcome = some .pending) :
    let s' := (s.pollKept id c now waker ⟨none, reply⟩).2
    ∀ d, s'.calls.get? id = some d → (∃ f, d.phase = .loading f) ∨
      ∃ armed f, d.phase = .waiting armed f ∧ s'.store.IsAloft f ∧
        waker ∈ (s'.store.flight f).waiting := by
  intro s' d hd
  rw [get?_pollKept, Function.update_self] at hd
  cases hd
  exact (hc.orderly hs).pending_polled (Function.update_self ..)
    (Store.polled_poll hs.allAloft c) pending

end Session

end ReadThrough
