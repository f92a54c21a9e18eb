import ReadThrough.Store.Call

/-!
# What one pass of a poll can do

A pass has fourteen cases, by the phase of the call and by what it finds. They are listed here once,
each with the condition under which it arises and all that it does. A poll is then a chain of at
most three passes, of which the last one gives the outcome.
-/

namespace ReadThrough

variable {κ ν ε ω : Type}

theorem Arena.ext_get? {α : Type} {a b : Arena α} (h : ∀ r, a.get? r = b.get? r) : a = b := by
  obtain ⟨cells⟩ := a
  obtain ⟨cells'⟩ := b
  congr 1
  apply Array.ext_getElem?
  intro i
  exact h ⟨i⟩

theorem Arena.modify_getD {α : Type} (a : Arena α) (r : Ref α) (x : α) :
    a.modify r (fun _ => (a.get? r).getD x) = a := by
  apply Arena.ext_get?
  intro s
  rw [Arena.get?_modify]
  split
  · rename_i hs
    rw [hs]
    cases a.get? r <;> rfl
  · rfl

namespace Store

section Waiting

variable [DecidableEq ω]

/-- Leave a waker with a flight. -/
def joinFlight (s : Store κ ν ε ω) (f : Ref (Flight ε ω)) (waker : ω) : Store κ ν ε ω :=
  { s with flights := s.flights.modify f fun _ => ((s.flight f).poll waker).2 }

theorem joinFlight_of_landed {s : Store κ ν ε ω} {f : Ref (Flight ε ω)} {l : Landing ε}
    (h : (s.flight f).landing = some l) (waker : ω) : s.joinFlight f waker = s := by
  have hpoll : ((s.flight f).poll waker).2 = (s.flights.get? f).getD .started := by
    simp only [Flight.poll, h]
    rfl
  unfold joinFlight
  rw [hpoll, Arena.modify_getD]

end Waiting

variable [DecidableEq κ]

def place (s : Store κ ν ε ω) (k : κ) (e : Entry ν) : Store κ ν ε ω :=
  (s.addEntry e).2.setSlot k (s.addEntry e).1

/-- Keep a new entry in the slot of `k`, and land the flight that has brought it. -/
def placeAndLand (s : Store κ ν ε ω) (k : κ) (f : Ref (Flight ε ω)) (e : Entry ν) :
    List ω × Store κ ν ε ω :=
  (s.place k e).concludeFlight k f .loaded

variable [DecidableEq ω]

/-- What a pass can come to, by the call that it is made for. A lookup finds a live entry, joins the
flight of somebody else, or leads one of its own, unless the source crashes when it is asked, or has
been asked before. A call that waits goes on waiting, shares a failure, or looks up again. A load is
parked, lands, comes too late for an entry, fails or crashes. -/
inductive Pass (s : Store κ ν ε ω) (now : Instant) (waker : ω) (source : Source ν ε) :
    Call κ ε ω → Progress κ ν ε ω → Prop where
  | hit {k : κ} {armed : Bool} {r : Ref (Entry ν)} (live : s.live? k now = some r) :
      Pass s now waker source ⟨k, .lookup armed⟩
        { store := s.modifyEntry r (·.recordAccess now), call := ⟨k, .lookup armed⟩,
          outcome := some (.hit r) }
  | join {k : κ} {armed : Bool} {f : Ref (Flight ε ω)} (missing : s.live? k now = none)
      (registered : s.flight? k = some f) :
      Pass s now waker source ⟨k, .lookup armed⟩ { store := s, call := ⟨k, .waiting armed f⟩ }
  | lead {k : κ} (missing : s.live? k now = none) (vacant : s.flight? k = none)
      (accepted : source.refusal = none) :
      Pass s now waker source ⟨k, .lookup true⟩
        { store := (s.register k).2, call := ⟨k, .loading (s.register k).1⟩, asked := true }
  | refuse {k : κ} {text : String} (missing : s.live? k now = none) (vacant : s.flight? k = none)
      (refused : source.refusal = some text) :
      Pass s now waker source ⟨k, .lookup true⟩
        { store := (s.register k).2, call := ⟨k, .lookup false⟩,
          outcome := some (.crashed text), asked := true }
  | unarmed {k : κ} (missing : s.live? k now = none) (vacant : s.flight? k = none) :
      Pass s now waker source ⟨k, .lookup false⟩
        { store := (s.register k).2, call := ⟨k, .lookup false⟩, outcome := some .unarmed }
  | wait {k : κ} {armed : Bool} {f : Ref (Flight ε ω)} (aloft : (s.flight f).landing = none) :
      Pass s now waker source ⟨k, .waiting armed f⟩
        { store := s.joinFlight f waker, call := ⟨k, .waiting armed f⟩, outcome := some .pending }
  | share {k : κ} {armed : Bool} {f : Ref (Flight ε ω)} {e : ε}
      (landing : (s.flight f).landing = some (.failed e)) :
      Pass s now waker source ⟨k, .waiting armed f⟩
        { store := s, call := ⟨k, .finished⟩, outcome := some (.sharedFailure f e) }
  | retry {k : κ} {armed : Bool} {f : Ref (Flight ε ω)} {l : Landing ε}
      (landing : (s.flight f).landing = some l) (notFailed : ∀ e, l ≠ .failed e) :
      Pass s now waker source ⟨k, .waiting armed f⟩ { store := s, call := ⟨k, .lookup armed⟩ }
  | park {k : κ} {f : Ref (Flight ε ω)} (reply : source.reply = .pending) :
      Pass s now waker source ⟨k, .loading f⟩
        { store := s, call := ⟨k, .loading f⟩, outcome := some .pending, ran := true }
  | land {k : κ} {f : Ref (Flight ε ω)} {d : Nat} {v : Option ν} {e : Entry ν}
      (reply : source.reply = .answered d v)
      (fresh : Entry.fresh? v (now + d) s.timeToLive = some e) :
      Pass s now waker source ⟨k, .loading f⟩
        { store := ((s.placeAndLand k f e).2.recordDeadline k e.expires (now + d)).2
          call := ⟨k, .finished⟩
          outcome := some (.loaded s.entries.next)
          woken := (s.placeAndLand k f e).1
          evicted := ((s.placeAndLand k f e).2.recordDeadline k e.expires (now + d)).1
          ran := true }
  | overflow {k : κ} {f : Ref (Flight ε ω)} {d : Nat} {v : Option ν}
      (reply : source.reply = .answered d v)
      (late : Entry.fresh? v (now + d) s.timeToLive = none) :
      Pass s now waker source ⟨k, .loading f⟩
        { store := s, call := ⟨k, .loading f⟩, outcome := some .expiryOverflow, ran := true }
  | fail {k : κ} {f : Ref (Flight ε ω)} {d : Nat} {e : ε} (reply : source.reply = .failed d e) :
      Pass s now waker source ⟨k, .loading f⟩
        { store := (s.concludeFlight k f (.failed e)).2, call := ⟨k, .finished⟩,
          outcome := some (.loadFailed f e), woken := (s.concludeFlight k f (.failed e)).1,
          ran := true }
  | crash {k : κ} {f : Ref (Flight ε ω)} {d : Nat} {text : String}
      (reply : source.reply = .crashed d text) :
      Pass s now waker source ⟨k, .loading f⟩
        { store := s, call := ⟨k, .loading f⟩, outcome := some (.crashed text), ran := true }
  | exhaust {k : κ} :
      Pass s now waker source ⟨k, .finished⟩
        { store := s, call := ⟨k, .finished⟩, outcome := some .exhausted }

variable (s : Store κ ν ε ω) (now : Instant) (waker : ω) (source : Source ν ε)

theorem pass_lookUp (k : κ) (armed : Bool) :
    Pass s now waker source ⟨k, .lookup armed⟩ (s.lookUp k armed now source) := by
  unfold lookUp
  cases hl : s.live? k now with
  | some r => exact .hit hl
  | none =>
    cases hf : s.flight? k with
    | some f => exact .join hl hf
    | none =>
      cases armed with
      | false => exact .unarmed hl hf
      | true =>
        cases hr : source.refusal with
        | none => simpa [hr] using Pass.lead hl hf hr
        | some text => simpa [hr] using Pass.refuse hl hf hr

theorem pass_await (k : κ) (armed : Bool) (f : Ref (Flight ε ω)) :
    Pass s now waker source ⟨k, .waiting armed f⟩ (s.await k armed f waker) := by
  have hstore : ({ s with flights := s.flights.modify f fun _ => ((s.flight f).poll waker).2 } :
      Store κ ν ε ω) = s.joinFlight f waker := rfl
  have hfst : ((s.flight f).poll waker).1 = (s.flight f).landing := by
    unfold Flight.poll
    split
    · rename_i h
      exact h.symm
    · rename_i h
      split <;> exact h.symm
  unfold await
  simp only [hstore, hfst]
  cases hl : (s.flight f).landing with
  | none => exact .wait hl
  | some l =>
    rw [joinFlight_of_landed hl]
    cases l with
    | loaded => exact .retry hl (by intro e h; cases h)
    | abandoned => exact .retry hl (by intro e h; cases h)
    | failed e => exact .share hl

omit [DecidableEq ω] in
theorem landValue_of_fresh {s : Store κ ν ε ω} {v : Option ν} {t : Instant} {e : Entry ν}
    (k : κ) (f : Ref (Flight ε ω)) (h : Entry.fresh? v t s.timeToLive = some e) :
    s.landValue k f v t =
      { store := ((s.placeAndLand k f e).2.recordDeadline k e.expires t).2
        call := ⟨k, .finished⟩
        outcome := some (.loaded s.entries.next)
        woken := (s.placeAndLand k f e).1
        evicted := ((s.placeAndLand k f e).2.recordDeadline k e.expires t).1
        ran := true } := by
  unfold landValue
  rw [h]
  rfl

omit [DecidableEq ω] in
theorem landValue_of_late {s : Store κ ν ε ω} {v : Option ν} {t : Instant}
    (k : κ) (f : Ref (Flight ε ω)) (h : Entry.fresh? v t s.timeToLive = none) :
    s.landValue k f v t =
      { store := s, call := ⟨k, .loading f⟩, outcome := some .expiryOverflow, ran := true } := by
  unfold landValue
  rw [h]

theorem pass_runLoad (k : κ) (f : Ref (Flight ε ω)) :
    Pass s now waker source ⟨k, .loading f⟩ (s.runLoad k f now source.reply) := by
  unfold runLoad
  cases hr : source.reply with
  | pending => exact .park hr
  | failed d e => exact .fail hr
  | crashed d text => exact .crash hr
  | answered d v =>
    cases he : Entry.fresh? v (now + d) s.timeToLive with
    | none =>
      simp only [landValue_of_late k f he]
      exact .overflow hr he
    | some e =>
      simp only [landValue_of_fresh k f he]
      exact .land hr he

theorem pass_spec (c : Call κ ε ω) :
    Pass s now waker source c (s.pass c now waker source) := by
  obtain ⟨k, phase⟩ := c
  cases phase with
  | lookup armed => exact pass_lookUp s now waker source k armed
  | waiting armed f => exact pass_await s now waker source k armed f
  | loading f => exact pass_runLoad s now waker source k f
  | finished => exact .exhaust

variable {s now waker source}

theorem Pass.key_eq {c : Call κ ε ω} {p : Progress κ ν ε ω} (h : Pass s now waker source c p) :
    p.call.key = c.key := by
  cases h <;> rfl

variable (now waker source) in
/-- What a poll can come to: passes without an outcome, and then one with an outcome. -/
inductive Polled : Store κ ν ε ω → Call κ ε ω → Progress κ ν ε ω → Prop where
  | last {s : Store κ ν ε ω} {c : Call κ ε ω} {p : Progress κ ν ε ω}
      {o : Outcome ν ε ω} (pass : Pass s now waker source c p) (outcome : p.outcome = some o) :
      Polled s c p
  | next {s : Store κ ν ε ω} {c : Call κ ε ω} {p q : Progress κ ν ε ω}
      (pass : Pass s now waker source c p) (outcome : p.outcome = none)
      (rest : Polled p.store p.call q) :
      Polled s c { q with
        woken := p.woken ++ q.woken
        evicted := p.evicted ++ q.evicted
        asked := p.asked || q.asked
        ran := p.ran || q.ran }

omit [DecidableEq ω] in
theorem flight_register (s : Store κ ν ε ω) (k : κ) (f : Ref (Flight ε ω)) :
    (s.register k).2.flight f = s.flight f := by
  have hget : (s.register k).2.flights.get? f
      = if f = s.flights.next then some .started else s.flights.get? f := Arena.get?_add _ _ _
  unfold flight
  rw [hget]
  split
  · rename_i h
    rw [h, Arena.get?_next]
    rfl
  · rfl

/-- No flight on the register has landed. -/
def AllAloft (s : Store κ ν ε ω) : Prop :=
  ∀ k f, s.flight? k = some f → (s.flight f).landing = none

omit [DecidableEq ω] in
theorem AllAloft.register (h : s.AllAloft) (k : κ) : (s.register k).2.AllAloft := by
  intro j f hf
  rw [flight_register]
  rw [flight?_register] at hf
  split at hf
  · cases hf
    have hnone : s.flights.get? (s.register k).1 = none := Arena.get?_next _
    rw [flight, hnone]
    rfl
  · exact h j f hf

/-- How many passes a call needs to come to an outcome. -/
def passesNeeded (s : Store κ ν ε ω) (c : Call κ ε ω) : Nat :=
  match c.phase with
  | .lookup _ => 2
  | .waiting _ f => if (s.flight f).hasLanded then 3 else 1
  | .loading _ => 1
  | .finished => 1

omit [DecidableEq κ] [DecidableEq ω] in
theorem passesNeeded_le (s : Store κ ν ε ω) (c : Call κ ε ω) : s.passesNeeded c ≤ passBound := by
  unfold passesNeeded passBound
  split
  · decide
  · split <;> decide
  · decide
  · decide

omit [DecidableEq κ] [DecidableEq ω] in
theorem passesNeeded_pos (s : Store κ ν ε ω) (c : Call κ ε ω) : 0 < s.passesNeeded c := by
  unfold passesNeeded
  split
  · decide
  · split <;> decide
  · decide
  · decide

/-- Enough passes lead to an outcome: a flight that is joined keeps the call waiting, and one
that is led is run. -/
theorem polled_passes (n : Nat) (hs : s.AllAloft) {c : Call κ ε ω} (hn : s.passesNeeded c ≤ n) :
    Polled now waker source s c (s.passes n c now waker source) := by
  induction n generalizing s c with
  | zero =>
    have hpos := s.passesNeeded_pos c
    omega
  | succ n ih =>
    have hp := pass_spec s now waker source c
    unfold passes
    generalize s.pass c now waker source = p at hp ⊢
    cases ho : p.outcome with
    | some o =>
      simp only [ho]
      exact .last hp ho
    | none =>
      simp only [ho]
      refine .next hp ho (ih ?_ ?_)
      · cases hp with
        | lead => exact hs.register _
        | join => exact hs
        | retry => exact hs
        | _ => cases ho
      · cases hp with
        | lead => simp [passesNeeded] at hn ⊢; omega
        | join _ registered =>
          simp [passesNeeded, Flight.hasLanded, hs _ _ registered] at hn ⊢
          omega
        | retry landing =>
          simp [passesNeeded, Flight.hasLanded, landing] at hn ⊢
          omega
        | _ => cases ho

/-- A poll comes to an outcome, provided that no flight on the register has landed. -/
theorem polled_poll (hs : s.AllAloft) (c : Call κ ε ω) :
    Polled now waker source s c (s.poll c now waker source) :=
  polled_passes passBound hs (passesNeeded_le s c)

theorem Polled.outcome_ne_none {c : Call κ ε ω} {p : Progress κ ν ε ω}
    (h : Polled now waker source s c p) : ∃ o, p.outcome = some o := by
  induction h with
  | last _ outcome => exact ⟨_, outcome⟩
  | next _ _ _ ih => exact ih

end Store

end ReadThrough
