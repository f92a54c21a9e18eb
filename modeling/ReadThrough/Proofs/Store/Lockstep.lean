import ReadThrough.Proofs.Store.Alike

/-!
# Polls of stores that look alike

If a call is polled on two stores that look alike, the poll takes the same course on both and leaves
them alike, so nothing that it shows can tell one from the other.
-/

namespace ReadThrough.Store

variable {κ ν ε ω : Type} [DecidableEq κ] {s s' : Store κ ν ε ω} {now : Instant}

section Removal

theorem live?_modifyEntry (s : Store κ ν ε ω) (r : Ref (Entry ν)) {f : Entry ν → Entry ν}
    (hf : ∀ e, (f e).expires = e.expires) (k : κ) :
    (s.modifyEntry r f).live? k now = s.live? k now := by
  rw [live?, isLive_congr_expires? (funext (expires?_modifyEntry s r hf))]
  rfl

theorem live?_remove (s : Store κ ν ε ω) (k j : κ) :
    (s.remove k).2.live? j now = if j = k then none else s.live? j now := by
  rw [live?, slot?_remove, isLive_congr (sameCells_remove s k).entries_eq]
  split
  · rfl
  · rfl

theorem live?_clear (s : Store κ ν ε ω) (k : κ) : s.clear.live? k now = none := by
  rw [live?, slot?_clear]
  rfl

theorem sameMeasures_remove (s : Store κ ν ε ω) (k : κ) : s.SameMeasures (s.remove k).2 := by
  unfold remove
  split
  · exact ⟨rfl, rfl, rfl, rfl⟩
  · exact .refl s

end Removal

namespace Alike

theorem modifyEntry (h : s.Alike now s') (r : Ref (Entry ν)) {f : Entry ν → Entry ν}
    (span : ∀ e, (f e).created = e.created ∧ (f e).expires = e.expires) :
    (s.modifyEntry r f).Alike now (s'.modifyEntry r f) := by
  have hexpires : ∀ e, (f e).expires = e.expires := fun e => (span e).2
  apply h.after (narrows_modifyEntry s r span).toSameMeasures
    (narrows_modifyEntry s' r span).toSameMeasures
  case flights => exact ⟨h.flights_eq, h.flight?_eq⟩
  case entries => exact congrArg (fun entries : Arena (Entry ν) => entries.modify r f) h.entries_eq
  case live =>
    intro j
    rw [live?_modifyEntry s' r hexpires, live?_modifyEntry s r hexpires, h.live?_eq]

theorem remove (h : s.Alike now s') (k : κ) : (s.remove k).2.Alike now (s'.remove k).2 := by
  have hcells := sameCells_remove s k
  have hcells' := sameCells_remove s' k
  apply h.after (sameMeasures_remove s k) (sameMeasures_remove s' k)
  case flights =>
    exact hcells.toSameFlights.symm.trans (h.toSameFlights.trans hcells'.toSameFlights)
  case entries => rw [hcells'.entries_eq, h.entries_eq, hcells.entries_eq]
  case live =>
    intro j
    rw [live?_remove, live?_remove, h.live?_eq]

theorem clear (h : s.Alike now s') : s.clear.Alike now s'.clear := by
  have hcells := sameCells_clear s
  have hcells' := sameCells_clear s'
  apply h.after s.narrows_clear.toSameMeasures s'.narrows_clear.toSameMeasures
  case flights =>
    exact hcells.toSameFlights.symm.trans (h.toSameFlights.trans hcells'.toSameFlights)
  case entries => exact h.entries_eq
  case live =>
    intro j
    rw [live?_clear, live?_clear]

theorem register (h : s.Alike now s') (k : κ) :
    (s'.register k).1 = (s.register k).1 ∧ (s.register k).2.Alike now (s'.register k).2 := by
  have hnext : s'.flights.next = s.flights.next := by rw [h.flights_eq]
  refine ⟨hnext, h.sameTables (sameTables_register s k) (sameTables_register s' k) ⟨?_, ?_⟩⟩
  · exact congrArg (Arena.add · .started) h.flights_eq
  · intro j
    rw [flight?_register, flight?_register, h.flight?_eq]
    split
    · exact congrArg some hnext
    · rfl

theorem concludeFlight (h : s.Alike now s') (k : κ) (f : Ref (Flight ε ω)) (l : Landing ε) :
    (s.concludeFlight k f l).2.Alike now (s'.concludeFlight k f l).2 :=
  h.sameTables (sameTables_concludeFlight s k f l) (sameTables_concludeFlight s' k f l)
    (h.toSameFlights.concludeFlight k f l)

theorem abandon (h : s.Alike now s') (c : Call κ ε ω) :
    (s'.abandon c).1 = (s.abandon c).1 ∧ (s.abandon c).2.Alike now (s'.abandon c).2 := by
  unfold Store.abandon
  split
  · exact ⟨h.toSameFlights.woken_concludeFlight _ _ _, h.concludeFlight _ _ _⟩
  · exact ⟨rfl, h⟩

theorem land (h : s.Alike now s') (hs : s.Sound) (hs' : s'.Sound) {k : κ} {f : Ref (Flight ε ω)}
    {value : Option ν} {e : Entry ν} (fresh : Entry.fresh? value now s.timeToLive = some e)
    (apart : s.capacity ≠ none →
      ((s.placeAndLand k f e).2.recordDeadline k e.expires now).2.LandedApart) :
    (s'.placeAndLand k f e).1 = (s.placeAndLand k f e).1 ∧
      ((s.placeAndLand k f e).2.recordDeadline k e.expires now).2.Alike now
        ((s'.placeAndLand k f e).2.recordDeadline k e.expires now).2 := by
  have hplace : (s.place k e).SameFlights (s'.place k e) :=
    (sameFlights_place s k e).symm.trans (h.toSameFlights.trans (sameFlights_place s' k e))
  have hplaced := placed_placeAndLand s k f e
  have hplaced' := placed_placeAndLand s' k f e
  have hfresh' : Entry.fresh? value now s'.timeToLive = some e := by rw [h.timeToLive_eq, fresh]
  have hnext : s'.entries.next = s.entries.next := by rw [h.entries_eq]
  have hboth : BothStore k value now s.entries.next s _ _ s' _ _ :=
    { alike := h
      room := hplaced.roomMade hs.toTidy fresh
      room' := hnext ▸ hplaced'.roomMade hs'.toTidy hfresh'
      sound := hs
      sound' := hs'
      made := hplaced.sound hs fresh
      made' := hplaced'.sound hs' hfresh'
      entries_eq := by
        rw [hplaced'.entries_made hs'.toTidy, hplaced.entries_made hs.toTidy, h.entries_eq]
      apart := apart }
  refine ⟨hplace.woken_concludeFlight k f .loaded, ?_⟩
  apply h.after (hplaced.sameMeasures_made hs.toTidy) (hplaced'.sameMeasures_made hs'.toTidy)
  case flights =>
    exact (sameFlights_landed s k f e now).symm.trans
      ((h.toSameFlights.concludeFlight k f .loaded).trans (sameFlights_landed s' k f e now))
  case entries => exact hboth.entries_eq
  case live => exact hboth.live?_eq

end Alike

/-- What two polls show is the same, and they leave stores alike. The source has taken `elapsed`
if it has been run. -/
structure ShowsSame (now : Instant) (elapsed : Nat) (p p' : Progress κ ν ε ω) : Prop where
  call_eq : p'.call = p.call
  outcome_eq : p'.outcome = p.outcome
  woken_eq : p'.woken = p.woken
  asked_eq : p'.asked = p.asked
  ran_eq : p'.ran = p.ran
  alike : p.store.Alike (if p.ran then now + elapsed else now) p'.store

section Passes

theorem Alike.lookUp (h : s.Alike now s') (k : κ) (armed : Bool) (source : Source ν ε) :
    ShowsSame now source.reply.elapsed (s.lookUp k armed now source)
      (s'.lookUp k armed now source) := by
  obtain ⟨hfirst, hregistered⟩ := h.register k
  unfold Store.lookUp
  rw [h.live?_eq, h.flight?_eq]
  cases s.live? k now with
  | some r => exact ⟨rfl, rfl, rfl, rfl, rfl, h.modifyEntry r fun _ => ⟨rfl, rfl⟩⟩
  | none =>
    cases s.flight? k with
    | some f => exact ⟨rfl, rfl, rfl, rfl, rfl, h⟩
    | none =>
      cases armed with
      | false => exact ⟨rfl, rfl, rfl, rfl, rfl, hregistered⟩
      | true =>
        cases hrefusal : source.refusal with
        | some text =>
          simp only
          exact ⟨rfl, rfl, rfl, rfl, rfl, hregistered⟩
        | none =>
          simp only
          refine ⟨?_, rfl, rfl, rfl, rfl, hregistered⟩
          exact congrArg (fun f => (⟨k, .loading f⟩ : Call κ ε ω)) hfirst

/-- A load is run in the same way, provided that what it brings lands at an instant of its own. -/
theorem Alike.runLoad (h : s.Alike now s') (hs : s.Sound) (hs' : s'.Sound) (k : κ)
    (f : Ref (Flight ε ω)) (reply : Reply ν ε)
    (apart : s.capacity ≠ none → (s.runLoad k f now reply).store.LandedApart) :
    ShowsSame now reply.elapsed (s.runLoad k f now reply) (s'.runLoad k f now reply) := by
  have hlater : s.Alike (now + reply.elapsed) s' := h.mono (Nat.le_add_right _ _)
  unfold Store.runLoad at apart ⊢
  cases reply with
  | pending => exact ⟨rfl, rfl, rfl, rfl, rfl, hlater⟩
  | crashed d text => exact ⟨rfl, rfl, rfl, rfl, rfl, hlater⟩
  | failed d e =>
    refine ⟨rfl, rfl, ?_, rfl, rfl, hlater.concludeFlight k f (.failed e)⟩
    exact h.toSameFlights.woken_concludeFlight k f (.failed e)
  | answered d v =>
    cases hfresh : Entry.fresh? v (now + d) s.timeToLive with
    | none =>
      have hlate : Entry.fresh? v (now + d) s'.timeToLive = none := by
        rw [h.timeToLive_eq, hfresh]
      simp only [landValue_of_late k f hfresh, landValue_of_late k f hlate]
      exact ⟨rfl, rfl, rfl, rfl, rfl, hlater⟩
    | some e =>
      have hfresh' : Entry.fresh? v (now + d) s'.timeToLive = some e := by
        rw [h.timeToLive_eq, hfresh]
      simp only [landValue_of_fresh k f hfresh] at apart
      obtain ⟨hwoken, halike⟩ := hlater.land hs hs' hfresh apart
      simp only [landValue_of_fresh k f hfresh, landValue_of_fresh k f hfresh']
      exact ⟨rfl, by rw [h.entries_eq], hwoken, rfl, rfl, halike⟩

variable [DecidableEq ω] {waker : ω} {source : Source ν ε}

theorem Alike.joinFlight (h : s.Alike now s') (f : Ref (Flight ε ω)) (waker : ω) :
    (s.joinFlight f waker).Alike now (s'.joinFlight f waker) := by
  refine h.sameTables (sameTables_withFlights s _) (sameTables_withFlights s' _) ⟨?_, h.flight?_eq⟩
  simp only [Store.joinFlight, h.flights_eq, h.flight_eq]

theorem Alike.await (h : s.Alike now s') (elapsed : Nat) (k : κ) (armed : Bool)
    (f : Ref (Flight ε ω)) (waker : ω) :
    ShowsSame now elapsed (s.await k armed f waker) (s'.await k armed f waker) := by
  have hjoined := h.joinFlight f waker
  unfold Store.joinFlight at hjoined
  unfold Store.await
  rw [h.flight_eq] at hjoined ⊢
  generalize (s.flight f).poll waker = answer at hjoined ⊢
  obtain ⟨landing, flight⟩ := answer
  simp only at hjoined ⊢
  cases landing with
  | none => exact ⟨rfl, rfl, rfl, rfl, rfl, hjoined⟩
  | some l => cases l <;> exact ⟨rfl, rfl, rfl, rfl, rfl, hjoined⟩

theorem Alike.pass (h : s.Alike now s') (hs : s.Sound) (hs' : s'.Sound) (c : Call κ ε ω)
    (apart : s.capacity ≠ none → (s.pass c now waker source).store.LandedApart) :
    ShowsSame now source.reply.elapsed (s.pass c now waker source)
      (s'.pass c now waker source) := by
  obtain ⟨k, phase⟩ := c
  cases phase with
  | lookup armed => exact h.lookUp k armed source
  | waiting armed f => exact h.await source.reply.elapsed k armed f waker
  | loading f => exact h.runLoad hs hs' k f source.reply apart
  | finished => exact ⟨rfl, rfl, rfl, rfl, rfl, h⟩

theorem Pass.ran_eq {c : Call κ ε ω} {p : Progress κ ν ε ω} (h : Pass s now waker source c p)
    (outcome : p.outcome = none) : p.ran = false := by
  cases h <;> first | rfl | cases outcome

theorem Alike.passes (n : Nat) (h : s.Alike now s') (hs : s.Sound) (hs' : s'.Sound)
    (c : Call κ ε ω)
    (apart : s.capacity ≠ none → (s.passes n c now waker source).store.LandedApart) :
    ShowsSame now source.reply.elapsed (s.passes n c now waker source)
      (s'.passes n c now waker source) := by
  induction n generalizing s s' c with
  | zero => exact ⟨rfl, rfl, rfl, rfl, rfl, h⟩
  | succ n ih =>
    have hp := pass_spec s now waker source c
    have hcapacity := (hp.changes.onward hs).capacity_eq
    have hsound := hp.changes.sound hs
    have hsound' := (pass_spec s' now waker source c).changes.sound hs'
    have hpass : (s.capacity ≠ none → (s.pass c now waker source).store.LandedApart) →
        ShowsSame now source.reply.elapsed (s.pass c now waker source)
          (s'.pass c now waker source) := h.pass hs hs' c
    unfold Store.passes at apart ⊢
    generalize s.pass c now waker source = p at *
    generalize s'.pass c now waker source = p' at *
    cases ho : p.outcome with
    | some o =>
      simp only [ho] at apart ⊢
      have hsame := hpass apart
      have ho' : p'.outcome = some o := hsame.outcome_eq.trans ho
      simp only [ho']
      exact hsame
    | none =>
      simp only [ho] at apart ⊢
      have hrest := (changes_passes n p.store p.call now waker source).onward hsound
      have hsame := hpass fun hbounded => hrest.landedApart (apart hbounded)
      have ho' : p'.outcome = none := hsame.outcome_eq.trans ho
      have halike : p.store.Alike now p'.store := by
        have halike := hsame.alike
        rw [hp.ran_eq ho] at halike
        exact halike
      have hq := ih halike hsound hsound' p.call (hcapacity.symm ▸ apart)
      simp only [ho', hsame.call_eq]
      constructor
      case call_eq => exact hq.call_eq
      case outcome_eq => exact hq.outcome_eq
      case woken_eq => rw [hsame.woken_eq, hq.woken_eq]
      case asked_eq => rw [hsame.asked_eq, hq.asked_eq]
      case ran_eq => rw [hsame.ran_eq, hq.ran_eq]
      case alike =>
        rw [hp.ran_eq ho, Bool.false_or]
        exact hq.alike

end Passes

end ReadThrough.Store
