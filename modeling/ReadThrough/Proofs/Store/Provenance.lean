import ReadThrough.Proofs.Store.Histories
import ReadThrough.Proofs.Store.Waiting

/-!
# The history of a session

A session reads an entry where a poll finds it live. It brings a value where a load answers, and
where one entry is swapped for another.
-/

namespace ReadThrough

namespace Store

variable {κ ν ε ω : Type} [DecidableEq κ] [DecidableEq ω] {s : Store κ ν ε ω} {now : Instant}
  {waker : ω} {source : Source ν ε} {c : Call κ ε ω} {p : Progress κ ν ε ω} {r : Ref (Entry ν)}

theorem Polled.ran_of_loaded (h : Polled now waker source s c p)
    (loaded : p.outcome = some (.loaded r)) : p.ran = true := by
  induction h with
  | last pass _ =>
    cases pass with
    | land => rfl
    | _ => cases loaded
  | next _ _ _ ih =>
    rw [ih loaded, Bool.or_true]

theorem Polled.led_or_asked (h : Polled now waker source s c p)
    (loaded : p.outcome = some (.loaded r)) :
    (∃ f, c.phase.led? = some f) ∨ p.asked = true := by
  induction h with
  | last pass _ =>
    cases pass with
    | land => exact .inl ⟨_, rfl⟩
    | _ => cases loaded
  | next pass outcome _ ih =>
    cases pass with
    | lead => exact .inr rfl
    | join | retry =>
      rcases ih loaded with ⟨f, hf⟩ | hasked
      · cases hf
      · exact .inr hasked
    | _ => cases outcome

/-- A poll that stores an entry has stored the answer of its load. -/
theorem Polled.stocked (h : Polled now waker source s c p) (hs : s.Tidy)
    (loaded : p.outcome = some (.loaded r)) : ∃ d v, source.reply = .answered d v ∧
      s.Stocked c.key r v (now + d) p.store := by
  obtain ⟨d, v, hreply, hroom⟩ := h.roomMade hs loaded
  exact ⟨d, v, hreply, hroom.stocked⟩

end Store

namespace Session

variable {ι κ ν ε ω : Type} [DecidableEq ι] [DecidableEq κ] [DecidableEq ω]

def read? (t : Clocked (Session ι κ ν ε ω)) : SessionEvent ι κ ν ε ω → Option (Ref (Entry ν))
  | .poll id waker source _ => (t.state.calls.get? id).bind fun c =>
      (t.state.store.poll c t.now waker source).outcome.bind (·.hit?)
  | _ => none

/-- The event brings the value `v` for `k`, at the instant `time`, and stores it as the entry `r`: a
call completes the load that it leads, or an entry is swapped. -/
inductive Brings (k : κ) (r : Ref (Entry ν)) :
    Option ν → Instant → Clocked (Session ι κ ν ε ω) → SessionEvent ι κ ν ε ω → Prop where
  | load {t : Clocked (Session ι κ ν ε ω)} {i : ι} {c : Call κ ε ω} {waker : ω}
      {source : Source ν ε} {keepCrashed : Bool} {d : Nat} {v : Option ν}
      (present : t.state.calls.get? i = some c) (key : c.key = k)
      (loaded : (t.state.store.poll c t.now waker source).outcome = some (.loaded r))
      (answer : source.reply = .answered d v) :
      Brings k r v (t.now + d) t (.poll i waker source keepCrashed)
  | swap {t : Clocked (Session ι κ ν ε ω)} {current : Ref (Entry ν)} {v : Option ν}
      {stored : Store.Stored κ ν ε ω}
      (swapped : t.state.store.swapIfSame k current v t.now = .ok stored)
      (entry : stored.entry = r) :
      Brings k r v t.now t (.swapIfSame k current v)

variable {t : Clocked (Session ι κ ν ε ω)} {e : SessionEvent ι κ ν ε ω}

theorem now_perform_poll {i : ι} {c : Call κ ε ω} {waker : ω} {source : Source ν ε}
    {keepCrashed : Bool} (hc : t.state.calls.get? i = some c) :
    (perform t (.poll i waker source keepCrashed)).now =
      if (t.state.store.poll c t.now waker source).ran then t.now + source.reply.elapsed
      else t.now := by
  simp only [perform, hc]
  cases keepCrashed <;> rfl

theorem now_le_perform (t : Clocked (Session ι κ ν ε ω)) (e : SessionEvent ι κ ν ε ω) :
    t.now ≤ (perform t e).now := by
  cases e with
  | poll i waker source keepCrashed =>
    cases hc : t.state.calls.get? i with
    | none => simp only [perform, hc, Nat.le_refl]
    | some c =>
      rw [now_perform_poll hc]
      split
      · exact Nat.le_add_right _ _
      · exact Nat.le_refl _
  | advance elapsed => exact Nat.le_add_right _ _
  | _ => exact Nat.le_refl _

theorem reads_perform (hs : t.state.Orderly) {r : Ref (Entry ν)} (hread : read? t e = some r) :
    (∃ k, t.state.store.live? k t.now = some r) ∧ (perform t e).now = t.now ∧
      (t.state.store.modifyEntry r (·.recordAccess t.now)).Sheds (perform t e).state.store := by
  cases e with
  | poll i waker source keepCrashed =>
    obtain ⟨c, hc, hhit⟩ := Option.bind_eq_some_iff.mp hread
    have outcome := Outcome.bind_hit?_eq_some_iff.mp hhit
    obtain ⟨hlive, hstore, hran⟩ := (hs.polled_poll c t.now waker source).hit outcome
    rw [now_perform_poll hc, hran, store_perform_poll hc outcome rfl, hstore]
    exact ⟨⟨c.key, hlive⟩, rfl, .refl _⟩
  | _ => cases hread

theorem brings_perform (hs : t.state.Orderly) (hsound : t.state.store.Sound) {k : κ}
    {r : Ref (Entry ν)} {v : Option ν} {time : Instant} (h : Brings k r v time t e) :
    time = (perform t e).now ∧ t.state.store.Stocked k r v time (perform t e).state.store := by
  cases h with
  | @load _ i c waker source _ d v present key loaded answer =>
    have hpolled := hs.polled_poll c t.now waker source
    rw [now_perform_poll present, hpolled.ran_of_loaded loaded,
      store_perform_poll present loaded rfl]
    obtain ⟨d', v', hreply, hstocked⟩ := hpolled.stocked hsound.toTidy loaded
    cases answer.symm.trans hreply
    refine ⟨?_, key ▸ hstocked⟩
    rw [answer]
    rfl
  | @swap _ current v stored swapped entry =>
    subst entry
    have hstore : (perform t (.swapIfSame k current v)).state.store = stored.store := by
      simp only [perform, mapStore, Store.swapped, swapped]
    rw [hstore]
    exact ⟨rfl, (Store.roomMade_swapIfSame hsound.toTidy swapped).stocked⟩

theorem keeps_perform (hs : t.state.Orderly) (hsound : t.state.store.Sound)
    (hread : read? t e = none) (hbrings : ∀ k r v time, ¬ Brings k r v time t e) :
    t.state.store.Sheds (perform t e).state.store := by
  cases e with
  | start i key => exact (sameTables_drop t.state i).sheds
  | drop i => exact (sameTables_drop t.state i).sheds
  | peek key => exact .refl _
  | advance elapsed => exact .refl _
  | remove key => exact Store.sheds_remove _ key
  | removeIfSame key current => exact Store.sheds_removeIfSame _ key current
  | clear => exact Store.sheds_clear _
  | swapIfSame key current value =>
    have hfailed : ∀ stored, t.state.store.swapIfSame key current value t.now ≠ .ok stored :=
      fun stored h => hbrings _ _ _ _ (.swap h rfl)
    simp only [perform, mapStore, Store.swapped]
    split
    · exact absurd ‹_› (hfailed _)
    · exact .refl _
  | poll i waker source keepCrashed =>
    cases hc : t.state.calls.get? i with
    | none =>
      rw [state_perform_poll_of_absent hc]
      exact .refl _
    | some c =>
      have hpolled := hs.polled_poll c t.now waker source
      have hunresolved :
          (t.state.store.poll c t.now waker source).outcome.bind (·.resolved?) = none := by
        rw [read?, hc, Option.bind_some] at hread
        refine Outcome.resolved?_eq_none hread fun r loaded => ?_
        obtain ⟨d, v, hreply, -⟩ := hpolled.stocked hsound.toTidy loaded
        exact hbrings c.key r v (t.now + d) (.load hc rfl loaded hreply)
      have hkept : t.state.store.Sheds (t.state.pollKept i c t.now waker source).2.store :=
        (hpolled.sameTables hunresolved).sheds
      rw [state_perform_poll hc]
      simp only
      split
      · exact hkept.trans (sameTables_drop _ i).sheds
      · exact hkept

theorem history_perform (l : Layout) (hash : κ → UInt64) (start : Instant) :
    History (perform (ι := ι) (ν := ν) (ε := ε) (ω := ω)) Session.store read? Brings
      ⟨start, ofLayout l hash⟩ where
  empty r := Arena.get?_empty r
  sound events := sound_run l hash start events
  timeToLive_eq events := (sameMeasures_run l hash start events).timeToLive_eq
  clock := now_le_perform
  reads events _ _ := reads_perform (orderly_run l hash start events)
  brings events _ _ _ _ _ := brings_perform (orderly_run l hash start events)
    (sound_run l hash start events)
  keeps events _ := keeps_perform (orderly_run l hash start events) (sound_run l hash start events)

end Session

end ReadThrough
