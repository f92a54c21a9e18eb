import ReadThrough.Proofs.Store.Lockstep

/-!
# Sharding cannot be seen

Two stores for the same time to live and the same number of entries may have different numbers of
shards and spread their keys by different hashes. Then they drop expired entries at different times,
but whatever happens to them and their callers shows the same on both.
-/

namespace ReadThrough

section Observations

/-- Whether an event goes by keys alone, and not by which entry is stored. -/
def SessionEvent.isPlain {ι κ ν ε ω : Type} : SessionEvent ι κ ν ε ω → Bool
  | .removeIfSame _ _ => false
  | .swapIfSame _ _ _ => false
  | _ => true

/-- What an event shows to the outside. -/
structure Observation (ν ε ω : Type) where
  outcome : Option (Outcome ν ε ω) := none
  entry : Option (Entry ν) := none
  woken : List ω := []
  asked : Bool := false
  ran : Bool := false

end Observations

namespace Session

variable {ι κ ν ε ω : Type} [DecidableEq ι] [DecidableEq κ]

section Seen

/-- What is seen of a poll, from its report and the session that it leaves. -/
def seen (x : PollReport κ ν ε ω × Session ι κ ν ε ω) : Observation ν ε ω where
  outcome := x.1.outcome
  entry := (x.1.outcome.bind (·.resolved?)).bind x.2.store.entryAt?
  woken := x.1.woken
  asked := x.1.asked
  ran := x.1.ran

variable [DecidableEq ω]

/-- What is seen of an event in the state that it finds. -/
def observe (t : Clocked (Session ι κ ν ε ω)) : SessionEvent ι κ ν ε ω → Observation ν ε ω
  | .start id key => { woken := (t.state.start id key).1 }
  | .poll id waker source keepCrashed =>
    match t.state.calls.get? id with
    | none => {}
    | some c =>
      seen (if keepCrashed then t.state.pollKept id c t.now waker source
        else t.state.pollCall id c t.now waker source)
  | .drop id => { woken := (t.state.drop id).1 }
  | .peek key => { entry := (t.state.store.live? key t.now).bind t.state.store.entryAt? }
  | .remove key =>
    { entry := ((t.state.store.remove key).1.filter (t.state.store.isLive t.now)).bind
        t.state.store.entryAt? }
  | _ => {}

def history (t : Clocked (Session ι κ ν ε ω)) :
    List (SessionEvent ι κ ν ε ω) → List (Observation ν ε ω)
  | [] => []
  | e :: events => observe t e :: history (perform t e) events

end Seen

/-- The same calls are under way, on stores that look alike. -/
structure Alike (now : Instant) (s s' : Session ι κ ν ε ω) : Prop where
  calls_eq : s'.calls = s.calls
  store : s.store.Alike now s'.store

/-- Two polls have shown the same and left sessions that look alike. -/
structure PolledAlike (now : Instant) (elapsed : Nat)
    (x x' : PollReport κ ν ε ω × Session ι κ ν ε ω) : Prop where
  outcome_eq : x'.1.outcome = x.1.outcome
  woken_eq : x'.1.woken = x.1.woken
  asked_eq : x'.1.asked = x.1.asked
  ran_eq : x'.1.ran = x.1.ran
  alike : x.2.Alike (if x.1.ran then now + elapsed else now) x'.2

omit [DecidableEq ι] in
theorem PolledAlike.seen_eq {now : Instant} {elapsed : Nat}
    {x x' : PollReport κ ν ε ω × Session ι κ ν ε ω} (h : PolledAlike now elapsed x x') :
    seen x' = seen x := by
  simp only [seen, h.outcome_eq, h.woken_eq, h.asked_eq, h.ran_eq, h.alike.store.entryAt?_eq]

variable {s s' : Session ι κ ν ε ω} {now : Instant}

namespace Alike

theorem drop (h : s.Alike now s') (id : ι) :
    (s'.drop id).1 = (s.drop id).1 ∧ (s.drop id).2.Alike now (s'.drop id).2 := by
  unfold Session.drop
  rw [h.calls_eq]
  split
  · rename_i c _
    obtain ⟨hwoken, hstore⟩ := h.store.abandon c
    exact ⟨hwoken, rfl, hstore⟩
  · exact ⟨rfl, h⟩

theorem start (h : s.Alike now s') (id : ι) (k : κ) :
    (s'.start id k).1 = (s.start id k).1 ∧ (s.start id k).2.Alike now (s'.start id k).2 := by
  obtain ⟨hwoken, hdropped⟩ := h.drop id
  have hcalls : (s'.start id k).2.calls = (s.start id k).2.calls :=
    congrArg (fun calls : Table ι (Call κ ε ω) => calls.put id (.start k)) hdropped.calls_eq
  exact ⟨hwoken, hcalls, hdropped.store⟩

variable [DecidableEq ω]

theorem pollKept (h : s.Alike now s') (hs : s.store.Sound) (hs' : s'.store.Sound) (id : ι)
    (c : Call κ ε ω) (waker : ω) (source : Source ν ε)
    (apart : s.store.capacity ≠ none →
      (s.pollKept id c now waker source).2.store.LandedApart) :
    PolledAlike now source.reply.elapsed (s.pollKept id c now waker source)
      (s'.pollKept id c now waker source) := by
  have hsame := h.store.passes Store.passBound hs hs' c apart
  refine ⟨hsame.outcome_eq, hsame.woken_eq, hsame.asked_eq, hsame.ran_eq, ?_, hsame.alike⟩
  exact congrArg₂ (fun (calls : Table ι (Call κ ε ω)) call => calls.put id call) h.calls_eq
    hsame.call_eq

theorem pollCall (h : s.Alike now s') (hs : s.store.Sound) (hs' : s'.store.Sound) (id : ι)
    (c : Call κ ε ω) (waker : ω) (source : Source ν ε)
    (apart : s.store.capacity ≠ none →
      (s.pollCall id c now waker source).2.store.LandedApart) :
    PolledAlike now source.reply.elapsed (s.pollCall id c now waker source)
      (s'.pollCall id c now waker source) := by
  have hsound := (s.changes_pollKept id c now waker source).sound hs
  have hkept := h.pollKept hs hs' id c waker source
  unfold Session.pollCall at apart ⊢
  generalize s.pollKept id c now waker source = x at *
  generalize s'.pollKept id c now waker source = x' at *
  by_cases hcrash : x.1.outcome.any (·.isCrash) = true
  · -- The call is dropped at once, which touches no entry.
    have hdrop := ((changes_drop x.2 id).onward hsound).landedApart
    simp only [hcrash, if_true] at apart ⊢
    have hpolled := hkept fun hbounded => hdrop (apart hbounded)
    obtain ⟨hwoken, halike⟩ := hpolled.alike.drop id
    simp only [hpolled.outcome_eq, hcrash, if_true]
    refine ⟨rfl, ?_, hpolled.asked_eq, hpolled.ran_eq, halike⟩
    rw [hpolled.woken_eq, hwoken]
  · simp only [hcrash, Bool.false_eq_true, if_false] at apart ⊢
    have hpolled := hkept apart
    simp only [hpolled.outcome_eq, hcrash, Bool.false_eq_true, if_false]
    refine ⟨rfl, ?_, hpolled.asked_eq, hpolled.ran_eq, hpolled.alike⟩
    rw [hpolled.woken_eq]

end Alike

theorem filter_remove (s : Store κ ν ε ω) (k : κ) (now : Instant) :
    (s.remove k).1.filter (s.isLive now) = s.live? k now := by
  unfold Store.remove Store.live?
  split
  · rename_i hslot
    rw [hslot]
  · rename_i hslot
    rw [hslot]

/-- The same time on both sides, and sessions that look alike. -/
structure Twins (t t' : Clocked (Session ι κ ν ε ω)) : Prop where
  now_eq : t'.now = t.now
  alike : t.state.Alike t.now t'.state
  sound : t.state.store.Sound
  sound' : t'.state.store.Sound

namespace Twins

variable {t t' : Clocked (Session ι κ ν ε ω)}

variable [DecidableEq ω] {e : SessionEvent ι κ ν ε ω}

theorem polled (h : Twins t t') {id : ι} {waker : ω} {source : Source ν ε} {keepCrashed : Bool}
    (apart : t.state.store.capacity ≠ none →
      (perform t (.poll id waker source keepCrashed)).state.store.LandedApart) :
    observe t' (.poll id waker source keepCrashed) = observe t (.poll id waker source keepCrashed) ∧
      (perform t' (.poll id waker source keepCrashed)).now =
        (perform t (.poll id waker source keepCrashed)).now ∧
      (perform t (.poll id waker source keepCrashed)).state.Alike
        (perform t (.poll id waker source keepCrashed)).now
        (perform t' (.poll id waker source keepCrashed)).state := by
  simp only [observe, perform, h.now_eq, h.alike.calls_eq] at apart ⊢
  cases hc : t.state.calls.get? id with
  | none => exact ⟨rfl, h.now_eq, h.alike⟩
  | some c =>
    simp only [hc] at apart ⊢
    have hpolled : PolledAlike t.now source.reply.elapsed
        (if keepCrashed then t.state.pollKept id c t.now waker source
          else t.state.pollCall id c t.now waker source)
        (if keepCrashed then t'.state.pollKept id c t.now waker source
          else t'.state.pollCall id c t.now waker source) := by
      cases keepCrashed with
      | true => exact h.alike.pollKept h.sound h.sound' id c waker source apart
      | false => exact h.alike.pollCall h.sound h.sound' id c waker source apart
    exact ⟨hpolled.seen_eq, by rw [hpolled.ran_eq], hpolled.alike⟩

/-- Every event shows the same on both sides. -/
theorem observe_eq (h : Twins t t') (plain : e.isPlain = true)
    (apart : t.state.store.capacity ≠ none → (perform t e).state.store.LandedApart) :
    observe t' e = observe t e := by
  have hlive := h.alike.store.live?_eq
  have hentries := h.alike.store.entryAt?_eq
  cases e with
  | start id key => simp only [observe, (h.alike.start id key).1]
  | drop id => simp only [observe, (h.alike.drop id).1]
  | peek key => simp only [observe, h.now_eq, hlive, hentries]
  | remove key => simp only [observe, filter_remove, h.now_eq, hlive, hentries]
  | clear => rfl
  | advance elapsed => rfl
  | removeIfSame key current => cases plain
  | swapIfSame key current value => cases plain
  | poll id waker source keepCrashed => exact (h.polled apart).1

theorem step (h : Twins t t') (plain : e.isPlain = true)
    (apart : t.state.store.capacity ≠ none → (perform t e).state.store.LandedApart) :
    Twins (perform t e) (perform t' e) := by
  suffices hboth : (perform t' e).now = (perform t e).now ∧
      (perform t e).state.Alike (perform t e).now (perform t' e).state from
    ⟨hboth.1, hboth.2, (changes_perform t e).sound h.sound, (changes_perform t' e).sound h.sound'⟩
  have hcalls := h.alike.calls_eq
  have hstore := h.alike.store
  cases e with
  | start id key => exact ⟨h.now_eq, (h.alike.start id key).2⟩
  | drop id => exact ⟨h.now_eq, (h.alike.drop id).2⟩
  | peek key => exact ⟨h.now_eq, h.alike⟩
  | remove key => exact ⟨h.now_eq, hcalls, hstore.remove key⟩
  | clear => exact ⟨h.now_eq, hcalls, hstore.clear⟩
  | advance elapsed =>
    exact ⟨congrArg (· + elapsed) h.now_eq, hcalls, hstore.mono (Nat.le_add_right _ _)⟩
  | removeIfSame key current => cases plain
  | swapIfSame key current value => cases plain
  | poll id waker source keepCrashed => exact (h.polled apart).2

end Twins

section Runs

variable [DecidableEq ω]

/-- Whatever happens from there on shows the same on both sides. -/
theorem Twins.history_eq {t t' : Clocked (Session ι κ ν ε ω)} (h : Twins t t')
    (events : List (SessionEvent ι κ ν ε ω)) (plain : ∀ e ∈ events, e.isPlain = true)
    (apart : t.state.store.capacity ≠ none →
      (events.foldl perform t).state.store.LandedApart) :
    history t' events = history t events := by
  induction events generalizing t t' with
  | nil => rfl
  | cons e events ih =>
    have honward := (changes_perform t e).onward h.sound
    have hrest := (changes_foldl (perform t e) events).onward
      ((changes_perform t e).sound h.sound)
    have hplain : e.isPlain = true := plain e List.mem_cons_self
    have hapart : t.state.store.capacity ≠ none → (perform t e).state.store.LandedApart :=
      fun hbounded => hrest.landedApart (apart hbounded)
    have hnext : Twins (perform t e) (perform t' e) := h.step hplain hapart
    have hhistory := ih hnext (fun d hd => plain d (List.mem_cons_of_mem e hd))
      (honward.capacity_eq.symm ▸ apart)
    rw [history, history, h.observe_eq hplain hapart, hhistory]

omit [DecidableEq ι] [DecidableEq ω] in
theorem twins_ofLayout (l : Layout) (bits room : Nat) (hash hash' : κ → UInt64)
    (start : Instant) :
    Twins (ι := ι) (ν := ν) (ε := ε) (ω := ω) ⟨start, ofLayout l hash⟩
      ⟨start, ofLayout { l with shardBits := bits, reservation := room } hash'⟩ := by
  have hlive : ∀ (l : Layout) (hash : κ → UInt64) k,
      (Store.ofLayout l hash : Store κ ν ε ω).live? k start = none := by
    intro l hash k
    rw [Store.live?, Store.slot?_ofLayout]
    rfl
  refine ⟨rfl, ⟨rfl, ?_⟩, Store.sound_ofLayout _ _, Store.sound_ofLayout _ _⟩
  refine ⟨⟨rfl, fun k => ?_⟩, rfl, rfl, rfl, fun k => ?_⟩
  · exact (Store.flight?_ofLayout _ _ k).trans (Store.flight?_ofLayout _ _ k).symm
  · exact (hlive _ _ k).trans (hlive _ _ k).symm

/-- Neither the number of shards nor the hash can be seen, whatever happens to a store and its
callers, unless the number of entries is bounded and two loads land at the same instant. -/
theorem sharding_invisible (l : Layout) (bits room : Nat) (hash hash' : κ → UInt64)
    (start : Instant) (events : List (SessionEvent ι κ ν ε ω))
    (plain : ∀ e ∈ events, e.isPlain = true)
    (apart : l.capacity ≠ none →
      (events.foldl perform ⟨start, ofLayout l hash⟩).state.store.LandedApart) :
    history ⟨start, ofLayout { l with shardBits := bits, reservation := room } hash'⟩ events =
      history ⟨start, ofLayout l hash⟩ events :=
  (twins_ofLayout l bits room hash hash' start).history_eq events plain apart

end Runs

/-- The entry of key 0 has expired when keys 1 and 2 are loaded. -/
def residueRun : List (SessionEvent Nat Nat Int Nat Nat) :=
  [.start 0 0, .poll 0 0 ⟨none, .answered 0 (some 10)⟩ false, .advance 2000000000,
    .start 0 1, .poll 0 0 ⟨none, .answered 0 (some 11)⟩ false, .advance 1, .peek 0,
    .start 0 2, .poll 0 0 ⟨none, .answered 0 (some 12)⟩ false, .remove 1]

/-- Room for two entries in one shard. -/
def residueLayout : Layout := ⟨.ofSeconds 1, 0, 0, some 2⟩

/-- An empty store with this many bits for the shards, and no calls. -/
def residueStart (bits : Nat) : Clocked (Session Nat Nat Int Nat Nat) :=
  ⟨0, ofLayout { residueLayout with shardBits := bits, reservation := 0 } UInt64.ofNat⟩

/-- With one shard the expired entry is gone once key 1 is stored, with two shards it stays until
key 2 needs its room. Nobody sees the difference. -/
theorem residue_invisible :
    (((residueRun.take 5).foldl perform (residueStart 0)).state.store.size = 1 ∧
      ((residueRun.take 5).foldl perform (residueStart 1)).state.store.size = 2) ∧
    (∀ e ∈ residueRun, e.isPlain = true) ∧
    (residueRun.foldl perform (residueStart 0)).state.store.LandedApart ∧
    history (residueStart 1) residueRun = history (residueStart 0) residueRun := by
  have hplain : ∀ e ∈ residueRun, e.isPlain = true := by decide
  have hapart : (residueRun.foldl perform (residueStart 0)).state.store.LandedApart :=
    Store.landedApart_of_nodup (by decide +kernel)
  have hhistory : history (residueStart 1) residueRun = history (residueStart 0) residueRun :=
    sharding_invisible residueLayout 1 0 UInt64.ofNat UInt64.ofNat 0 residueRun hplain
      fun _ => hapart
  exact ⟨by decide +kernel, hplain, hapart, hhistory⟩

end Session

end ReadThrough
