import ReadThrough.Proofs.Store.Tidy
import ReadThrough.Proofs.Store.Waiting

/-!
# The outcome of a load is shared

Whoever waits for a flight shares in how it ends, no matter how late the next poll comes and what
has happened in between. A failure is returned by those that have waited, and by nobody else. After
a success, and after the call that leads the flight has been given up, a call that has waited is as
good as new. The first one that finds no live entry then leads a flight of its own.
-/

namespace ReadThrough.Session

variable {ι κ ν ε ω : Type} [DecidableEq ι] [DecidableEq κ] [DecidableEq ω]

section Events

variable {t : Clocked (Session ι κ ν ε ω)} {i j : ι} {k : κ} {f : Ref (Flight ε ω)}
  {c : Call κ ε ω} {e : SessionEvent ι κ ν ε ω}

/-- The event polls the call `i`, and the poll ends in `o`. -/
inductive Answers (i : ι) (o : Outcome ν ε ω) (t : Clocked (Session ι κ ν ε ω)) :
    SessionEvent ι κ ν ε ω → Prop where
  | poll {c : Call κ ε ω} {waker : ω} {source : Source ν ε} {keepCrashed : Bool}
      (present : t.state.calls.get? i = some c)
      (outcome : (t.state.store.poll c t.now waker source).outcome = some o) :
      Answers i o t (.poll i waker source keepCrashed)

/-- The event gives the call `i` up, at the latest when it crashes. -/
inductive GivesUp (i : ι) (t : Clocked (Session ι κ ν ε ω)) : SessionEvent ι κ ν ε ω → Prop where
  | drop : GivesUp i t (.drop i)
  | start (key : κ) : GivesUp i t (.start i key)
  | crash {c : Call κ ε ω} {waker : ω} {source : Source ν ε}
      (present : t.state.calls.get? i = some c)
      (crashed : (t.state.store.poll c t.now waker source).outcome.any (·.isCrash) = true) :
      GivesUp i t (.poll i waker source false)

theorem Answers.call?_eq {o : Outcome ν ε ω} (h : Answers i o t e) : e.call? = some i := by
  cases h
  rfl

theorem GivesUp.call?_eq (h : GivesUp i t e) : e.call? = some i := by
  cases h <;> rfl

theorem Answers.unique {o o' : Outcome ν ε ω} (h : Answers i o t e) (h' : Answers j o' t e) :
    i = j ∧ o = o' := by
  cases h with
  | poll present outcome =>
    cases h' with
    | poll present' outcome' =>
      cases present.symm.trans present'
      exact ⟨rfl, Option.some.inj (outcome.symm.trans outcome')⟩

theorem Answers.failed {x : ε} (hs : t.state.Orderly) (h : Answers i (.loadFailed f x) t e) :
    ¬ t.state.store.IsDown f ∧ (perform t e).state.store.standing? f = some (some (.failed x)) := by
  cases h with
  | poll present outcome =>
    rw [store_perform_poll present outcome rfl]
    exact Store.Orderly.loadFailed_polled hs present (hs.polled_poll _ _ _ _) outcome

theorem Answers.shared {x : ε} (hs : t.state.Orderly) (h : Answers i (.sharedFailure f x) t e) :
    t.state.store.standing? f = some (some (.failed x)) ∧
      ∃ c, t.state.calls.get? i = some c ∧ c.phase.awaited? = some f := by
  cases h with
  | @poll c waker source _ present outcome =>
    have hpolled := hs.polled_poll c t.now waker source
    obtain ⟨hawaited, hstanding⟩ := hpolled.sharedFailure hs.allAloft outcome
    exact ⟨hstanding, c, present, hawaited⟩

theorem Answers.loaded {r : Ref (Entry ν)} (hs : t.state.Orderly) (led : t.state.Leads i k f)
    (h : Answers i (.loaded r) t e) :
    (perform t e).state.store.standing? f = some (some .loaded) := by
  have haloft : t.state.store.IsAloft f := Store.Orderly.aloft hs (hs.registered led)
  cases h with
  | poll present outcome =>
    rw [store_perform_poll present outcome rfl]
    cases present.symm.trans led
    exact haloft.loaded_polled (hs.polled_poll _ _ _ _) outcome

theorem Leads.fails (hs : t.state.Orderly) (led : t.state.Leads i k f) {source : Source ν ε} {d : Nat}
    {x : ε} (reply : source.reply = .failed d x) (waker : ω) (keepCrashed : Bool) :
    let e : SessionEvent ι κ ν ε ω := .poll i waker source keepCrashed
    Answers i (.loadFailed f x) t e ∧
      (perform t e).state.store.standing? f = some (some (.failed x)) := by
  have hpoll := t.state.store.poll_of_loading k f t.now waker source
  have hanswers : Answers i (.loadFailed f x) t (.poll i waker source keepCrashed) := by
    refine .poll led ?_
    rw [hpoll, reply]
    rfl
  exact ⟨hanswers, (hanswers.failed hs).2⟩

/-- A load that has an answer keeps the entry that is made of it, and lands its flight. -/
theorem Leads.loads (hs : t.state.Orderly) (led : t.state.Leads i k f) {source : Source ν ε} {d : Nat}
    {v : Option ν} {x : Entry ν} (reply : source.reply = .answered d v)
    (fresh : Entry.fresh? v (t.now + d) t.state.store.timeToLive = some x) (waker : ω)
    (keepCrashed : Bool) :
    let e : SessionEvent ι κ ν ε ω := .poll i waker source keepCrashed
    ∃ r, Answers i (.loaded r) t e ∧ (perform t e).state.store.entryAt? r = some x ∧
      (perform t e).state.store.standing? f = some (some .loaded) := by
  have hload := t.state.store.poll_of_loading k f t.now waker source
  simp only [Store.runLoad, reply, Store.landValue_of_fresh k f fresh] at hload
  have houtcome := congrArg Progress.outcome hload
  have hanswers : Answers i (.loaded t.state.store.entries.next) t
      (.poll i waker source keepCrashed) := .poll led houtcome
  refine ⟨_, hanswers, ?_, hanswers.loaded hs led⟩
  have hentries := (Store.placed_placeAndLand t.state.store k f x).entries_eq
  rw [store_perform_poll led houtcome rfl, hload, Store.entryAt?,
    (Store.sameCells_recordDeadline ..).entries_eq, hentries]
  exact Arena.get?_add_next _ _

omit [DecidableEq ω] in
theorem Leads.drop {s : Session ι κ ν ε ω} (hs : s.Orderly) (led : s.Leads i k f) :
    (s.drop i).2.store.standing? f = some (some .abandoned) ∧
      (s.drop i).2.store.flight? k = none := by
  have hreg := hs.registered led
  have haloft : s.store.IsAloft f := Store.Orderly.aloft hs hreg
  have hdrop : (s.drop i).2.store = (s.store.concludeFlight k f .abandoned).2 := by
    rw [drop_of_present led]
    rfl
  rw [hdrop, haloft.standing?_concludeFlight, if_pos rfl]
  refine ⟨rfl, ?_⟩
  rw [Store.flight?_concludeFlight, if_pos rfl, hreg]
  simp [Option.filter]

theorem GivesUp.abandoned (hs : t.state.Orderly) (led : t.state.Leads i k f) (h : GivesUp i t e) :
    (perform t e).state.store.standing? f = some (some .abandoned) ∧
      (perform t e).state.store.flight? k = none := by
  cases h with
  | drop => exact led.drop hs
  | start key => exact led.drop hs
  | @crash c waker source present crashed =>
    cases present.symm.trans led
    obtain ⟨-, hcall⟩ := (hs.polled_poll _ t.now waker source).crashed_loading crashed
    rw [state_perform_poll present]
    simp only [crashed, and_self, if_true]
    refine Leads.drop ((settles_pollKept (.present present)).orderly hs) ?_
    rw [Leads, get?_pollKept, Function.update_self, hcall]

end Events

section Runs

variable {t : Clocked (Session ι κ ν ε ω)} {i j : ι} {k : κ} {f : Ref (Flight ε ω)}
  {c : Call κ ε ω} {e : SessionEvent ι κ ν ε ω} {after : List (SessionEvent ι κ ν ε ω)}

/-- The call `j` waits for `f`, and has not been touched by the events since. -/
structure StillWaits (t : Clocked (Session ι κ ν ε ω)) (since : List (SessionEvent ι κ ν ε ω))
    (j : ι) (f : Ref (Flight ε ω)) (c : Call κ ε ω) : Prop where
  present : t.state.calls.get? j = some c
  awaited : c.phase.awaited? = some f
  untouched : ∀ e ∈ since, e.call? ≠ some j

/-- A poll of `c` looks `k` up as that of a new call does: it answers with the entry that is live
now, waits for the flight that is registered now, or leads one of its own. -/
structure LikeNew (t : Clocked (Session ι κ ν ε ω)) (k : κ) (c : Call κ ε ω) : Prop where
  polled : ∀ waker source, t.state.store.poll c t.now waker source =
    t.state.store.poll (.start k) t.now waker source
  hits : ∀ waker source r, t.state.store.live? k t.now = some r →
    t.state.store.poll c t.now waker source =
      { store := t.state.store.modifyEntry r (·.recordAccess t.now), call := .start k,
        outcome := some (.hit r) }
  joins : ∀ waker source g, t.state.store.live? k t.now = none →
    t.state.store.flight? k = some g → t.state.store.poll c t.now waker source =
      { store := t.state.store.joinFlight g waker, call := ⟨k, .waiting true g⟩,
        outcome := some .pending }
  leads : ∀ waker source, t.state.store.live? k t.now = none → t.state.store.flight? k = none →
    source.refusal = none → t.state.store.poll c t.now waker source =
      { (t.state.store.register k).2.runLoad k (t.state.store.register k).1 t.now source.reply with
        asked := true }

theorem likeNew_of_polled (hs : t.state.Orderly)
    (h : ∀ waker source, t.state.store.poll c t.now waker source =
      t.state.store.poll (.start k) t.now waker source) : LikeNew t k c where
  polled := h
  hits waker source _ live := (h waker source).trans (Store.poll_start_of_live live)
  joins waker source _ missing registered :=
    (h waker source).trans (Store.poll_start_of_registered hs.allAloft missing registered)
  leads waker source missing vacant accepted :=
    (h waker source).trans (Store.poll_start_of_vacant missing vacant accepted)

omit [DecidableEq ω] in
theorem StillWaits.call_eq (h : StillWaits t after j f c) (hs : t.state.Orderly)
    (led : t.state.Leads i k f) : c = ⟨k, .waiting true f⟩ := by
  have hreg := hs.registered led
  obtain ⟨key, phase⟩ := c
  cases phase with
  | waiting armed g =>
    cases h.awaited
    have hkey : key = k := by
      rcases Store.Orderly.awaited hs h.present rfl with hawaited | hdown
      · exact Store.Orderly.once hs hawaited hreg
      · exact absurd hdown (Store.Orderly.aloft hs hreg).not_isDown
    subst hkey
    cases armed with
    | true => rfl
    | false =>
      -- Who has asked in vain waits for a flight that nobody leads.
      obtain ⟨g, hg, hnone⟩ := Store.Orderly.spent hs h.present rfl
      cases hreg.symm.trans hg
      exact absurd led.ledBy_eq (hnone i)
  | _ => cases h.awaited

theorem StillWaits.get?_eq (h : StillWaits t after j f c) (led : t.state.Leads i k f)
    (event : e.call? = some i) :
    ((e :: after).foldl perform t).state.calls.get? j = some c := by
  have hne : e.call? ≠ some j := by
    rintro he
    cases event.symm.trans he
    have hc := h.present.symm.trans led
    cases hc
    cases h.awaited
  rw [← h.present]
  exact get?_foldl_of_untouched (List.forall_mem_cons.mpr ⟨hne, h.untouched⟩)

/-- Once a flight has landed and has not failed, those that have waited for it are as good as
new. -/
theorem StillWaits.likeNew (h : StillWaits t after j f c) (hs : t.state.Orderly)
    (led : t.state.Leads i k f) (event : e.call? = some i) {l : Landing ε}
    (landed : (perform t e).state.store.standing? f = some (some l))
    (notFailed : ∀ x, l ≠ .failed x) :
    ((e :: after).foldl perform t).state.calls.get? j = some c ∧
      LikeNew ((e :: after).foldl perform t) k c := by
  have hs' := orderly_foldl hs (e :: after)
  have hlanding := Store.standing?_eq_landed_iff.mp (standing?_foldl hs landed after)
  refine ⟨h.get?_eq led event, likeNew_of_polled hs' fun waker source => ?_⟩
  rw [h.call_eq hs led]
  exact Store.poll_eq_start_of_landed hs'.allAloft hlanding notFailed

theorem Answers.failed_once {x y : ε} {start : Clocked (Session ι κ ν ε ω)}
    (hs : ∀ events : List (SessionEvent ι κ ν ε ω), (events.foldl perform start).state.Orderly)
    {before after before' after' : List (SessionEvent ι κ ν ε ω)} {e' : SessionEvent ι κ ν ε ω}
    (hevents : before ++ e :: after = before' ++ e' :: after')
    (h : Answers i (.loadFailed f x) (before.foldl perform start) e)
    (h' : Answers j (.loadFailed f y) (before'.foldl perform start) e') :
    before' = before ∧ e' = e ∧ j = i ∧ y = x := by
  obtain ⟨hup, hlanded⟩ := h.failed (hs before)
  obtain ⟨hup', hlanded'⟩ := h'.failed (hs before')
  rcases append_cons_cases hevents with ⟨between, rfl⟩ | ⟨rfl, rfl⟩ | ⟨between, rfl⟩
  · rw [List.foldl_append] at hup
    exact absurd ⟨_, standing?_foldl (hs before') hlanded' between⟩ hup
  · obtain ⟨hi, ho⟩ := h'.unique h
    cases ho
    exact ⟨rfl, rfl, hi, rfl⟩
  · rw [List.foldl_append] at hup'
    exact absurd ⟨_, standing?_foldl (hs before) hlanded between⟩ hup'

/-- Whoever shares a failure has waited for the flight since before it landed. -/
theorem Answers.shared_after {x y : ε} {start : Clocked (Session ι κ ν ε ω)}
    (hs : ∀ events : List (SessionEvent ι κ ν ε ω), (events.foldl perform start).state.Orderly)
    {before after before' after' : List (SessionEvent ι κ ν ε ω)} {e' : SessionEvent ι κ ν ε ω}
    (hevents : before ++ e :: after = before' ++ e' :: after')
    (h : Answers i (.loadFailed f x) (before.foldl perform start) e)
    (h' : Answers j (.sharedFailure f y) (before'.foldl perform start) e') :
    y = x ∧ ∃ between c, before' = before ++ e :: between ∧
      StillWaits (before.foldl perform start) between j f c := by
  obtain ⟨hup, hlanded⟩ := h.failed (hs before)
  obtain ⟨hstanding, c, hc, hawaited⟩ := h'.shared (hs before')
  rcases append_cons_cases hevents with ⟨between, rfl⟩ | ⟨rfl, rfl⟩ | ⟨between, rfl⟩
  · rw [List.foldl_append] at hup
    exact absurd ⟨_, keepsLandings_foldl (hs before') (e' :: between) f _ hstanding⟩ hup
  · exact absurd ⟨_, hstanding⟩ hup
  · rw [List.foldl_append] at hc hstanding
    cases hstanding.symm.trans (standing?_foldl (hs before) hlanded between)
    obtain ⟨hc, huntouched⟩ :=
      awaited_since ((settles_perform _ e).orderly (hs before)) ⟨_, hlanded⟩ hc hawaited
    obtain ⟨-, hc⟩ := awaited_before (hs before) hc hawaited ⟨_, hlanded⟩
    exact ⟨rfl, between, c, rfl, hc, hawaited, huntouched⟩

/-- As long as no flight is registered for its key, a call that looks it up may still ask its
source. -/
theorem poll_eq_start_of_vacant (hs : t.state.Orderly) (hc : t.state.calls.get? j = some c)
    (looksUp : t.state.store.LooksUp c) (vacant : t.state.store.flight? c.key = none)
    (waker : ω) (source : Source ν ε) :
    t.state.store.poll c t.now waker source =
      t.state.store.poll (.start c.key) t.now waker source := by
  have harmed : c.phase.isSpent = false := by
    rw [← Bool.not_eq_true]
    intro spent
    obtain ⟨f, hf, -⟩ := Store.Orderly.spent hs hc spent
    cases vacant.symm.trans hf
  cases looksUp with
  | @lookup k armed =>
    obtain rfl : armed = true := by simpa [Phase.isSpent] using harmed
    rfl
  | @retry k armed f l landing notFailed =>
    obtain rfl : armed = true := by simpa [Phase.isSpent] using harmed
    exact Store.poll_eq_start_of_landed hs.allAloft landing notFailed

end Runs

/-- In this run, all who wait for a flight share in how it ends. They return its failure, each once
and nobody else, or find its entry if that is still there, or look the key up like new calls. Once
its leader has given up, the first of them that finds nothing runs a load of its own. -/
structure OutcomesShared (start : Clocked (Session ι κ ν ε ω))
    (events : List (SessionEvent ι κ ν ε ω)) : Prop where
  -- The source's reply to the call that leads a flight decides how the flight lands.
  fails : ∀ before after i waker source keepCrashed k f d x,
    let e := .poll i waker source keepCrashed
    events = before ++ e :: after → (before.foldl perform start).state.Leads i k f →
      source.reply = .failed d x →
        Answers i (.loadFailed f x) (before.foldl perform start) e ∧
          (perform (before.foldl perform start) e).state.store.standing? f =
            some (some (.failed x))
  loads : ∀ before after i waker source keepCrashed k f d v x,
    let e := .poll i waker source keepCrashed
    let t := before.foldl perform start
    events = before ++ e :: after → t.state.Leads i k f → source.reply = .answered d v →
      Entry.fresh? v (t.now + d) t.state.store.timeToLive = some x →
        ∃ r, Answers i (.loaded r) t e ∧ (perform t e).state.store.entryAt? r = some x ∧
          (perform t e).state.store.standing? f = some (some .loaded)
  failure : ∀ before e after i k f x, events = before ++ e :: after →
    (before.foldl perform start).state.Leads i k f →
      Answers i (.loadFailed f x) (before.foldl perform start) e →
        ∀ j c, StillWaits (before.foldl perform start) after j f c →
          (events.foldl perform start).state.calls.get? j = some c ∧ c.key = k ∧
            ∀ waker source, let s := (events.foldl perform start).state.store
              s.poll c (events.foldl perform start).now waker source =
                { store := s, call := ⟨k, .finished⟩, outcome := some (.sharedFailure f x) }
  nobody_else : ∀ before e after i f x, events = before ++ e :: after →
    Answers i (.loadFailed f x) (before.foldl perform start) e →
      ∀ before' e' after' j y, events = before' ++ e' :: after' →
        (Answers j (.loadFailed f y) (before'.foldl perform start) e' →
          before' = before ∧ e' = e ∧ j = i ∧ y = x) ∧
        (Answers j (.sharedFailure f y) (before'.foldl perform start) e' →
          y = x ∧ ∃ between c, before' = before ++ e :: between ∧
            StillWaits (before.foldl perform start) between j f c)
  success : ∀ before e after i k f r, events = before ++ e :: after →
    (before.foldl perform start).state.Leads i k f →
      Answers i (.loaded r) (before.foldl perform start) e →
        ∀ j c, StillWaits (before.foldl perform start) after j f c →
          let t := events.foldl perform start
          t.state.calls.get? j = some c ∧ LikeNew t k c ∧
            (t.state.store.slot? k = some r → t.state.store.isLive t.now r = true →
              ∀ waker source,
                (t.state.store.poll c t.now waker source).outcome = some (.hit r))
  giving_up : ∀ before e after i k f, events = before ++ e :: after →
    (before.foldl perform start).state.Leads i k f → GivesUp i (before.foldl perform start) e →
      ∀ j c, StillWaits (before.foldl perform start) after j f c →
        let t := events.foldl perform start
        t.state.calls.get? j = some c ∧ LikeNew t k c ∧
          ∀ m g, t.state.Leads m k g → t.state.store.live? k t.now = none →
            ∀ waker source, t.state.store.poll c t.now waker source =
              { store := t.state.store.joinFlight g waker, call := ⟨k, .waiting true g⟩,
                outcome := some .pending }
  takeover : ∀ before e after i k f, events = before ++ e :: after →
    (before.foldl perform start).state.Leads i k f → GivesUp i (before.foldl perform start) e →
      ¬ Occurs perform (perform (before.foldl perform start) e) after (FindsNothing k) →
        ∀ j c, let t := events.foldl perform start
          t.state.calls.get? j = some c → c.key = k → t.state.store.LooksUp c →
            t.state.store.live? k t.now = none → ∀ waker source, source.refusal = none →
              t.state.store.poll c t.now waker source =
                { (t.state.store.register k).2.runLoad k (t.state.store.register k).1 t.now
                    source.reply with asked := true }

variable (l : Layout) (hash : κ → UInt64) (start : Instant) (events : List (SessionEvent ι κ ν ε ω))

/-- Whatever happens to a store and its callers, those who wait for a load share its outcome. -/
theorem outcomes_shared : OutcomesShared ⟨start, ofLayout l hash⟩ events := by
  have horderly := orderly_run (ι := ι) (ν := ν) (ε := ε) (ω := ω) l hash start
  constructor
  case fails =>
    intro before after i waker source keepCrashed k f d x e hevents led reply
    exact led.fails (horderly before) reply waker keepCrashed
  case loads =>
    intro before after i waker source keepCrashed k f d v x e t hevents led reply fresh
    exact led.loads (horderly before) reply fresh waker keepCrashed
  case failure =>
    rintro before e after i k f x rfl led hfailed j c hc
    have hs := horderly before
    have hs' := orderly_foldl hs (e :: after)
    rw [List.foldl_append]
    refine ⟨hc.get?_eq led hfailed.call?_eq, by rw [hc.call_eq hs led], fun waker source => ?_⟩
    have hlanding :=
      Store.standing?_eq_landed_iff.mp (standing?_foldl hs (hfailed.failed hs).2 after)
    rw [hc.call_eq hs led]
    exact Store.poll_eq_of_failed _ waker source hlanding
  case nobody_else =>
    rintro before e after i f x rfl hfailed before' e' after' j y hevents
    exact ⟨hfailed.failed_once horderly hevents, hfailed.shared_after horderly hevents⟩
  case success =>
    rintro before e after i k f r rfl led hloaded j c hc
    have hs := horderly before
    simp only [List.foldl_append]
    obtain ⟨hget, hnew⟩ := hc.likeNew hs led hloaded.call?_eq (hloaded.loaded hs led) (by simp)
    refine ⟨hget, hnew, fun stored live waker source => ?_⟩
    rw [hnew.hits waker source r (Option.filter_eq_some_iff.mpr ⟨stored, live⟩)]
  case giving_up =>
    rintro before e after i k f rfl led hgiven j c hc
    have hs := horderly before
    simp only [List.foldl_append]
    obtain ⟨hget, hnew⟩ := hc.likeNew hs led hgiven.call?_eq (hgiven.abandoned hs led).1 (by simp)
    refine ⟨hget, hnew, fun m g leads missing waker source => ?_⟩
    exact hnew.joins waker source g missing ((orderly_foldl hs (e :: after)).registered leads)
  case takeover =>
    rintro before e after i k f rfl led hgiven hfirst j c t hc rfl looksUp missing waker source
      accepted
    have hs := horderly before
    have ht : t = (e :: after).foldl perform (before.foldl perform ⟨start, ofLayout l hash⟩) :=
      List.foldl_append
    rw [ht] at hc looksUp missing ⊢
    have hvacant := flight?_foldl_eq_none ((settles_perform _ e).orderly hs)
      (hgiven.abandoned hs led).2 hfirst
    rw [poll_eq_start_of_vacant (orderly_foldl hs (e :: after)) hc looksUp hvacant]
    exact Store.poll_start_of_vacant missing hvacant accepted

end ReadThrough.Session
