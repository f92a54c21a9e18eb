import ReadThrough.Proofs.Cache.Queries

/-!
# Only genuine entries are served

Whatever a call of a session or a get of a cache resolves to is live at that instant, and holds what
a load of the same key has been answered with, or a renewal of it, when the entry was created. The
same is true of whatever is found live by looking. No entry is stored for two keys, and none changes
its value or its span of life.
-/

namespace ReadThrough

theorem StoreRequest.lasting_of_layout [Machine] {request : StoreRequest} {built : Instant} {keyBytes : Nat}
    {l : Layout} (h : request.layout built keyBytes = .ok l) : 0 < l.timeToLive.toNanos := by
  have hzero : ¬ request.timeToLive.isZero = true := by
    intro hzero
    rw [layout, if_pos hzero] at h
    cases h
  have hsame : l.timeToLive = request.timeToLive := by
    simp only [layout] at h
    split_ifs at h
    all_goals
      cases h
      rfl
  rw [Span.isZero_iff] at hzero
  rw [hsame]
  exact Nat.pos_of_ne_zero hzero

variable {ι κ ν ε ω : Type} [DecidableEq ι] [DecidableEq κ] [DecidableEq ω]

namespace Session

/-- The event polls a call for `k`, which resolves to the entry `r`. -/
inductive Resolves (k : κ) (r : Ref (Entry ν)) (t : Clocked (Session ι κ ν ε ω)) :
    SessionEvent ι κ ν ε ω → Prop where
  | poll {i : ι} {c : Call κ ε ω} {waker : ω} {source : Source ν ε} {keepCrashed : Bool}
      (present : t.state.calls.get? i = some c) (key : c.key = k)
      (resolved : (t.state.store.poll c t.now waker source).outcome.bind (·.resolved?) = some r) :
      Resolves k r t (.poll i waker source keepCrashed)

variable {t : Clocked (Session ι κ ν ε ω)} {e : SessionEvent ι κ ν ε ω} {k : κ}
  {r : Ref (Entry ν)}

theorem Resolves.read_or_brings (hs : t.state.Orderly) (hsound : t.state.store.Sound)
    (h : Resolves k r t e) :
    read? t e = some r ∧ t.state.store.live? k t.now = some r ∨
      ∃ v time, Brings k r v time t e := by
  cases h with
  | @poll i c waker source _ present key resolved =>
    have hpolled := hs.polled_poll c t.now waker source
    rcases Outcome.hit_or_loaded resolved with hit | loaded
    · refine .inl ⟨?_, key ▸ (hpolled.hit hit).1⟩
      rw [read?, present, Option.bind_some, hit]
      rfl
    · obtain ⟨d, v, answer, -⟩ := hpolled.stocked hsound.toTidy loaded
      exact .inr ⟨v, t.now + d, .load present key loaded answer⟩

end Session

namespace Cache

/-- The event begins or polls a get of `k`, which resolves to the entry `r`. -/
inductive Resolves (k : κ) (r : Ref (Entry ν)) (t : Clocked (Cache ι κ ν ε ω)) :
    CacheEvent ι κ ν ε ω → Prop where
  | get {id : ι} {waker : ω} {reply : Reply ν ε}
      (resolved : (t.state.get id k t.now waker reply).outcome.bind (·.resolved?) = some r) :
      Resolves k r t (.get id k waker reply)
  | poll {id : ι} {call : Call κ ε ω} {waker : ω} {reply : Reply ν ε} {served : Served ι κ ν ε ω}
      (present : t.state.session.calls.get? id = some call) (key : call.key = k)
      (polled : t.state.poll id t.now waker reply = some served)
      (resolved : served.outcome.bind (·.resolved?) = some r) :
      Resolves k r t (.poll id waker reply)

variable {t : Clocked (Cache ι κ ν ε ω)} {e : CacheEvent ι κ ν ε ω} {k : κ} {r : Ref (Entry ν)}

/-- What a poll resolves to has been read, or has just been brought. -/
theorem Polls.read_or_brings {c : Cache ι κ ν ε ω} {id : ι} {call : Call κ ε ω} {waker : ω}
    {reply : Reply ν ε} (h : Polls t e c id call waker reply) (hs : t.state.session.Orderly)
    (hsound : t.state.store.Sound)
    (resolved : (c.pollCall id call t.now waker reply).outcome.bind (·.resolved?) = some r) :
    read? t e = some r ∧ t.state.store.live? call.key t.now = some r ∨
      ∃ v time, BringsAny call.key r v time t e := by
  rcases Outcome.hit_or_loaded resolved with hit | loaded
  · have hlive := (reads_pollCall (h.orderly hs) hit).1
    rw [h.sameTables.live?_eq] at hlive
    exact .inl ⟨h.read?_eq.trans (Outcome.bind_hit?_eq_some_iff.mpr hit), hlive⟩
  · exact .inr (h.exists_brings hs hsound loaded)

theorem Resolves.read_or_brings (hs : t.state.session.Orderly) (hsound : t.state.store.Sound)
    (h : Resolves k r t e) :
    read? t e = some r ∧ t.state.store.live? k t.now = some r ∨
      ∃ v time, BringsAny k r v time t e := by
  cases h with
  | get resolved => exact (Polls.get _ k _ _).read_or_brings hs hsound resolved
  | poll present key polled resolved =>
    rw [poll_of_present present] at polled
    cases polled
    exact key ▸ (Polls.poll present _ _).read_or_brings hs hsound resolved

end Cache

/-- Sessions and caches over a store that can be laid out serve nothing but genuine entries. -/
theorem genuine_served [Machine] {request : StoreRequest} {built : Instant} {keyBytes : Nat}
    {l : Layout} (laidOut : request.layout built keyBytes = .ok l) :
    (∀ (hash : κ → UInt64) (start : Instant) (events : List (SessionEvent ι κ ν ε ω)),
      ServesGenuine Session.perform Session.store Session.read? Session.Brings Session.Resolves
        l.timeToLive ⟨start, Session.ofLayout l hash⟩ events) ∧
    ∀ (o : Cache.Origin κ) (events : List (CacheEvent ι κ ν ε ω)),
      ServesGenuine Cache.step Cache.store Cache.read? Cache.BringsAny Cache.Resolves
        l.timeToLive { o with layout := l }.start events := by
  have lasting := StoreRequest.lasting_of_layout laidOut
  constructor
  · intro hash start events
    exact (Session.history_perform l hash start).servesGenuine lasting events fun k r e =>
      Session.Resolves.read_or_brings (Session.orderly_run l hash start events)
        (Session.sound_run l hash start events)
  · intro o events
    exact (Cache.history_step { o with layout := l }).servesGenuine lasting events fun k r e =>
      Cache.Resolves.read_or_brings (Cache.settled_run _ events).1 (Cache.sound_run _ events)

/-- Four threads, and memory for a thousand shards or entries. -/
@[reducible] def smallMachine : Machine where
  parallelism := 4
  holdsShards count := decide (count ≤ 1000)
  holdsTable _ n := decide (n ≤ 1000)

/-- A store for entries that live for ten seconds is laid out like this, and serves genuine
entries. -/
theorem genuine_served_ten_seconds :
    @StoreRequest.layout smallMachine ⟨.ofSeconds 10, some 4, none, some 2⟩ 0 8 =
      .ok ⟨.ofSeconds 10, 2, 0, some 2⟩ ∧
    (∀ (hash : Nat → UInt64) (start : Instant) (events : List (SessionEvent Nat Nat Int Nat Nat)),
      ServesGenuine Session.perform Session.store Session.read? Session.Brings Session.Resolves
        (.ofSeconds 10) ⟨start, Session.ofLayout ⟨.ofSeconds 10, 2, 0, some 2⟩ hash⟩ events) ∧
    ∀ (o : Cache.Origin Nat) (events : List (CacheEvent Nat Nat Int Nat Nat)),
      ServesGenuine Cache.step Cache.store Cache.read? Cache.BringsAny Cache.Resolves
        (.ofSeconds 10) { o with layout := ⟨.ofSeconds 10, 2, 0, some 2⟩ }.start events := by
  have laidOut : @StoreRequest.layout smallMachine ⟨.ofSeconds 10, some 4, none, some 2⟩ 0 8 =
      .ok ⟨.ofSeconds 10, 2, 0, some 2⟩ := by decide +kernel
  let _ := smallMachine
  exact ⟨laidOut, genuine_served laidOut⟩

end ReadThrough
