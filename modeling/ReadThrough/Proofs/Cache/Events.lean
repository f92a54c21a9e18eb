import ReadThrough.Proofs.Cache.Operations
import ReadThrough.Proofs.Runs

/-!
# Everything that can happen to a cache

A run of a cache performs events of every kind, in any order and with any arguments. Its renewals
are run by an executor that may begin, stop and drop them at any time. The clock moves when a load
takes time, and in between.
-/

namespace ReadThrough

/-- One event in the life of a cache. A get is begun in place of a former one of the same name, and
polled once. -/
inductive CacheEvent (ι κ ν ε ω : Type) where
  | get (id : ι) (key : κ) (waker : ω) (reply : Reply ν ε)
  | poll (id : ι) (waker : ω) (reply : Reply ν ε)
  | drop (id : ι)
  | change (key : κ)
  | discard (key : κ)
  | clear
  | runRenewal (number : Nat) (reply : Reply ν ε)
  | dropRenewal (number : Nat)
  | setExecutor (executor : Executor)
  | advance (elapsed : Nat)

namespace CacheEvent

variable {ι κ ν ε ω : Type}

def waker? [DecidableEq ι] (id : ι) : CacheEvent ι κ ν ε ω → Option ω
  | .get i _ waker _ => if i = id then some waker else none
  | .poll i waker _ => if i = id then some waker else none
  | _ => none

end CacheEvent

namespace Cache

section Start

/-- What a cache starts from: how it is set up, and the count that its tokens go on from. -/
structure Origin (κ : Type) where
  name : String
  scope : String
  policy : Policy
  executor : Executor
  tokens : TokenCounter
  layout : Layout
  hash : κ → UInt64
  now : Instant

variable {ι κ ν ε ω : Type}

/-- A cache over an empty store, with nothing under way. -/
def Origin.start (o : Origin κ) : Clocked (Cache ι κ ν ε ω) where
  now := o.now
  state :=
    { ofStore o.name o.scope o.policy o.executor (.ofLayout o.layout o.hash) with
      tokens := o.tokens }

/-- A cache that is set up starts in this way. -/
theorem exists_origin_of_setUp [Machine] {catalogue : Catalogue} {name scope : String} {policy : Policy}
    {executor : Executor} {hash : κ → UInt64} {keyBytes : Nat} {now : Instant}
    {c : Cache ι κ ν ε ω}
    (h : setUp catalogue name scope policy executor hash keyBytes now = .ok c) :
    ∃ o : Origin κ, o.start = ⟨now, c⟩ := by
  unfold setUp at h
  split at h
  · cases h
  · split at h
    · cases h
    · split at h
      · cases h
      · rename_i l _
        cases h
        exact ⟨⟨name, scope, policy, executor, .start, l, hash, now⟩, rfl⟩

end Start

variable {ι κ ν ε ω : Type} [DecidableEq ι] [DecidableEq κ] [DecidableEq ω]

/-- The time after a load that has been run, or has not. -/
def timeAfter (now : Instant) (ran : Bool) (reply : Reply ν ε) : Instant :=
  if ran then now + reply.elapsed else now

/-- Perform one event; the wakers that this fires. -/
def perform (t : Clocked (Cache ι κ ν ε ω)) :
    CacheEvent ι κ ν ε ω → List ω × Clocked (Cache ι κ ν ε ω)
  | .get id key waker reply =>
    let served := t.state.get id key t.now waker reply
    (served.woken, ⟨timeAfter t.now served.ran reply, served.cache⟩)
  | .poll id waker reply =>
    match t.state.poll id t.now waker reply with
    | some served => (served.woken, ⟨timeAfter t.now served.ran reply, served.cache⟩)
    | none => ([], t)
  | .drop id =>
    let (woken, c) := t.state.dropCall id
    (woken, ⟨t.now, c⟩)
  | .change key =>
    match t.state.change key t.now with
    | some scheduling => ([], ⟨t.now, scheduling.cache⟩)
    | none => ([], t)
  | .discard key => ([], ⟨t.now, (t.state.discard key).2⟩)
  | .clear => ([], ⟨t.now, t.state.clear⟩)
  | .runRenewal number reply =>
    match t.state.runRenewal number t.now reply with
    | some run => ([], ⟨timeAfter t.now run.ran reply, run.cache⟩)
    | none => ([], t)
  | .dropRenewal number =>
    match t.state.renewals.get? number with
    | some r => ([], ⟨t.now, t.state.closeRenewal number r⟩)
    | none => ([], t)
  | .setExecutor executor => ([], ⟨t.now, { t.state with executor := executor }⟩)
  | .advance elapsed => ([], ⟨t.now + elapsed, t.state⟩)

/-- A get is counted, and a former one of the same name is given up. -/
def beginGet (c : Cache ι κ ν ε ω) (id : ι) : Cache ι κ ν ε ω :=
  let c := (c.dropCall id).2
  { c with tally := { c.tally with gets := c.tally.gets + 1 } }

theorem get_eq (c : Cache ι κ ν ε ω) (id : ι) (k : κ) (now : Instant) (waker : ω)
    (reply : Reply ν ε) :
    c.get id k now waker reply =
      let served := (c.beginGet id).pollCall id (.start k) now waker reply
      { served with woken := (c.dropCall id).1 ++ served.woken } := rfl

section Polls

variable (c : Cache ι κ ν ε ω) (id : ι) (call : Call κ ε ω) (now : Instant) (waker : ω)
  (reply : Reply ν ε)

def pollReport : PollReport κ ν ε ω := (c.session.pollCall id call now waker ⟨none, reply⟩).1

/-- The call of a get is polled, and its load counted. -/
def polled : Cache ι κ ν ε ω :=
  { c with
    session := (c.session.pollCall id call now waker ⟨none, reply⟩).2
    tally := countLoad c.tally (c.pollReport id call now waker reply) }

/-- Then the entry is looked after that the get has resolved to. -/
def lookedAfter : Cache ι κ ν ε ω :=
  let report := c.pollReport id call now waker reply
  ((c.polled id call now waker reply).renewIfDue call.key report.outcome
    (timeAfter now report.ran reply)).cache

theorem cache_pollCall : (c.pollCall id call now waker reply).cache =
    ((c.lookedAfter id call now waker reply).endCall id
      (c.pollReport id call now waker reply).outcome).2 := rfl

theorem woken_pollCall : (c.pollCall id call now waker reply).woken =
    (c.pollReport id call now waker reply).woken ++
      ((c.lookedAfter id call now waker reply).endCall id
        (c.pollReport id call now waker reply).outcome).1 := rfl

end Polls

/-- What an event can come to: the wakers fired, and the cache afterwards. -/
inductive Effect (c : Cache ι κ ν ε ω) (now : Instant) :
    CacheEvent ι κ ν ε ω → List ω → Cache ι κ ν ε ω → Prop where
  | get (id : ι) (k : κ) (waker : ω) (reply : Reply ν ε) :
      Effect c now (.get id k waker reply)
        ((c.dropCall id).1 ++ ((c.beginGet id).pollCall id (.start k) now waker reply).woken)
        ((c.beginGet id).pollCall id (.start k) now waker reply).cache
  | poll {id : ι} {call : Call κ ε ω} (waker : ω) (reply : Reply ν ε)
      (present : c.session.calls.get? id = some call) :
      Effect c now (.poll id waker reply) (c.pollCall id call now waker reply).woken
        (c.pollCall id call now waker reply).cache
  | absent {id : ι} (waker : ω) (reply : Reply ν ε) (none : c.session.calls.get? id = none) :
      Effect c now (.poll id waker reply) [] c
  | drop (id : ι) : Effect c now (.drop id) (c.dropCall id).1 (c.dropCall id).2
  -- What follows fires no waker and is none of the gets' business.
  | change {k : κ} {s : Scheduling ι κ ν ε ω} (reaction : c.change k now = some s) :
      Effect c now (.change k) [] s.cache
  | discard (k : κ) : Effect c now (.discard k) [] (c.discard k).2
  | clear : Effect c now .clear [] c.clear
  | runRenewal {n : Nat} {reply : Reply ν ε} {run : RenewalRun ι κ ν ε ω}
      (outstanding : c.runRenewal n now reply = some run) :
      Effect c now (.runRenewal n reply) [] run.cache
  | dropRenewal {n : Nat} {r : Renewal κ ν} (outstanding : c.renewals.get? n = some r) :
      Effect c now (.dropRenewal n) [] (c.closeRenewal n r)
  | setExecutor (e : Executor) : Effect c now (.setExecutor e) [] { c with executor := e }
  | nothing {e : CacheEvent ι κ ν ε ω} (poll : ∀ id, e.waker? id = Option.none) :
      Effect c now e [] c

theorem effect_perform (t : Clocked (Cache ι κ ν ε ω)) (e : CacheEvent ι κ ν ε ω) :
    Effect t.state t.now e (perform t e).1 (perform t e).2.state := by
  cases e with
  | get id k waker reply => exact .get id k waker reply
  | poll id waker reply =>
    simp only [perform, Cache.poll]
    cases hc : t.state.session.calls.get? id with
    | none => exact .absent waker reply hc
    | some call => exact .poll waker reply hc
  | drop id => exact .drop id
  | change k =>
    simp only [perform]
    cases h : t.state.change k t.now with
    | none => exact .nothing fun _ => rfl
    | some s => exact .change h
  | discard k => exact .discard k
  | clear => exact .clear
  | runRenewal n reply =>
    simp only [perform]
    cases h : t.state.runRenewal n t.now reply with
    | none => exact .nothing fun _ => rfl
    | some run => exact .runRenewal h
  | dropRenewal n =>
    simp only [perform]
    cases h : t.state.renewals.get? n with
    | none => exact .nothing fun _ => rfl
    | some r => exact .dropRenewal h
  | setExecutor executor => exact .setExecutor executor
  | advance elapsed => exact .nothing fun _ => rfl

def step (t : Clocked (Cache ι κ ν ε ω)) (e : CacheEvent ι κ ν ε ω) :
    Clocked (Cache ι κ ν ε ω) :=
  (perform t e).2

end Cache

end ReadThrough
