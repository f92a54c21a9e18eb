import ReadThrough.Proofs.Cache.UnderWay
import ReadThrough.Proofs.Hub.Hearing

/-!
# Everything that can happen to a hub

A run of a hub performs events of every kind, in any order and with any arguments. Nothing happens
to a cache that is dead, and nobody takes hold of it. A subscriber may be registered that has died
since.
-/

namespace ReadThrough

/-- One event in the life of a hub. Handles are given out on caches that are set up, on listeners
that come in, and on any subscriber that is alive. What a search has found may be kept until it is
let go, and what a peer has published may be relayed. -/
inductive HubEvent (ι κ ν ε ω : Type) where
  | setUp (handle : String) (origin : Cache.Origin κ)
  | listen (handle : String) (listener : Listener κ)
  | hold (handle : String) (s : Subscriber ι κ ν ε ω)
  | drop (handle : String)
  | register (registry : String) (s : Subscriber ι κ ν ε ω)
  | setUpBroadcaster (name registry : String) (peers : Peers)
  | announce (name scope : String) (key : κ)
  | relay (name scope : String) (key : κ)
  | fetch (name : String)
  | search (registry scope : String)
  | keep (slot registry scope : String)
  | letGo (slot : String)
  | ofCache (r : Ref (Cache ι κ ν ε ω)) (e : CacheEvent ι κ ν ε ω)
  | advance (elapsed : Nat)

namespace Hub

variable {ι κ ν ε ω : Type}

/-- The subscriber has come in at some time, and may have died since. -/
def knows (h : Hub ι κ ν ε ω) : Subscriber ι κ ν ε ω → Bool
  | .cache r => (h.caches.get? r).isSome
  | .listener r => (h.listeners.get? r).isSome

/-- Whether this can happen to a cache now. It takes a handle to begin a get, and to drop entries.
Who has found the cache in a search can tell it of a change, too. -/
def permits (h : Hub ι κ ν ε ω) (r : Ref (Cache ι κ ν ε ω)) (e : CacheEvent ι κ ν ε ω) : Bool :=
  let isHeld := h.cacheHandles.values.contains r
  h.isAlive (.cache r) && match e with
    | .get .. => isHeld
    | .change .. => isHeld || h.kept.values.any fun found => found.contains (.cache r)
    | .discard .. => isHeld
    | .clear => isHeld
    | _ => true

def start (now : Instant) : Clocked (Hub ι κ ν ε ω) := ⟨now, .empty⟩

variable [DecidableEq ι] [DecidableEq κ] [DecidableEq ω]

def perform (h : Hub ι κ ν ε ω) (r : Ref (Cache ι κ ν ε ω)) (c : Cache ι κ ν ε ω)
    (now : Instant) : CacheEvent ι κ ν ε ω → Hub ι κ ν ε ω
  | .get id key waker reply => (h.get r c id key now waker reply).2
  | .poll id waker reply => ((h.poll r c id now waker reply).map Prod.snd).getD h
  | .drop id => (h.dropCall r c id).2
  | .change key => ((h.tellCache r key now).map (·.hub)).getD h
  | .discard key => h.setCache r (c.discard key).2
  | .clear => h.setCache r c.clear
  | .runRenewal number reply => ((h.runRenewal r c number now reply).map Prod.snd).getD h
  | .dropRenewal number => h.dropRenewal r c number
  | .setExecutor executor => h.setCache r { c with executor := executor }
  | .advance _ => h

def step (t : Clocked (Hub ι κ ν ε ω)) : HubEvent ι κ ν ε ω → Clocked (Hub ι κ ν ε ω)
  | .setUp handle origin => ⟨t.now, t.state.addCache handle origin.start.state⟩
  | .listen handle listener => ⟨t.now, t.state.addListener handle listener⟩
  | .hold handle s =>
    if (t.state.scopeOf s).isSome then ⟨t.now, t.state.hold handle s⟩ else t
  | .drop handle => ⟨t.now, (t.state.dropHandle handle).2⟩
  | .register registry s =>
    if t.state.knows s then ⟨t.now, t.state.register registry s⟩ else t
  | .setUpBroadcaster name registry peers => ⟨t.now, t.state.addBroadcaster name registry peers⟩
  | .announce name scope key =>
    match t.state.broadcasters.get? name with
    | some b => ⟨t.now, (t.state.announce name b scope key t.now).told.hub⟩
    | none => t
  | .relay name scope key =>
    match t.state.broadcasters.get? name with
    | some b => ⟨t.now, (t.state.relay b scope key t.now).2.hub⟩
    | none => t
  | .fetch name => ⟨t.now, (t.state.fetchPublished name).2⟩
  | .search registry scope => ⟨t.now, (t.state.search registry scope).2⟩
  | .keep slot registry scope => ⟨t.now, t.state.keep slot registry scope⟩
  | .letGo slot => ⟨t.now, t.state.letGo slot⟩
  | .ofCache r e =>
    match t.state.caches.get? r with
    | some c =>
      if t.state.permits r e then ⟨(Cache.step ⟨t.now, c⟩ e).now, t.state.perform r c t.now e⟩
      else t
    | none => t
  | .advance elapsed => ⟨t.now + elapsed, t.state⟩

section Replacing

variable {h h' : Hub ι κ ν ε ω} {r : Ref (Cache ι κ ν ε ω)} {c : Cache ι κ ν ε ω} {now : Instant}

/-- In `h'` there is another cache at `r`, to which so many references have been taken and then
given up. All else is as in `h`. -/
structure Replaces (h : Hub ι κ ν ε ω) (r : Ref (Cache ι κ ν ε ω)) (c : Cache ι κ ν ε ω)
    (taken given : Nat) (h' : Hub ι κ ν ε ω) : Prop where
  caches_eq : ∀ i, h'.caches.get? i =
    if i = r then (h.caches.get? i).map fun _ => c else h.caches.get? i
  references_eq : ∀ s, h'.references.count s =
    if s = .cache r then h.references.count s + taken - given else h.references.count s
  listeners_eq : h'.listeners = h.listeners
  cacheHandles_eq : h'.cacheHandles = h.cacheHandles
  listenerHandles_eq : h'.listenerHandles = h.listenerHandles
  kept_eq : h'.kept = h.kept
  registries_eq : h'.registries = h.registries
  broadcasters_eq : h'.broadcasters = h.broadcasters

omit [DecidableEq ι] [DecidableEq κ] [DecidableEq ω] in
theorem replaces_replace (h : Hub ι κ ν ε ω) (r : Ref (Cache ι κ ν ε ω)) (c : Cache ι κ ν ε ω)
    (taken given : Nat) : h.Replaces r c taken given (h.replace r c taken given) where
  caches_eq i := get?_setCache h r i c
  references_eq s := by
    have hreferences : (h.replace r c taken given).references.count s = _ :=
      References.count_release (h.references.retain (.cache r) taken) _ s given
    rw [hreferences, References.count_retain]
    split <;> rfl
  listeners_eq := rfl
  cacheHandles_eq := rfl
  listenerHandles_eq := rfl
  kept_eq := rfl
  registries_eq := rfl
  broadcasters_eq := rfl

omit [DecidableEq ι] [DecidableEq κ] [DecidableEq ω] in
theorem replaces_setCache (h : Hub ι κ ν ε ω) (r : Ref (Cache ι κ ν ε ω)) (c : Cache ι κ ν ε ω) :
    h.Replaces r c 0 0 (h.setCache r c) :=
  ⟨fun i => get?_setCache h r i c, fun _ => (ite_self _).symm, rfl, rfl, rfl, rfl, rfl, rfl⟩

omit [DecidableEq ι] [DecidableEq κ] [DecidableEq ω] in
theorem Replaces.refl (hc : h.caches.get? r = some c) : h.Replaces r c 0 0 h := by
  refine ⟨fun i => ?_, fun _ => (ite_self _).symm, rfl, rfl, rfl, rfl, rfl, rfl⟩
  split
  · rename_i hi
    rw [hi, hc]
    rfl
  · rfl

/-- Whatever happens to a cache takes a reference to it for each get and each renewal that comes,
and gives one up for each that is gone. -/
theorem exists_replaces (hc : h.caches.get? r = some c) (now : Instant)
    (e : CacheEvent ι κ ν ε ω) : ∃ taken given,
      h.Replaces r (Cache.step ⟨now, c⟩ e).state taken given (h.perform r c now e) ∧
        (c.LeasesHeld →
          (Cache.step ⟨now, c⟩ e).state.underWay + given = c.underWay + taken) := by
  cases e with
  | get id key waker reply =>
    exact ⟨_, _, replaces_replace h r _ _ _, fun hleases =>
      (Nat.add_assoc ..).symm.trans (Cache.underWay_get hleases id key waker)⟩
  | poll id waker reply =>
    cases hcall : c.session.calls.get? id with
    | none =>
      rw [Cache.step_poll_of_absent hcall]
      refine ⟨0, 0, ?_, fun _ => rfl⟩
      simp only [perform, poll, Cache.poll, hcall]
      exact .refl hc
    | some call =>
      have hstep : (Cache.step ⟨now, c⟩ (.poll id waker reply)).state =
          (c.pollCall id call now waker reply).cache := by
        rw [Cache.step_poll hcall]
      simp only [hstep, perform, poll, Cache.poll_of_present hcall]
      refine ⟨_, _, replaces_replace h r _ _ _, fun hleases => ?_⟩
      have hsize := Cache.underWay_pollCall hleases id call now waker reply
      rw [Table.contains, hcall] at hsize
      exact Nat.succ.inj hsize
  | drop id => exact ⟨_, _, replaces_replace h r _ _ _, fun _ => c.underWay_dropCall id⟩
  | change key =>
    rw [step_change]
    simp only [perform, tellCache, hc]
    cases hs : c.change key now with
    | none => exact ⟨0, 0, .refl hc, fun _ => rfl⟩
    | some s =>
      exact ⟨_, _, replaces_replace h r _ _ _, fun hleases => Cache.underWay_change hleases hs⟩
  | discard key => exact ⟨0, 0, replaces_setCache h r _, fun _ => rfl⟩
  | clear => exact ⟨0, 0, replaces_setCache h r _, fun _ => rfl⟩
  | runRenewal n reply =>
    cases hrun : c.runRenewal n now reply with
    | none =>
      simp only [perform, runRenewal, Cache.step, Cache.perform, hrun]
      exact ⟨0, 0, .refl hc, fun _ => rfl⟩
    | some run =>
      simp only [perform, runRenewal, Cache.step, Cache.perform, hrun]
      exact ⟨_, _, replaces_replace h r _ _ _, fun _ => Cache.underWay_runRenewal hrun⟩
  | dropRenewal n =>
    cases hq : c.renewals.get? n with
    | none =>
      simp only [perform, dropRenewal, Cache.step, Cache.perform, hq]
      exact ⟨0, 0, .refl hc, fun _ => rfl⟩
    | some q =>
      simp only [perform, dropRenewal, Cache.step, Cache.perform, hq]
      exact ⟨_, _, replaces_replace h r _ _ _, fun _ => Cache.underWay_closeRenewal hq⟩
  | setExecutor executor => exact ⟨0, 0, replaces_setCache h r _, fun _ => rfl⟩
  | advance elapsed => exact ⟨0, 0, .refl hc, fun _ => rfl⟩

end Replacing

end Hub

end ReadThrough
