import ReadThrough.Hub
import ReadThrough.Proofs.Cache.Identity

/-!
# Hearing of changes

A cache that is told of a change reacts as it does to any change, as often as it is registered.
What others are told does not concern it. A listener notes each change that it is told of, also one
that it refuses or crashes over.
-/

namespace ReadThrough.Hub

variable {ι κ ν ε ω : Type} [DecidableEq ι] [DecidableEq κ] [DecidableEq ω]

/-- A cache that has heard of a change so many times. -/
def hearing (c : Cache ι κ ν ε ω) (key : κ) (now : Instant) (times : Nat) :
    Clocked (Cache ι κ ν ε ω) :=
  (List.replicate times (.change key)).foldl Cache.step ⟨now, c⟩

variable {h h' h'' : Hub ι κ ν ε ω} {i : Ref (Cache ι κ ν ε ω)} {c : Cache ι κ ν ε ω} {key : κ}
  {now : Instant}

section Caches

theorem step_change (c : Cache ι κ ν ε ω) (key : κ) (now : Instant) :
    Cache.step ⟨now, c⟩ (.change key) = ⟨now, ((c.change key now).map (·.cache)).getD c⟩ := by
  simp only [Cache.step, Cache.perform]
  cases c.change key now <;> rfl

theorem hearing_succ (c : Cache ι κ ν ε ω) (key : κ) (now : Instant) (n : Nat) :
    hearing c key now (n + 1) =
      hearing (((c.change key now).map (·.cache)).getD c) key now n := by
  rw [hearing, List.replicate_succ, List.foldl_cons, step_change, hearing]

theorem hearing_add (c : Cache ι κ ν ε ω) (key : κ) (now : Instant) (m n : Nat) :
    hearing (hearing c key now m).state key now n = hearing c key now (m + n) := by
  induction m generalizing c with
  | zero => rw [Nat.zero_add]; rfl
  | succ m ih => rw [hearing_succ, ih, Nat.succ_add, hearing_succ]

/-- What a change that is not crashed over keeps true, hearing of it keeps true. -/
theorem hearing_of_preserved {motive : Cache ι κ ν ε ω → Prop}
    (next : ∀ c s, motive c → c.change key now = some s → motive s.cache) (base : motive c)
    (n : Nat) : motive (hearing c key now n).state := by
  induction n generalizing c with
  | zero => exact base
  | succ n ih =>
    rw [hearing_succ]
    apply ih
    cases hs : c.change key now with
    | none => exact base
    | some s => exact next c s base hs

theorem identity_hearing (c : Cache ι κ ν ε ω) (key : κ) (now : Instant) (n : Nat) :
    (hearing c key now n).state.identity = c.identity := by
  refine hearing_of_preserved (motive := fun d => d.identity = c.identity) ?_ rfl n
  exact fun _ _ same reaction => (Cache.identity_change reaction).trans same

end Caches

/-- Between `h` and `h'` each of `told` has been told of a change, as often as it stands there, and
nothing else has happened. -/
structure Reached (h : Hub ι κ ν ε ω) (told : List (Subscriber ι κ ν ε ω)) (key : κ) (now : Instant)
    (h' : Hub ι κ ν ε ω) : Prop where
  caches_eq : ∀ i, h'.caches.get? i = (h.caches.get? i).map fun c =>
    (hearing c key now (told.count (.cache i))).state
  listeners_eq : ∀ i, h'.listeners.get? i = (h.listeners.get? i).map fun l =>
    { l with heard := l.heard ++ List.replicate (told.count (.listener i)) key }
  references_eq : ∀ s, s ∉ told → h'.references.count s = h.references.count s
  cacheHandles_eq : h'.cacheHandles = h.cacheHandles
  listenerHandles_eq : h'.listenerHandles = h.listenerHandles
  kept_eq : h'.kept = h.kept
  registries_eq : h'.registries = h.registries
  broadcasters_eq : h'.broadcasters = h.broadcasters

namespace Reached

variable {told told' : List (Subscriber ι κ ν ε ω)}

theorem refl (h : Hub ι κ ν ε ω) (key : κ) (now : Instant) : h.Reached [] key now h where
  caches_eq i := by
    cases h.caches.get? i <;> rfl
  listeners_eq i := by
    cases h.listeners.get? i with
    | none => rfl
    | some l => simp
  references_eq _ _ := rfl
  cacheHandles_eq := rfl
  listenerHandles_eq := rfl
  kept_eq := rfl
  registries_eq := rfl
  broadcasters_eq := rfl

theorem trans (r : h.Reached told key now h') (r' : h'.Reached told' key now h'') :
    h.Reached (told ++ told') key now h'' where
  caches_eq i := by
    rw [r'.caches_eq, r.caches_eq, Option.map_map, List.count_append]
    cases h.caches.get? i with
    | none => rfl
    | some c => exact congrArg (fun t => some (Clocked.state t)) (hearing_add c key now _ _)
  listeners_eq i := by
    rw [r'.listeners_eq, r.listeners_eq, Option.map_map, List.count_append]
    cases h.listeners.get? i with
    | none => rfl
    | some l => simp [← List.replicate_append_replicate]
  references_eq s hs := by
    rw [List.mem_append, not_or] at hs
    rw [r'.references_eq s hs.2, r.references_eq s hs.1]
  cacheHandles_eq := r'.cacheHandles_eq.trans r.cacheHandles_eq
  listenerHandles_eq := r'.listenerHandles_eq.trans r.listenerHandles_eq
  kept_eq := r'.kept_eq.trans r.kept_eq
  registries_eq := r'.registries_eq.trans r.registries_eq
  broadcasters_eq := r'.broadcasters_eq.trans r.broadcasters_eq

end Reached

omit [DecidableEq ι] [DecidableEq κ] [DecidableEq ω] in
theorem get?_setCache (h : Hub ι κ ν ε ω) (r i : Ref (Cache ι κ ν ε ω)) (c : Cache ι κ ν ε ω) :
    (h.setCache r c).caches.get? i =
      if i = r then (h.caches.get? i).map fun _ => c else h.caches.get? i :=
  Arena.get?_modify _ _ _ _

theorem hearing_one (c : Cache ι κ ν ε ω) (key : κ) (now : Instant) :
    hearing c key now 1 = ⟨now, ((c.change key now).map (·.cache)).getD c⟩ := by
  rw [hearing_succ]
  rfl

theorem hub_inform_cache (scope : String) (key : κ) (now : Instant) (t : Told ι κ ν ε ω)
    (r : Ref (Cache ι κ ν ε ω)) :
    (inform scope key now t (.cache r)).2.hub = t.hub ∧
        (∀ c, t.hub.caches.get? r = some c → (hearing c key now 1).state = c) ∨
      ∃ c s, t.hub.caches.get? r = some c ∧ c.change key now = some s ∧
        (hearing c key now 1).state = s.cache ∧ (inform scope key now t (.cache r)).2.hub =
          t.hub.replace r s.cache s.spawned.isSome.toNat 0 := by
  cases hr : t.hub.caches.get? r with
  | none =>
    simp only [inform, tellCache, hr]
    exact .inl ⟨trivial, nofun⟩
  | some c =>
    simp only [hearing_one]
    cases hchange : c.change key now with
    | none =>
      simp only [inform, tellCache, hr, hchange, Option.map_none]
      refine .inl ⟨trivial, ?_⟩
      rintro d hd
      cases hd
      rw [hchange]
      rfl
    | some s =>
      simp only [inform, tellCache, hr, hchange, Option.map_some]
      exact .inr ⟨c, s, rfl, hchange, by rw [hchange]; rfl, rfl⟩

omit [DecidableEq ι] [DecidableEq κ] [DecidableEq ω] in
theorem count_release_of_ne {R : References (Subscriber ι κ ν ε ω)} {s q : Subscriber ι κ ν ε ω}
    (hq : q ∉ [s]) (n : Nat) : (R.release s n).count q = R.count q := by
  rw [References.count_release, if_neg (fun heq => hq (List.mem_singleton.mpr heq)), Nat.sub_zero]

theorem reached_tell_listener (scope : String) (key : κ) (now : Instant) (t : Told ι κ ν ε ω)
    (r : Ref (Listener κ)) :
    t.hub.Reached [.listener r] key now (tell scope key now t (.listener r)).2.hub where
  caches_eq i := by
    rw [List.count_singleton]
    cases hi : t.hub.caches.get? i with
    | none => exact hi
    | some c => exact hi
  listeners_eq i := by
    have hget : (tell scope key now t (.listener r)).2.hub.listeners.get? i = _ :=
      Arena.get?_modify t.hub.listeners r i _
    rw [hget]
    by_cases hi : i = r
    · subst hi
      simp
    · have hcount : [(.listener r : Subscriber ι κ ν ε ω)].count (.listener i) = 0 := by
        simp [Ne.symm hi]
      rw [if_neg hi, hcount]
      cases t.hub.listeners.get? i <;> simp
  references_eq q hq := count_release_of_ne hq 1
  cacheHandles_eq := rfl
  listenerHandles_eq := rfl
  kept_eq := rfl
  registries_eq := rfl
  broadcasters_eq := rfl

theorem reached_tell_cache (scope : String) (key : κ) (now : Instant) (t : Told ι κ ν ε ω)
    (r : Ref (Cache ι κ ν ε ω)) :
    t.hub.Reached [.cache r] key now (tell scope key now t (.cache r)).2.hub := by
  have hself : [(.cache r : Subscriber ι κ ν ε ω)].count (.cache r) = 1 := by simp
  have hother : ∀ i, i ≠ r → [(.cache r : Subscriber ι κ ν ε ω)].count (.cache i) = 0 := by
    intro i hi
    simp [Ne.symm hi]
  have hlisteners : ∀ i, t.hub.listeners.get? i = (t.hub.listeners.get? i).map fun l =>
      { l with heard := l.heard ++
        List.replicate ([(.cache r : Subscriber ι κ ν ε ω)].count (.listener i)) key } := by
    intro i
    cases t.hub.listeners.get? i <;> simp
  have htell : (tell scope key now t (.cache r)).2.hub =
      { (inform scope key now t (.cache r)).2.hub with
        references := (inform scope key now t (.cache r)).2.hub.references.release (.cache r) 1 } :=
    rfl
  rw [htell]
  rcases hub_inform_cache scope key now t r with ⟨eq, same⟩ | ⟨c, s, hc, -, hheard, eq⟩
  · rw [eq]
    refine ⟨fun i => ?_, hlisteners, fun q hq => count_release_of_ne hq 1, rfl, rfl, rfl, rfl, rfl⟩
    cases hi : t.hub.caches.get? i with
    | none => rfl
    | some c =>
      rw [Option.map_some]
      by_cases hr : i = r
      · subst hr
        rw [hself, same c hi]
      · rw [hother i hr]
        rfl
  · rw [eq]
    refine ⟨fun i => ?_, hlisteners, fun q hq => ?_, rfl, rfl, rfl, rfl, rfl⟩
    · refine (get?_setCache t.hub r i s.cache).trans ?_
      by_cases hr : i = r
      · subst hr
        rw [if_pos rfl, hself, hc, ← hheard]
        rfl
      · rw [if_neg hr, hother i hr]
        cases t.hub.caches.get? i <;> rfl
    · refine (count_release_of_ne hq 1).trans ((count_release_of_ne hq 0).trans ?_)
      rw [References.count_retain, if_neg (fun heq => hq (List.mem_singleton.mpr heq)),
        Nat.add_zero]

theorem reached_tell (scope : String) (key : κ) (now : Instant) (t : Told ι κ ν ε ω) :
    ∀ s, t.hub.Reached [s] key now (tell scope key now t s).2.hub
  | .cache r => reached_tell_cache scope key now t r
  | .listener r => reached_tell_listener scope key now t r

/-- A change that is delivered reaches all those found, in whatever order and with whatever verdict
each. -/
theorem reached_deliver (scope : String) (key : κ) (now : Instant)
    (found : List (Subscriber ι κ ν ε ω)) (t : Told ι κ ν ε ω) :
    t.hub.Reached found key now (deliver (tell scope key now) found t).2.hub := by
  induction found generalizing t with
  | nil => exact .refl t.hub key now
  | cons s found ih =>
    have htold := reached_tell scope key now t s
    exact htold.trans (ih (tell scope key now t s).2)

theorem exists_hearing (hc : h.caches.get? i = some c) (registry scope : String) (key : κ)
    (now : Instant) :
    ∃ n, (h.deliverLocally registry scope key now).2.hub.caches.get? i =
      some (hearing c key now n).state := by
  have hreached := reached_deliver scope key now (h.subscribersTo registry scope).1
    { hub := (h.subscribersTo registry scope).2 }
  have hcaches := hreached.caches_eq i
  have hbefore : (h.subscribersTo registry scope).2.caches.get? i = some c := hc
  rw [hbefore] at hcaches
  exact ⟨_, hcaches⟩

end ReadThrough.Hub
