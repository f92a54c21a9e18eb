import ReadThrough.Proofs.Cache.Repeats
import ReadThrough.Proofs.Hub.Events
import ReadThrough.Proofs.Hub.Registries

/-!
# Who is alive

Caches and listeners are alive while there are references to them. Whatever happens to a hub, those
that have come in stay what they are, and those that have died stay dead and as they are.
-/

namespace ReadThrough.Hub

variable {ι κ ν ε ω : Type} {h h' h'' : Hub ι κ ν ε ω} {r : Ref (Cache ι κ ν ε ω)}
  {c : Cache ι κ ν ε ω} {l : Ref (Listener κ)} {x : Listener κ} {s : Subscriber ι κ ν ε ω}
  {scope : String}

section Alive

theorem knows_of_cache (hc : h.caches.get? r = some c) : h.knows (.cache r) = true :=
  Option.isSome_iff_exists.mpr ⟨c, hc⟩

theorem knows_of_listener (hx : h.listeners.get? l = some x) : h.knows (.listener l) = true :=
  Option.isSome_iff_exists.mpr ⟨x, hx⟩

theorem scopeOf_of_dead (dead : h.references.count s = 0) : h.scopeOf s = none := by
  unfold scopeOf isAlive
  rw [dead]
  rfl

theorem count_pos_of_scopeOf (hs : h.scopeOf s = some scope) : 0 < h.references.count s :=
  Nat.pos_of_ne_zero fun dead => nomatch (scopeOf_of_dead dead).symm.trans hs

theorem knows_of_scopeOf (hs : h.scopeOf s = some scope) : h.knows s = true := by
  unfold scopeOf isAlive at hs
  rw [decide_eq_true (count_pos_of_scopeOf hs), if_pos rfl] at hs
  cases s with
  | cache r =>
    obtain ⟨c, hc, -⟩ := Option.map_eq_some_iff.mp hs
    exact knows_of_cache hc
  | listener l =>
    obtain ⟨x, hx, -⟩ := Option.map_eq_some_iff.mp hs
    exact knows_of_listener hx

theorem scopeOf_cache (hc : h.caches.get? r = some c) (alive : 0 < h.references.count (.cache r)) :
    h.scopeOf (.cache r) = some c.scope := by
  rw [scopeOf, isAlive, decide_eq_true alive, if_pos rfl, hc]
  rfl

theorem scopeOf_listener (hx : h.listeners.get? l = some x)
    (alive : 0 < h.references.count (.listener l)) :
    h.scopeOf (.listener l) = some x.scope := by
  rw [scopeOf, isAlive, decide_eq_true alive, if_pos rfl, hx]
  rfl

/-- Whoever has come in listens to a scope exactly as long as there are references to him. -/
theorem isSome_scopeOf_iff (known : h.knows s = true) :
    (h.scopeOf s).isSome = true ↔ 0 < h.references.count s := by
  constructor
  · intro hs
    obtain ⟨scope, hscope⟩ := Option.isSome_iff_exists.mp hs
    exact count_pos_of_scopeOf hscope
  · intro alive
    cases s with
    | cache r =>
      obtain ⟨c, hc⟩ := Option.isSome_iff_exists.mp known
      rw [scopeOf_cache hc alive]
      rfl
    | listener l =>
      obtain ⟨x, hx⟩ := Option.isSome_iff_exists.mp known
      rw [scopeOf_listener hx alive]
      rfl

theorem count_eq_zero_of_scopeOf (known : h.knows s = true) (hs : h.scopeOf s = none) :
    h.references.count s = 0 := by
  have halive := isSome_scopeOf_iff known
  rw [hs] at halive
  exact Nat.eq_zero_of_not_pos fun alive => nomatch halive.mpr alive

theorem scopeOf_of_found {name : String} (hs : s ∈ (h.subscribersTo name scope).1) :
    h.scopeOf s = some scope := by
  have hfound : (h.subscribersTo name scope).1 = _ :=
    (h.registry name).fst_subscribersTo h.scopeOf scope
  rw [hfound] at hs
  exact of_decide_eq_true (List.mem_filter.mp hs).2

/-- Nobody takes a reference to the dead by searching. -/
theorem count_subscribersTo_of_dead (dead : h.references.count s = 0) (name scope : String) :
    (h.subscribersTo name scope).2.references.count s = 0 := by
  have hcount : (h.subscribersTo name scope).2.references.count s = _ :=
    h.references.count_retainAll (h.subscribersTo name scope).1 s
  rw [hcount, dead, List.count_eq_zero.mpr]
  intro hs
  exact (count_pos_of_scopeOf (scopeOf_of_found hs)).ne' dead

theorem count_pos_of_found {registry : String} (hs : s ∈ (h.subscribersTo registry scope).1) :
    0 < (h.subscribersTo registry scope).2.references.count s := by
  have hcount : (h.subscribersTo registry scope).2.references.count s = _ :=
    h.references.count_retainAll (h.subscribersTo registry scope).1 s
  rw [hcount]
  exact Nat.add_pos_left (count_pos_of_scopeOf (scopeOf_of_found hs)) _

end Alive

section Onward

/-- What has become of those that have come in: they are there and what they have been, and the
dead are dead and untouched. -/
structure Onward (h h' : Hub ι κ ν ε ω) : Prop where
  cache : ∀ {r c}, h.caches.get? r = some c →
    ∃ c', h'.caches.get? r = some c' ∧ c'.identity = c.identity
  listener : ∀ {l x}, h.listeners.get? l = some x → ∃ x', h'.listeners.get? l = some x' ∧
    x'.name = x.name ∧ x'.scope = x.scope ∧ x'.manner = x.manner
  dead : ∀ {s}, h.knows s = true → h.references.count s = 0 → h'.references.count s = 0
  dead_cache : ∀ {r c}, h.caches.get? r = some c → h.references.count (.cache r) = 0 →
    h'.caches.get? r = some c
  dead_listener : ∀ {l x}, h.listeners.get? l = some x → h.references.count (.listener l) = 0 →
    h'.listeners.get? l = some x

/-- References may be given up, and taken to those that are alive. -/
theorem onward_of_count (caches : h'.caches = h.caches) (listeners : h'.listeners = h.listeners)
    (dead : ∀ s, h.references.count s = 0 → h'.references.count s = 0) : h.Onward h' where
  cache hc := ⟨_, caches ▸ hc, rfl⟩
  listener hx := ⟨_, listeners ▸ hx, rfl, rfl, rfl⟩
  dead _ hs := dead _ hs
  dead_cache hc _ := caches ▸ hc
  dead_listener hx _ := listeners ▸ hx

namespace Onward

theorem refl (h : Hub ι κ ν ε ω) : h.Onward h := onward_of_count rfl rfl fun _ => id

theorem knows (a : h.Onward h') (known : h.knows s = true) : h'.knows s = true := by
  cases s with
  | cache r =>
    obtain ⟨c, hc⟩ := Option.isSome_iff_exists.mp known
    obtain ⟨c', hc', -⟩ := a.cache hc
    exact knows_of_cache hc'
  | listener l =>
    obtain ⟨x, hx⟩ := Option.isSome_iff_exists.mp known
    obtain ⟨x', hx', -⟩ := a.listener hx
    exact knows_of_listener hx'

theorem trans (a : h.Onward h') (b : h'.Onward h'') : h.Onward h'' where
  cache hc := by
    obtain ⟨c', hc', same⟩ := a.cache hc
    obtain ⟨c'', hc'', same'⟩ := b.cache hc'
    exact ⟨c'', hc'', same'.trans same⟩
  listener hx := by
    obtain ⟨x', hx', hname, hscope, hmanner⟩ := a.listener hx
    obtain ⟨x'', hx'', hname', hscope', hmanner'⟩ := b.listener hx'
    exact ⟨x'', hx'', hname'.trans hname, hscope'.trans hscope, hmanner'.trans hmanner⟩
  dead known hs := b.dead (a.knows known) (a.dead known hs)
  dead_cache hc hs := b.dead_cache (a.dead_cache hc hs) (a.dead (knows_of_cache hc) hs)
  dead_listener hx hs :=
    b.dead_listener (a.dead_listener hx hs) (a.dead (knows_of_listener hx) hs)

theorem scopeOf (a : h.Onward h') (known : h.knows s = true) (hs : h'.scopeOf s = some scope) :
    h.scopeOf s = some scope := by
  have halive' := count_pos_of_scopeOf hs
  have halive : 0 < h.references.count s :=
    Nat.pos_of_ne_zero fun dead => halive'.ne' (a.dead known dead)
  cases s with
  | cache r =>
    obtain ⟨c, hc⟩ := Option.isSome_iff_exists.mp known
    obtain ⟨c', hc', same⟩ := a.cache hc
    have hscope : c'.scope = c.scope := congrArg (·.2.1) same
    rw [scopeOf_cache hc' halive', hscope] at hs
    rw [scopeOf_cache hc halive, hs]
  | listener l =>
    obtain ⟨x, hx⟩ := Option.isSome_iff_exists.mp known
    obtain ⟨x', hx', -, hscope, -⟩ := a.listener hx
    rw [scopeOf_listener hx' halive', hscope] at hs
    rw [scopeOf_listener hx halive, hs]

theorem scopeOf_eq_none (a : h.Onward h') (known : h.knows s = true) (hs : h.scopeOf s = none) :
    h'.scopeOf s = none :=
  scopeOf_of_dead (a.dead known (count_eq_zero_of_scopeOf known hs))

end Onward

end Onward

section Operations

theorem count_held_of_dead {R : References (Subscriber ι κ ν ε ω)} {q : Subscriber ι κ ν ε ω}
    (other : q ≠ s) (dead : R.count q = 0) (former : List (Subscriber ι κ ν ε ω)) :
    ((R.retain s 1).releaseAll former).count q = 0 := by
  rw [References.count_releaseAll, References.count_retain, if_neg other, dead, Nat.zero_add,
    Nat.zero_sub]

theorem onward_hold (alive : 0 < h.references.count s) (handle : String) :
    h.Onward (h.hold handle s) := by
  have hother : ∀ {q}, h.references.count q = 0 → q ≠ s := by
    rintro q hq rfl
    exact alive.ne' hq
  cases s with
  | cache r => exact onward_of_count rfl rfl fun q hq => count_held_of_dead (hother hq) hq _
  | listener l => exact onward_of_count rfl rfl fun q hq => count_held_of_dead (hother hq) hq _

theorem onward_addCache (h : Hub ι κ ν ε ω) (handle : String) (c : Cache ι κ ν ε ω) :
    h.Onward (h.addCache handle c) where
  cache hd := ⟨_, Arena.get?_add_of_eq_some hd c, rfl⟩
  listener hx := ⟨_, hx, rfl, rfl, rfl⟩
  dead known hs := by
    refine count_held_of_dead ?_ hs _
    rintro rfl
    rw [knows, Arena.get?_next] at known
    cases known
  dead_cache hd _ := Arena.get?_add_of_eq_some hd c
  dead_listener hx _ := hx

theorem onward_addListener (h : Hub ι κ ν ε ω) (handle : String) (x : Listener κ) :
    h.Onward (h.addListener handle x) where
  cache hd := ⟨_, hd, rfl⟩
  listener hy := ⟨_, Arena.get?_add_of_eq_some hy x, rfl, rfl, rfl⟩
  dead known hs := by
    refine count_held_of_dead ?_ hs _
    rintro rfl
    rw [knows, Arena.get?_next] at known
    cases known
  dead_cache hd _ := hd
  dead_listener hy _ := Arena.get?_add_of_eq_some hy x

theorem count_releaseAll_of_dead {R : References (Subscriber ι κ ν ε ω)}
    {q : Subscriber ι κ ν ε ω} (dead : R.count q = 0) (given : List (Subscriber ι κ ν ε ω)) :
    (R.releaseAll given).count q = 0 := by
  rw [References.count_releaseAll, dead, Nat.zero_sub]

theorem onward_dropHandle (h : Hub ι κ ν ε ω) (handle : String) :
    h.Onward (h.dropHandle handle).2 :=
  onward_of_count rfl rfl fun _ hq => count_releaseAll_of_dead hq _

theorem onward_subscribersTo (h : Hub ι κ ν ε ω) (name scope : String) :
    h.Onward (h.subscribersTo name scope).2 :=
  onward_of_count rfl rfl fun _ hq => count_subscribersTo_of_dead hq name scope

theorem onward_search (h : Hub ι κ ν ε ω) (name scope : String) :
    h.Onward (h.search name scope).2 :=
  onward_of_count rfl rfl fun _ hq =>
    count_releaseAll_of_dead (count_subscribersTo_of_dead hq name scope) _

theorem onward_keep (h : Hub ι κ ν ε ω) (slot name scope : String) :
    h.Onward (h.keep slot name scope) :=
  onward_of_count rfl rfl fun _ hq =>
    count_releaseAll_of_dead (count_subscribersTo_of_dead hq name scope) _

theorem onward_letGo (h : Hub ι κ ν ε ω) (slot : String) : h.Onward (h.letGo slot) :=
  onward_of_count rfl rfl fun _ hq => count_releaseAll_of_dead hq _

theorem Replaces.onward {c' : Cache ι κ ν ε ω} {taken given : Nat}
    (replaces : h.Replaces r c' taken given h') (hc : h.caches.get? r = some c)
    (alive : 0 < h.references.count (.cache r)) (same : c'.identity = c.identity) :
    h.Onward h' where
  cache {q d} hd := by
    rw [replaces.caches_eq]
    by_cases hq : q = r
    · subst hq
      cases hc.symm.trans hd
      exact ⟨c', by rw [if_pos rfl, hd, Option.map_some], same⟩
    · exact ⟨d, by rw [if_neg hq, hd], rfl⟩
  listener hx := ⟨_, replaces.listeners_eq ▸ hx, rfl, rfl, rfl⟩
  dead {q} _ hq := by
    have hne : q ≠ .cache r := by
      rintro rfl
      exact alive.ne' hq
    rw [replaces.references_eq, if_neg hne, hq]
  dead_cache {q d} hd hq := by
    have hne : q ≠ r := by
      rintro rfl
      exact alive.ne' hq
    rw [replaces.caches_eq, if_neg hne, hd]
  dead_listener hx _ := replaces.listeners_eq ▸ hx

theorem count_pos_of_permits {e : CacheEvent ι κ ν ε ω} (permitted : h.permits r e = true) :
    0 < h.references.count (.cache r) :=
  of_decide_eq_true (Bool.and_eq_true_iff.mp permitted).1

variable [DecidableEq ι] [DecidableEq κ] [DecidableEq ω]

theorem Reached.onward {told : List (Subscriber ι κ ν ε ω)} {key : κ} {now : Instant}
    (reached : h.Reached told key now h') (alive : ∀ s ∈ told, 0 < h.references.count s) :
    h.Onward h' where
  cache {q d} hd := by
    have hd' := reached.caches_eq q
    rw [hd] at hd'
    exact ⟨_, hd', identity_hearing d key now _⟩
  listener {l x} hx := by
    have hx' := reached.listeners_eq l
    rw [hx] at hx'
    exact ⟨_, hx', rfl, rfl, rfl⟩
  dead _ hq := by
    rw [reached.references_eq _ fun hmem => (alive _ hmem).ne' hq, hq]
  dead_cache {q d} hd hq := by
    have hcount : told.count (.cache q) = 0 :=
      List.count_eq_zero.mpr fun hmem => (alive _ hmem).ne' hq
    have hd' := reached.caches_eq q
    rw [hd, hcount] at hd'
    exact hd'
  dead_listener {l x} hx hq := by
    have hcount : told.count (.listener l) = 0 :=
      List.count_eq_zero.mpr fun hmem => (alive _ hmem).ne' hq
    have hx' := reached.listeners_eq l
    rw [hx, hcount, Option.map_some, List.replicate_zero, List.append_nil] at hx'
    exact hx'

theorem reached_deliverLocally (h : Hub ι κ ν ε ω) (registry scope : String) (key : κ)
    (now : Instant) :
    (h.subscribersTo registry scope).2.Reached (h.subscribersTo registry scope).1 key now
      (h.deliverLocally registry scope key now).2.hub :=
  reached_deliver scope key now _ { hub := (h.subscribersTo registry scope).2 }

theorem onward_deliverLocally (h : Hub ι κ ν ε ω) (registry scope : String) (key : κ)
    (now : Instant) : h.Onward (h.deliverLocally registry scope key now).2.hub :=
  (onward_subscribersTo h registry scope).trans
    ((reached_deliverLocally h registry scope key now).onward fun _ => count_pos_of_found)

/-- Whatever happens to a hub, it goes on. -/
theorem onward_step (t : Clocked (Hub ι κ ν ε ω)) (e : HubEvent ι κ ν ε ω) :
    t.state.Onward (step t e).state := by
  cases e with
  | setUp handle origin => exact onward_addCache t.state handle _
  | listen handle listener => exact onward_addListener t.state handle listener
  | hold handle s =>
    rw [step]
    split
    · rename_i hs
      obtain ⟨scope, hscope⟩ := Option.isSome_iff_exists.mp hs
      exact onward_hold (count_pos_of_scopeOf hscope) handle
    · exact .refl _
  | drop handle => exact onward_dropHandle t.state handle
  | register registry s =>
    rw [step]
    split
    · exact onward_of_count rfl rfl fun _ => id
    · exact .refl _
  | setUpBroadcaster name registry peers => exact onward_of_count rfl rfl fun _ => id
  | announce name scope key =>
    simp only [step]
    split
    · rename_i b hb
      have hdelivered := onward_deliverLocally t.state b.registry scope key t.now
      exact hdelivered.trans (onward_of_count rfl rfl fun _ => id)
    · exact .refl _
  | relay name scope key =>
    simp only [step]
    split
    · exact onward_deliverLocally t.state _ scope key t.now
    · exact .refl _
  | fetch name =>
    simp only [step, fetchPublished]
    split
    · exact .refl _
    · exact onward_of_count rfl rfl fun _ => id
  | search registry scope => exact onward_search t.state registry scope
  | keep slot registry scope => exact onward_keep t.state slot registry scope
  | letGo slot => exact onward_letGo t.state slot
  | ofCache r e =>
    simp only [step]
    split
    · rename_i c hc
      split
      · rename_i permitted
        obtain ⟨_, _, replaces, -⟩ := exists_replaces hc t.now e
        exact replaces.onward hc (count_pos_of_permits permitted) (Cache.identity_step _ e)
      · exact .refl _
    · exact .refl _
  | advance elapsed => exact .refl _

theorem onward_foldl (t : Clocked (Hub ι κ ν ε ω)) (events : List (HubEvent ι κ ν ε ω)) :
    t.state.Onward (events.foldl step t).state := by
  induction events generalizing t with
  | nil => exact .refl _
  | cons e events ih => exact (onward_step t e).trans (ih (step t e))

end Operations

end ReadThrough.Hub
