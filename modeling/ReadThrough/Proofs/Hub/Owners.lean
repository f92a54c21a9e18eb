import ReadThrough.Proofs.Cache.Renewals
import ReadThrough.Proofs.Hub.Liveness

/-!
# Who keeps caches and listeners alive

The references to a cache are those of the handles on it, of the gets and renewals under way on it,
and of the searches that have found it and keep it. Whatever happens, they are counted as they come
and go. So a cache is alive as long as one of these is left, and dies with the last of them.
-/

namespace ReadThrough.Hub

variable {ι κ ν ε ω : Type} {h h' : Hub ι κ ν ε ω} {r : Ref (Cache ι κ ν ε ω)}
  {c c' : Cache ι κ ν ε ω} {s q : Subscriber ι κ ν ε ω} {loose : List (Subscriber ι κ ν ε ω)}

section Counts

def handlesOn (h : Hub ι κ ν ε ω) (s : Subscriber ι κ ν ε ω) : Nat :=
  h.cacheHandles.total (fun r => [Subscriber.cache r].count s) +
    h.listenerHandles.total fun l => [Subscriber.listener l].count s

def underWayOn (h : Hub ι κ ν ε ω) : Subscriber ι κ ν ε ω → Nat
  | .cache r => ((h.caches.get? r).map (·.underWay)).getD 0
  | .listener _ => 0

def keptOf (h : Hub ι κ ν ε ω) (s : Subscriber ι κ ν ε ω) : Nat := h.kept.total (·.count s)

/-- How many there are that refer to a subscriber. -/
def holders (h : Hub ι κ ν ε ω) (s : Subscriber ι κ ν ε ω) : Nat :=
  h.handlesOn s + h.underWayOn s + h.keptOf s

/-- The references are those of the holders, and of a delivery that has not told those in `loose`
yet. -/
structure Counted (h : Hub ι κ ν ε ω) (loose : List (Subscriber ι κ ν ε ω)) : Prop where
  count_eq : ∀ s, h.references.count s = h.holders s + loose.count s
  leases : ∀ {r c}, h.caches.get? r = some c → c.LeasesHeld

theorem count_heldCache (h : Hub ι κ ν ε ω) (handle : String) (s : Subscriber ι κ ν ε ω) :
    (h.heldCache handle).count s =
      (h.cacheHandles.get? handle).elim 0 fun r => [Subscriber.cache r].count s := by
  rw [heldCache]
  cases h.cacheHandles.get? handle <;> rfl

theorem count_heldListener (h : Hub ι κ ν ε ω) (handle : String) (s : Subscriber ι κ ν ε ω) :
    (h.heldListener handle).count s =
      (h.listenerHandles.get? handle).elim 0 fun l => [Subscriber.listener l].count s := by
  rw [heldListener]
  cases h.listenerHandles.get? handle <;> rfl

theorem count_keptUnder (h : Hub ι κ ν ε ω) (slot : String) (s : Subscriber ι κ ν ε ω) :
    (h.keptUnder slot).count s = (h.kept.get? slot).elim 0 (·.count s) := by
  rw [keptUnder, Table.getD]
  cases h.kept.get? slot <;> rfl

theorem holders_hold_cache (h : Hub ι κ ν ε ω) (handle : String) (r : Ref (Cache ι κ ν ε ω))
    (s : Subscriber ι κ ν ε ω) :
    (h.hold handle (.cache r)).holders s + (h.heldCache handle).count s =
      h.holders s + [Subscriber.cache r].count s := by
  have htotal := h.cacheHandles.total_put handle r fun r => [Subscriber.cache r].count s
  have hhandles : (h.hold handle (.cache r)).handlesOn s =
      (h.cacheHandles.put handle r).total (fun r => [Subscriber.cache r].count s) +
        h.listenerHandles.total fun l => [Subscriber.listener l].count s := rfl
  have hholders : (h.hold handle (.cache r)).holders s =
      (h.hold handle (.cache r)).handlesOn s + h.underWayOn s + h.keptOf s := rfl
  rw [hholders, hhandles, holders, handlesOn, count_heldCache]
  omega

theorem holders_hold_listener (h : Hub ι κ ν ε ω) (handle : String) (l : Ref (Listener κ))
    (s : Subscriber ι κ ν ε ω) :
    (h.hold handle (.listener l)).holders s + (h.heldListener handle).count s =
      h.holders s + [Subscriber.listener l].count s := by
  have htotal := h.listenerHandles.total_put handle l fun l =>
    [(Subscriber.listener l : Subscriber ι κ ν ε ω)].count s
  have hhandles : (h.hold handle (.listener l)).handlesOn s =
      h.cacheHandles.total (fun r => [Subscriber.cache r].count s) +
        (h.listenerHandles.put handle l).total fun l => [Subscriber.listener l].count s := rfl
  have hholders : (h.hold handle (.listener l)).holders s =
      (h.hold handle (.listener l)).handlesOn s + h.underWayOn s + h.keptOf s := rfl
  rw [hholders, hhandles, holders, handlesOn, count_heldListener]
  omega

theorem holders_dropHandle (h : Hub ι κ ν ε ω) (handle : String) (s : Subscriber ι κ ν ε ω) :
    (h.dropHandle handle).2.holders s +
      (h.heldCache handle ++ h.heldListener handle).count s = h.holders s := by
  have hcaches := h.cacheHandles.total_erase handle fun r => [Subscriber.cache r].count s
  have hlisteners := h.listenerHandles.total_erase handle fun l =>
    [(Subscriber.listener l : Subscriber ι κ ν ε ω)].count s
  have hhandles : (h.dropHandle handle).2.handlesOn s =
      (h.cacheHandles.erase handle).total (fun r => [Subscriber.cache r].count s) +
        (h.listenerHandles.erase handle).total fun l => [Subscriber.listener l].count s := rfl
  have hholders : (h.dropHandle handle).2.holders s =
      (h.dropHandle handle).2.handlesOn s + h.underWayOn s + h.keptOf s := rfl
  rw [hholders, hhandles, holders, handlesOn, List.count_append, count_heldCache,
    count_heldListener]
  omega

theorem holders_keep (h : Hub ι κ ν ε ω) (slot name scope : String) (s : Subscriber ι κ ν ε ω) :
    (h.keep slot name scope).holders s + (h.keptUnder slot).count s =
      h.holders s + (h.subscribersTo name scope).1.count s := by
  have htotal := h.kept.total_put slot (h.subscribersTo name scope).1 (·.count s)
  have hholders : (h.keep slot name scope).holders s = h.handlesOn s + h.underWayOn s +
      (h.kept.put slot (h.subscribersTo name scope).1).total (·.count s) := rfl
  rw [hholders, holders, keptOf, count_keptUnder]
  omega

theorem holders_letGo (h : Hub ι κ ν ε ω) (slot : String) (s : Subscriber ι κ ν ε ω) :
    (h.letGo slot).holders s + (h.keptUnder slot).count s = h.holders s := by
  have htotal := h.kept.total_erase slot (·.count s)
  have hholders : (h.letGo slot).holders s =
      h.handlesOn s + h.underWayOn s + (h.kept.erase slot).total (·.count s) := rfl
  rw [hholders, holders, keptOf, count_keptUnder]
  omega

/-- What is under way on a cache refers to it, and to nobody else. -/
theorem Replaces.holders_eq {taken given : Nat} (replaces : h.Replaces r c' taken given h')
    (hc : h.caches.get? r = some c) (s : Subscriber ι κ ν ε ω) :
    h'.holders s + (if s = .cache r then c.underWay else 0) =
      h.holders s + if s = .cache r then c'.underWay else 0 := by
  have hothers : h'.handlesOn s + h'.keptOf s = h.handlesOn s + h.keptOf s := by
    rw [handlesOn, handlesOn, keptOf, keptOf, replaces.cacheHandles_eq,
      replaces.listenerHandles_eq, replaces.kept_eq]
  have hwork : h'.underWayOn s + (if s = .cache r then c.underWay else 0) =
      h.underWayOn s + if s = .cache r then c'.underWay else 0 := by
    cases s with
    | listener l => rfl
    | cache i =>
      rw [underWayOn, underWayOn, replaces.caches_eq]
      by_cases hi : i = r
      · subst hi
        rw [if_pos rfl, if_pos rfl, if_pos rfl, hc]
        exact Nat.add_comm ..
      · rw [if_neg hi, if_neg, if_neg]
        · exact fun heq => hi (Subscriber.cache.inj heq)
        · exact fun heq => hi (Subscriber.cache.inj heq)
  rw [holders, holders]
  omega

namespace Counted

theorem retainAll (counted : h.Counted []) (found : List (Subscriber ι κ ν ε ω)) :
    { h with references := h.references.retainAll found }.Counted found := by
  refine ⟨fun s => ?_, counted.leases⟩
  have hcount := counted.count_eq s
  rw [List.count_nil, Nat.add_zero] at hcount
  rw [References.count_retainAll, hcount]
  rfl

/-- As many references are given up as there are holders gone, or have come for those in `loose`. -/
theorem releaseAll {given loose' : List (Subscriber ι κ ν ε ω)} (counted : h.Counted loose)
    (references : h'.references = h.references.releaseAll given)
    (leases : ∀ {r c}, h'.caches.get? r = some c → c.LeasesHeld)
    (balance : ∀ s, h'.holders s + loose'.count s + given.count s =
      h.holders s + loose.count s) : h'.Counted loose' := by
  refine ⟨fun s => ?_, leases⟩
  have hbalance := balance s
  rw [references, References.count_releaseAll, counted.count_eq]
  omega

theorem hold (counted : h.Counted []) (handle : String) (s : Subscriber ι κ ν ε ω) :
    (h.hold handle s).Counted [] := by
  have hretained := counted.retainAll [s]
  cases s with
  | cache r =>
    exact hretained.releaseAll rfl counted.leases fun q => h.holders_hold_cache handle r q
  | listener l =>
    exact hretained.releaseAll rfl counted.leases fun q => h.holders_hold_listener handle l q

theorem addCache (counted : h.Counted []) (handle : String) (idle : c.underWay = 0)
    (leases : c.LeasesHeld) : (h.addCache handle c).Counted [] := by
  refine hold ⟨fun s => ?_, fun {r d} hd => ?_⟩ handle _
  · refine (counted.count_eq s).trans ?_
    have hwork : underWayOn { h with caches := h.caches.add c } s = h.underWayOn s := by
      cases s with
      | listener l => rfl
      | cache r =>
        rw [underWayOn, underWayOn, Arena.get?_add]
        split
        · rename_i hr
          rw [hr, Arena.get?_next]
          exact idle
        · rfl
    exact congrArg (h.handlesOn s + · + h.keptOf s + 0) hwork.symm
  · rw [Arena.get?_add] at hd
    split at hd
    · cases hd
      exact leases
    · exact counted.leases hd

theorem addListener (counted : h.Counted []) (handle : String) (l : Listener κ) :
    (h.addListener handle l).Counted [] :=
  hold (h := { h with listeners := h.listeners.add l }) ⟨counted.count_eq, counted.leases⟩ handle _

theorem dropHandle (counted : h.Counted []) (handle : String) :
    (h.dropHandle handle).2.Counted [] :=
  counted.releaseAll rfl counted.leases fun s => h.holders_dropHandle handle s

theorem subscribersTo (counted : h.Counted []) (name scope : String) :
    (h.subscribersTo name scope).2.Counted (h.subscribersTo name scope).1 :=
  have hretained := counted.retainAll (h.subscribersTo name scope).1
  ⟨hretained.count_eq, counted.leases⟩

theorem search (counted : h.Counted []) (name scope : String) :
    (h.search name scope).2.Counted [] :=
  (counted.subscribersTo name scope).releaseAll rfl counted.leases fun _ => rfl

theorem keep (counted : h.Counted []) (slot name scope : String) :
    (h.keep slot name scope).Counted [] :=
  (counted.subscribersTo name scope).releaseAll rfl counted.leases fun s =>
    h.holders_keep slot name scope s

theorem letGo (counted : h.Counted []) (slot : String) : (h.letGo slot).Counted [] :=
  counted.releaseAll rfl counted.leases fun s => h.holders_letGo slot s

theorem replaces {taken given : Nat} (counted : h.Counted loose)
    (replaces : h.Replaces r c' taken given h') (hc : h.caches.get? r = some c)
    (balance : c'.underWay + given = c.underWay + taken) (leases : c'.LeasesHeld) :
    h'.Counted loose := by
  refine ⟨fun s => ?_, fun {i d} hd => ?_⟩
  · have hbefore := counted.count_eq s
    have hholders := replaces.holders_eq hc s
    rw [replaces.references_eq]
    by_cases hs : s = .cache r
    · rw [if_pos hs, if_pos hs] at hholders
      rw [if_pos hs]
      omega
    · rw [if_neg hs, if_neg hs] at hholders
      rw [if_neg hs]
      omega
  · rw [replaces.caches_eq] at hd
    split at hd
    · rename_i hi
      rw [hi, hc] at hd
      cases hd
      exact leases
    · exact counted.leases hd

variable [DecidableEq ι] [DecidableEq κ] [DecidableEq ω]

theorem inform {t : Told ι κ ν ε ω} (counted : t.hub.Counted loose) (scope : String) (key : κ)
    (now : Instant) (s : Subscriber ι κ ν ε ω) :
    (inform scope key now t s).2.hub.Counted loose := by
  cases s with
  | listener l => exact ⟨counted.count_eq, counted.leases⟩
  | cache r =>
    rcases hub_inform_cache scope key now t r with ⟨eq, -⟩ | ⟨c, s, hc, reaction, -, eq⟩
    · rw [eq]
      exact counted
    · have hleases := counted.leases hc
      rw [eq]
      exact counted.replaces (replaces_replace ..) hc (Cache.underWay_change hleases reaction)
        (hleases.change reaction)

theorem tell {t : Told ι κ ν ε ω} {s : Subscriber ι κ ν ε ω} (counted : t.hub.Counted (s :: loose))
    (scope : String) (key : κ) (now : Instant) :
    (tell scope key now t s).2.hub.Counted loose := by
  have hinformed := counted.inform scope key now s
  have hreleased : (Hub.tell scope key now t s).2.hub.references =
      (Hub.inform scope key now t s).2.hub.references.releaseAll [s] := rfl
  refine hinformed.releaseAll hreleased hinformed.leases fun q => ?_
  rw [List.count_cons, List.count_cons, List.count_nil, Nat.zero_add, Nat.add_assoc]
  rfl

theorem deliver {t : Told ι κ ν ε ω} {found : List (Subscriber ι κ ν ε ω)}
    (counted : t.hub.Counted found) (scope : String) (key : κ) (now : Instant) :
    (deliver (Hub.tell scope key now) found t).2.hub.Counted [] := by
  induction found generalizing t with
  | nil => exact counted
  | cons s found ih => exact ih (counted.tell scope key now)

theorem deliverLocally (counted : h.Counted []) (registry scope : String) (key : κ)
    (now : Instant) : (h.deliverLocally registry scope key now).2.hub.Counted [] :=
  (counted.subscribersTo registry scope).deliver (t := { hub := (h.subscribersTo registry scope).2 })
    scope key now

end Counted

theorem counted_start (now : Instant) : (start now : Clocked (Hub ι κ ν ε ω)).state.Counted [] where
  count_eq s := by
    cases s with
    | cache r =>
      have hcaches : (start now : Clocked (Hub ι κ ν ε ω)).state.caches.get? r = none :=
        Arena.get?_empty r
      rw [holders, underWayOn, hcaches]
      rfl
    | listener l => rfl
  leases {r c} hc := by
    have hcaches : (start now : Clocked (Hub ι κ ν ε ω)).state.caches.get? r = none :=
      Arena.get?_empty r
    rw [hcaches] at hc
    cases hc

variable [DecidableEq ι] [DecidableEq κ] [DecidableEq ω]

/-- Whatever happens to a hub, the references are those of the holders. -/
theorem counted_step {t : Clocked (Hub ι κ ν ε ω)} (counted : t.state.Counted [])
    (e : HubEvent ι κ ν ε ω) : (step t e).state.Counted [] := by
  cases e with
  | setUp handle origin => exact counted.addCache handle rfl (Cache.leasesHeld_start origin)
  | listen handle listener => exact counted.addListener handle listener
  | hold handle s =>
    rw [step]
    split
    · exact counted.hold handle s
    · exact counted
  | drop handle => exact counted.dropHandle handle
  | register registry s =>
    rw [step]
    split
    · exact ⟨counted.count_eq, counted.leases⟩
    · exact counted
  | setUpBroadcaster name registry peers => exact ⟨counted.count_eq, counted.leases⟩
  | announce name scope key =>
    simp only [step]
    split
    · rename_i b hb
      have hdelivered := counted.deliverLocally b.registry scope key t.now
      exact ⟨hdelivered.count_eq, hdelivered.leases⟩
    · exact counted
  | relay name scope key =>
    simp only [step]
    split
    · exact counted.deliverLocally _ scope key t.now
    · exact counted
  | fetch name =>
    simp only [step, fetchPublished]
    split
    · exact counted
    · exact ⟨counted.count_eq, counted.leases⟩
  | search registry scope => exact counted.search registry scope
  | keep slot registry scope => exact counted.keep slot registry scope
  | letGo slot => exact counted.letGo slot
  | ofCache r e =>
    simp only [step]
    split
    · rename_i c hc
      split
      · have hleases := counted.leases hc
        obtain ⟨_, _, hreplaces, hbalance⟩ := exists_replaces hc t.now e
        exact counted.replaces hreplaces hc (hbalance hleases)
          ((Cache.effect_perform ⟨t.now, c⟩ e).leasesHeld hleases)
      · exact counted
    · exact counted
  | advance elapsed => exact counted

theorem Counted.foldl {t : Clocked (Hub ι κ ν ε ω)} (counted : t.state.Counted [])
    (events : List (HubEvent ι κ ν ε ω)) : (events.foldl step t).state.Counted [] := by
  induction events generalizing t with
  | nil => exact counted
  | cons e events ih => exact ih (counted_step counted e)

theorem counted_run (now : Instant) (events : List (HubEvent ι κ ν ε ω)) :
    (events.foldl step (start now)).state.Counted [] :=
  (counted_start now).foldl events

end Counts

section Owners

/-- Something that may refer to a subscriber. -/
inductive Owner (ι κ ν ε ω : Type) where
  | handle (name : String)
  | work (r : Ref (Cache ι κ ν ε ω)) (w : Cache.Work ι)
  | search (slot : String)

variable [DecidableEq ι]

/-- Who refers to whom. A name may stand for a cache and for a listener. -/
inductive Owns (h : Hub ι κ ν ε ω) : Owner ι κ ν ε ω → Subscriber ι κ ν ε ω → Prop where
  | cache {name : String} {r : Ref (Cache ι κ ν ε ω)} (held : h.cacheHandles.get? name = some r) :
      Owns h (.handle name) (.cache r)
  | listener {name : String} {l : Ref (Listener κ)} (held : h.listenerHandles.get? name = some l) :
      Owns h (.handle name) (.listener l)
  | work {r : Ref (Cache ι κ ν ε ω)} {c : Cache ι κ ν ε ω} {w : Cache.Work ι}
      (present : h.caches.get? r = some c) (underWay : c.isAt w = true) :
      Owns h (.work r w) (.cache r)
  | search {slot : String} {s : Subscriber ι κ ν ε ω} (kept : s ∈ h.keptUnder slot) :
      Owns h (.search slot) s

theorem handlesOn_pos_iff : 0 < h.handlesOn s ↔ ∃ name, h.Owns (.handle name) s := by
  have hcount : ∀ q : Subscriber ι κ ν ε ω, 0 < [q].count s ↔ s = q := by
    intro q
    rw [List.count_pos_iff, List.mem_singleton]
  simp only [handlesOn, Nat.add_pos_iff_pos_or_pos, Table.total_pos_iff, hcount]
  constructor
  · rintro (⟨name, r, held, rfl⟩ | ⟨name, l, held, rfl⟩)
    · exact ⟨name, .cache held⟩
    · exact ⟨name, .listener held⟩
  · rintro ⟨name, howns⟩
    cases howns with
    | cache held => exact .inl ⟨name, _, held, rfl⟩
    | listener held => exact .inr ⟨name, _, held, rfl⟩

theorem underWayOn_pos_iff : 0 < h.underWayOn s ↔ ∃ r w, h.Owns (.work r w) s := by
  constructor
  · intro hpos
    cases s with
    | listener l => exact absurd hpos (Nat.lt_irrefl 0)
    | cache r =>
      rw [underWayOn] at hpos
      cases hc : h.caches.get? r with
      | none =>
        rw [hc] at hpos
        exact absurd hpos (Nat.lt_irrefl 0)
      | some c =>
        rw [hc] at hpos
        obtain ⟨w, hw⟩ := Cache.underWay_pos_iff.mp hpos
        exact ⟨r, w, .work hc hw⟩
  · rintro ⟨r, w, howns⟩
    cases howns with
    | work hc hw =>
      rw [underWayOn, hc]
      exact Cache.underWay_pos_iff.mpr ⟨w, hw⟩

theorem keptOf_pos_iff : 0 < h.keptOf s ↔ ∃ slot, h.Owns (.search slot) s := by
  simp only [keptOf, Table.total_pos_iff, List.count_pos_iff]
  constructor
  · rintro ⟨slot, found, hfound, hs⟩
    refine ⟨slot, .search ?_⟩
    rw [keptUnder, Table.getD, hfound]
    exact hs
  · rintro ⟨slot, howns⟩
    cases howns with
    | search kept =>
      rw [keptUnder, Table.getD] at kept
      cases hfound : h.kept.get? slot with
      | none =>
        rw [hfound] at kept
        cases kept
      | some found =>
        rw [hfound] at kept
        exact ⟨slot, found, hfound, kept⟩

theorem holders_pos_iff : 0 < h.holders s ↔ ∃ o, h.Owns o s := by
  rw [holders, Nat.add_pos_iff_pos_or_pos, Nat.add_pos_iff_pos_or_pos, handlesOn_pos_iff,
    underWayOn_pos_iff, keptOf_pos_iff]
  constructor
  · rintro ((⟨name, howns⟩ | ⟨r, w, howns⟩) | ⟨slot, howns⟩)
    · exact ⟨_, howns⟩
    · exact ⟨_, howns⟩
    · exact ⟨_, howns⟩
  · rintro ⟨name | ⟨r, w⟩ | slot, howns⟩
    · exact .inl (.inl ⟨name, howns⟩)
    · exact .inl (.inr ⟨r, w, howns⟩)
    · exact .inr ⟨slot, howns⟩

theorem Counted.count_pos_iff (counted : h.Counted []) (s : Subscriber ι κ ν ε ω) :
    0 < h.references.count s ↔ ∃ o, h.Owns o s := by
  rw [counted.count_eq, List.count_nil, Nat.add_zero, holders_pos_iff]

theorem Counted.isSome_scopeOf_iff (counted : h.Counted []) (known : h.knows s = true) :
    (h.scopeOf s).isSome = true ↔ ∃ o, h.Owns o s :=
  (Hub.isSome_scopeOf_iff known).trans (counted.count_pos_iff s)

theorem owned_cache_iff (hc : h.caches.get? r = some c) : (∃ o, h.Owns o (.cache r)) ↔
    (∃ handle, h.cacheHandles.get? handle = some r) ∨
      (∃ w, c.isAt w = true) ∨ ∃ slot, .cache r ∈ h.keptUnder slot := by
  constructor
  · rintro ⟨o, howns⟩
    cases howns with
    | cache held => exact .inl ⟨_, held⟩
    | @work _ d w present underWay =>
      cases hc.symm.trans present
      exact .inr (.inl ⟨w, underWay⟩)
    | search kept => exact .inr (.inr ⟨_, kept⟩)
  · rintro (⟨handle, held⟩ | ⟨w, hw⟩ | ⟨slot, kept⟩)
    · exact ⟨_, .cache held⟩
    · exact ⟨_, .work hc hw⟩
    · exact ⟨_, .search kept⟩

theorem owns_dropHandle (h : Hub ι κ ν ε ω) (handle : String) (o : Owner ι κ ν ε ω)
    (s : Subscriber ι κ ν ε ω) :
    (h.dropHandle handle).2.Owns o s ↔ h.Owns o s ∧ o ≠ .handle handle := by
  have hcache : ∀ {name r}, (h.dropHandle handle).2.cacheHandles.get? name = some r ↔
      h.cacheHandles.get? name = some r ∧ name ≠ handle := Table.get?_erase_eq_some_iff
  have hlistener : ∀ {name l}, (h.dropHandle handle).2.listenerHandles.get? name = some l ↔
      h.listenerHandles.get? name = some l ∧ name ≠ handle := Table.get?_erase_eq_some_iff
  constructor
  · intro howns
    cases howns with
    | cache held =>
      obtain ⟨before, hne⟩ := hcache.mp held
      exact ⟨.cache before, fun heq => hne (Owner.handle.inj heq)⟩
    | listener held =>
      obtain ⟨before, hne⟩ := hlistener.mp held
      exact ⟨.listener before, fun heq => hne (Owner.handle.inj heq)⟩
    | work present underWay => exact ⟨.work present underWay, nofun⟩
    | search kept => exact ⟨.search kept, nofun⟩
  · rintro ⟨howns, hne⟩
    cases howns with
    | cache held => exact .cache (hcache.mpr ⟨held, fun heq => hne (congrArg _ heq)⟩)
    | listener held => exact .listener (hlistener.mpr ⟨held, fun heq => hne (congrArg _ heq)⟩)
    | work present underWay => exact .work present underWay
    | search kept => exact .search kept

omit [DecidableEq ι] in
theorem keptUnder_keep (h : Hub ι κ ν ε ω) (slot name scope : String) :
    (h.keep slot name scope).keptUnder slot = (h.subscribersTo name scope).1 := by
  have hkept : (h.keep slot name scope).kept =
      h.kept.put slot (h.subscribersTo name scope).1 := rfl
  rw [keptUnder, Table.getD, hkept, Table.get?_put_self, Option.getD_some]

omit [DecidableEq ι] in
theorem keptUnder_letGo (h : Hub ι κ ν ε ω) (slot other : String) :
    (h.letGo slot).keptUnder other = if other = slot then [] else h.keptUnder other := by
  have hkept : (h.letGo slot).keptUnder other = ((h.kept.erase slot).get? other).getD [] := rfl
  rw [hkept, Table.get?_erase]
  split <;> rfl

theorem owns_letGo (h : Hub ι κ ν ε ω) (slot : String) (o : Owner ι κ ν ε ω)
    (s : Subscriber ι κ ν ε ω) : (h.letGo slot).Owns o s ↔ h.Owns o s ∧ o ≠ .search slot := by
  constructor
  · intro howns
    cases howns with
    | cache held => exact ⟨.cache held, nofun⟩
    | listener held => exact ⟨.listener held, nofun⟩
    | work present underWay => exact ⟨.work present underWay, nofun⟩
    | @search other _ kept =>
      rw [keptUnder_letGo] at kept
      split at kept
      · cases kept
      · rename_i hne
        exact ⟨.search kept, fun heq => hne (Owner.search.inj heq)⟩
  · rintro ⟨howns, hne⟩
    cases howns with
    | cache held => exact .cache held
    | listener held => exact .listener held
    | work present underWay => exact .work present underWay
    | @search other _ kept =>
      refine .search ?_
      rw [keptUnder_letGo, if_neg fun heq => hne (congrArg Owner.search heq)]
      exact kept

theorem Replaces.owns_iff {taken given : Nat} {w : Cache.Work ι} {left : Option Nat}
    (replaces : h.Replaces r c' taken given h') (hc : h.caches.get? r = some c)
    (isAt_iff : ∀ v, c'.isAt v = true ↔
      c.isAt v = true ∧ v ≠ w ∨ ∃ number, left = some number ∧ v = .renewal number)
    (o : Owner ι κ ν ε ω) (s : Subscriber ι κ ν ε ω) :
    h'.Owns o s ↔ h.Owns o s ∧ o ≠ .work r w ∨
      left.map (fun number => .work r (.renewal number)) = some o ∧ s = .cache r := by
  have hkept : ∀ slot, h'.keptUnder slot = h.keptUnder slot := by
    intro slot
    rw [keptUnder, keptUnder, replaces.kept_eq]
  have hself : h'.caches.get? r = some c' := by
    rw [replaces.caches_eq, if_pos rfl, hc, Option.map_some]
  constructor
  · intro howns
    cases howns with
    | cache held => exact .inl ⟨.cache (replaces.cacheHandles_eq ▸ held), nofun⟩
    | listener held => exact .inl ⟨.listener (replaces.listenerHandles_eq ▸ held), nofun⟩
    | search kept => exact .inl ⟨.search (hkept _ ▸ kept), nofun⟩
    | @work i d v present underWay =>
      by_cases hi : i = r
      · subst hi
        cases hself.symm.trans present
        rcases (isAt_iff v).mp underWay with ⟨before, hne⟩ | ⟨number, hleft, rfl⟩
        · exact .inl ⟨.work hc before, fun heq => hne (Owner.work.inj heq).2⟩
        · exact .inr ⟨Option.map_eq_some_iff.mpr ⟨number, hleft, rfl⟩, rfl⟩
      · rw [replaces.caches_eq, if_neg hi] at present
        exact .inl ⟨.work present underWay, fun heq => hi (Owner.work.inj heq).1⟩
  · rintro (⟨howns, hne⟩ | ⟨hleft, rfl⟩)
    · cases howns with
      | cache held => exact .cache (replaces.cacheHandles_eq.symm ▸ held)
      | listener held => exact .listener (replaces.listenerHandles_eq.symm ▸ held)
      | search kept => exact .search ((hkept _).symm ▸ kept)
      | @work i d v present underWay =>
        by_cases hi : i = r
        · subst hi
          cases hc.symm.trans present
          have hv : v ≠ w := fun heq => hne (congrArg (Owner.work i) heq)
          exact .work hself ((isAt_iff v).mpr (.inl ⟨underWay, hv⟩))
        · refine .work (c := d) ?_ underWay
          rw [replaces.caches_eq, if_neg hi, present]
    · obtain ⟨number, hnumber, rfl⟩ := Option.map_eq_some_iff.mp hleft
      exact .work hself ((isAt_iff _).mpr (.inr ⟨number, hnumber, rfl⟩))

end Owners

section Changes

variable [DecidableEq ι] [DecidableEq κ] [DecidableEq ω] {t : Clocked (Hub ι κ ν ε ω)}
  {e : HubEvent ι κ ν ε ω} {o : Owner ι κ ν ε ω} {left : Option (Owner ι κ ν ε ω)}

theorem step_ofCache {e : CacheEvent ι κ ν ε ω} (hc : t.state.caches.get? r = some c)
    (permitted : t.state.permits r e = true) :
    (step t (.ofCache r e)).state = t.state.perform r c t.now e := by
  simp only [step, hc, permitted, if_true]

/-- The event is the beginning of something that refers to the subscriber from then on. -/
inductive Begins (t : Clocked (Hub ι κ ν ε ω)) :
    HubEvent ι κ ν ε ω → Owner ι κ ν ε ω → Subscriber ι κ ν ε ω → Prop where
  | setUp (handle : String) (origin : Cache.Origin κ) :
      Begins t (.setUp handle origin) (.handle handle) (.cache t.state.caches.next)
  | listen (handle : String) (listener : Listener κ) :
      Begins t (.listen handle listener) (.handle handle) (.listener t.state.listeners.next)
  | hold (handle : String) {s : Subscriber ι κ ν ε ω}
      (alive : (t.state.scopeOf s).isSome = true) : Begins t (.hold handle s) (.handle handle) s
  | keep (slot registry scope : String) {s : Subscriber ι κ ν ε ω}
      (found : s ∈ (t.state.subscribersTo registry scope).1) :
      Begins t (.keep slot registry scope) (.search slot) s
  | work {r : Ref (Cache ι κ ν ε ω)} {c : Cache ι κ ν ε ω} {e : CacheEvent ι κ ν ε ω}
      {w : Cache.Work ι} (present : t.state.caches.get? r = some c)
      (permitted : t.state.permits r e = true) (initiates : c.Initiates t.now e w) :
      Begins t (.ofCache r e) (.work r w) (.cache r)

theorem Begins.owns (begins : Begins t e o s) : (step t e).state.Owns o s := by
  cases begins with
  | setUp handle origin => exact .cache (Table.get?_put_self ..)
  | listen handle listener => exact .listener (Table.get?_put_self ..)
  | @hold handle s alive =>
    rw [step, if_pos alive]
    cases s with
    | cache r => exact .cache (Table.get?_put_self ..)
    | listener l => exact .listener (Table.get?_put_self ..)
  | @keep slot registry scope s found =>
    exact .search (keptUnder_keep t.state slot registry scope ▸ found)
  | @work r c e w present permitted initiates =>
    obtain ⟨_, _, hreplaces, -⟩ := exists_replaces present t.now e
    have hcache := hreplaces.caches_eq r
    rw [if_pos rfl, present, Option.map_some] at hcache
    rw [step_ofCache present permitted]
    exact .work hcache initiates.isAt

theorem Begins.knows (begins : Begins t e o s) : (step t e).state.knows s = true := by
  cases begins with
  | setUp handle origin => exact knows_of_cache (Arena.get?_add_next ..)
  | listen handle listener => exact knows_of_listener (Arena.get?_add_next ..)
  | @hold handle s alive =>
    obtain ⟨scope, hscope⟩ := Option.isSome_iff_exists.mp alive
    exact (onward_step t _).knows (knows_of_scopeOf hscope)
  | @keep slot registry scope s found =>
    exact (onward_step t _).knows (knows_of_scopeOf (scopeOf_of_found found))
  | work present => exact (onward_step t _).knows (knows_of_cache present)

/-- The event is the end of something that may refer to subscribers. A get that is over may leave a
renewal behind, which refers to the cache in its place. -/
inductive Ends (t : Clocked (Hub ι κ ν ε ω)) :
    HubEvent ι κ ν ε ω → Owner ι κ ν ε ω → Option (Owner ι κ ν ε ω) → Prop where
  | drop (handle : String) : Ends t (.drop handle) (.handle handle) none
  | letGo (slot : String) : Ends t (.letGo slot) (.search slot) none
  | work {r : Ref (Cache ι κ ν ε ω)} {c : Cache ι κ ν ε ω} {e : CacheEvent ι κ ν ε ω}
      {w : Cache.Work ι} {left : Option Nat} (present : t.state.caches.get? r = some c)
      (finishes : c.Finishes t.now e w left) :
      Ends t (.ofCache r e) (.work r w) (left.map fun number => .work r (.renewal number))

/-- Whatever comes to its end does not refer to anybody any more. All else does. -/
theorem Ends.owns_iff (ends : Ends t e o left) (counted : t.state.Counted [])
    (owns : t.state.Owns o s) (o' : Owner ι κ ν ε ω) (s' : Subscriber ι κ ν ε ω) :
    (step t e).state.Owns o' s' ↔
      t.state.Owns o' s' ∧ o' ≠ o ∨ left = some o' ∧ t.state.Owns o s' := by
  cases ends with
  | drop handle =>
    refine (t.state.owns_dropHandle handle o' s').trans ?_
    simp
  | letGo slot =>
    refine (t.state.owns_letGo slot o' s').trans ?_
    simp
  | @work r c e w left present finishes =>
    obtain rfl : s = .cache r := by
      cases owns
      rfl
    have halive : t.state.isAlive (.cache r) = true :=
      decide_eq_true ((counted.count_pos_iff _).mpr ⟨_, owns⟩)
    have hpermits : t.state.permits r e = true := by
      cases finishes <;> exact Bool.and_eq_true_iff.mpr ⟨halive, rfl⟩
    obtain ⟨_, _, hreplaces, -⟩ := exists_replaces present t.now e
    have hself : t.state.Owns (.work r w) s' ↔ s' = .cache r := by
      constructor
      · intro howns
        cases howns
        rfl
      · rintro rfl
        exact owns
    rw [step_ofCache present hpermits, hreplaces.owns_iff present finishes.isAt_iff, hself]

theorem Ends.dead (ends : Ends t e o none) (counted : t.state.Counted [])
    (owns : t.state.Owns o s) (sole : ∀ o', t.state.Owns o' s → o' = o) :
    (step t e).state.references.count s = 0 := by
  rw [← Nat.le_zero, ← Nat.not_lt, (counted_step counted e).count_pos_iff]
  rintro ⟨o', howns⟩
  rcases (ends.owns_iff counted owns o' s).mp howns with ⟨before, hne⟩ | ⟨hleft, -⟩
  · exact hne (sole o' before)
  · cases hleft

end Changes

end ReadThrough.Hub
