import ReadThrough.Proofs.Hub.Owners

/-!
# Purging is invisible

Whatever happens to a hub, its registries answer as if none of them had ever dropped a registration.
A registration keeps nobody alive. A cache that nobody has a handle on any more is still found while
something is under way on it, and never again after that.
-/

namespace ReadThrough.Hub

variable {ι κ ν ε ω : Type} {h h' : Hub ι κ ν ε ω} {name : String} {s : Subscriber ι κ ν ε ω}
  {log : List (Subscriber ι κ ν ε ω)}

section Records

/-- What an event registers under this name. -/
def enrols (name : String) (t : Clocked (Hub ι κ ν ε ω)) :
    HubEvent ι κ ν ε ω → List (Subscriber ι κ ν ε ω)
  | .register registry s => if registry = name ∧ t.state.knows s = true then [s] else []
  | _ => []

theorem enrols_cases (name : String) (t : Clocked (Hub ι κ ν ε ω)) (e : HubEvent ι κ ν ε ω) :
    enrols name t e = [] ∨
      ∃ s, e = .register name s ∧ t.state.knows s = true ∧ enrols name t e = [s] := by
  cases e with
  | register registry s =>
    by_cases h : registry = name ∧ t.state.knows s = true
    · obtain ⟨rfl, known⟩ := h
      exact .inr ⟨s, rfl, known, if_pos ⟨rfl, known⟩⟩
    · exact .inl (if_neg h)
  | _ => exact .inl rfl

/-- The registry of this name is what is left of all its registrations. -/
structure Recorded (h : Hub ι κ ν ε ω) (name : String) (log : List (Subscriber ι κ ν ε ω)) :
    Prop where
  known : ∀ s ∈ log, h.knows s = true
  sublist : (h.registry name).registered.Sublist log
  living : Registry.SameLiving ⟨log⟩ (h.registry name) h.scopeOf

/-- Those who have died meanwhile are not alive in either list. -/
theorem Recorded.onward (recorded : h.Recorded name log) (onward : h.Onward h')
    (same : h'.registry name = h.registry name) : h'.Recorded name log where
  known s hs := onward.knows (recorded.known s hs)
  sublist := same ▸ recorded.sublist
  living := by
    have hfilter : ∀ r : Registry (Subscriber ι κ ν ε ω), r.registered ⊆ log →
        r.living h'.scopeOf = (r.living h.scopeOf).filter fun s => (h'.scopeOf s).isSome := by
      intro r hr
      rw [Registry.living, Registry.living, List.filter_filter]
      apply List.filter_congr
      intro s hs
      cases hscope : h'.scopeOf s with
      | none => rfl
      | some scope =>
        rw [onward.scopeOf (recorded.known s (hr hs)) hscope]
        rfl
    rw [Registry.SameLiving, same, hfilter _ recorded.sublist.subset, recorded.living,
      ← hfilter _ (List.Subset.refl _)]

theorem registry_register (h : Hub ι κ ν ε ω) (registry name : String)
    (s : Subscriber ι κ ν ε ω) : (h.register registry s).registry name =
      if name = registry then (h.registry name).register s else h.registry name := by
  rw [Hub.registry, Table.getD, register, Table.get?_put]
  split
  · rename_i hname
    rw [hname]
    rfl
  · rfl

theorem registry_subscribersTo (h : Hub ι κ ν ε ω) (registry scope name : String) :
    (h.subscribersTo registry scope).2.registry name =
      if name = registry then ((h.registry name).subscribersTo h.scopeOf scope).2
      else h.registry name := by
  have hput : (h.subscribersTo registry scope).2.registries =
      h.registries.put registry ((h.registry registry).subscribersTo h.scopeOf scope).2 := rfl
  rw [Hub.registry, Table.getD, hput, Table.get?_put]
  split
  · rename_i hname
    rw [hname]
    rfl
  · rfl

theorem Recorded.register (recorded : h.Recorded name log) (known : h.knows s = true) :
    (h.register name s).Recorded name (log ++ [s]) := by
  have hregistry := registry_register h name name s
  rw [if_pos rfl] at hregistry
  refine ⟨fun x hx => ?_, ?_, ?_⟩
  · rcases List.mem_append.mp hx with hx | hx
    · exact recorded.known x hx
    · rw [List.mem_singleton.mp hx]
      exact known
  · rw [hregistry]
    exact recorded.sublist.append_right [s]
  · have hliving : ∀ r : Registry (Subscriber ι κ ν ε ω), (r.register s).living h.scopeOf =
        r.living h.scopeOf ++ [s].filter fun s => (h.scopeOf s).isSome :=
      fun _ => List.filter_append ..
    have hsame := congrArg (· ++ [s].filter fun s => (h.scopeOf s).isSome) recorded.living
    rw [Registry.SameLiving, hregistry]
    exact (hliving _).trans (hsame.trans (hliving ⟨log⟩).symm)

theorem Recorded.found_eq (recorded : h.Recorded name log) (scope : String) :
    (h.subscribersTo name scope).1 = log.filter fun s => h.scopeOf s = some scope :=
  (recorded.living.subscribersTo_eq scope).trans (Registry.fst_subscribersTo ..)

theorem scopeOf_subscribersTo (h : Hub ι κ ν ε ω) (registry scope : String) :
    (h.subscribersTo registry scope).2.scopeOf = h.scopeOf := by
  funext s
  have halive : (h.subscribersTo registry scope).2.isAlive s = h.isAlive s := by
    have hcount : (h.subscribersTo registry scope).2.references.count s = _ :=
      h.references.count_retainAll (h.subscribersTo registry scope).1 s
    rw [isAlive, isAlive, decide_eq_decide]
    constructor
    · intro halive
      exact Nat.pos_of_ne_zero fun dead =>
        halive.ne' (count_subscribersTo_of_dead dead registry scope)
    · intro halive
      rw [hcount]
      exact Nat.add_pos_left halive _
  unfold scopeOf
  rw [halive]
  rfl

/-- A search drops the dead alone. -/
theorem Recorded.search (recorded : h.Recorded name log) (registry scope : String) :
    (h.subscribersTo registry scope).2.Recorded name log := by
  have hpurged := (h.registry name).purged_subscribersTo h.scopeOf scope
  have hregistry := registry_subscribersTo h registry scope name
  refine ⟨recorded.known, ?_, ?_⟩
  · rw [hregistry]
    split
    · exact hpurged.sublist.trans recorded.sublist
    · exact recorded.sublist
  · rw [Registry.SameLiving, hregistry, scopeOf_subscribersTo]
    split
    · exact hpurged.living.trans recorded.living
    · exact recorded.living

variable [DecidableEq ι] [DecidableEq κ] [DecidableEq ω]

theorem Recorded.deliver (recorded : h.Recorded name log) (registry scope : String) (key : κ)
    (now : Instant) : (h.deliverLocally registry scope key now).2.hub.Recorded name log := by
  have hreached := reached_deliverLocally h registry scope key now
  refine (recorded.search registry scope).onward (hreached.onward fun _ => count_pos_of_found) ?_
  rw [Hub.registry, hreached.registries_eq]
  rfl

theorem Recorded.step_of_silent {t : Clocked (Hub ι κ ν ε ω)} (recorded : t.state.Recorded name log)
    {e : HubEvent ι κ ν ε ω} (silent : enrols name t e = []) :
    (step t e).state.Recorded name log := by
  have honward := onward_step t e
  cases e with
  | register registry s =>
    rw [step]
    split
    · rename_i known
      have hname : registry ≠ name := by
        rintro rfl
        rw [enrols, if_pos ⟨rfl, known⟩] at silent
        cases silent
      have hother := registry_register t.state registry name s
      rw [if_neg (Ne.symm hname)] at hother
      exact recorded.onward (onward_of_count rfl rfl fun _ => id) hother
    · exact recorded
  | search registry scope =>
    exact (recorded.search registry scope).onward
      (onward_of_count rfl rfl fun _ hs => count_releaseAll_of_dead hs _) rfl
  | keep slot registry scope =>
    exact (recorded.search registry scope).onward
      (onward_of_count rfl rfl fun _ hs => count_releaseAll_of_dead hs _) rfl
  | announce broadcaster scope key =>
    simp only [step]
    split
    · rename_i b hb
      exact (recorded.deliver b.registry scope key t.now).onward
        (onward_of_count rfl rfl fun _ => id) rfl
    · exact recorded
  | relay broadcaster scope key =>
    simp only [step]
    split
    · exact recorded.deliver _ scope key t.now
    · exact recorded
  | hold handle s =>
    refine recorded.onward honward ?_
    rw [step]
    split
    · cases s <;> rfl
    · rfl
  | fetch broadcaster =>
    refine recorded.onward honward ?_
    simp only [step, fetchPublished]
    split <;> rfl
  | ofCache r e =>
    refine recorded.onward honward ?_
    simp only [step]
    split
    · rename_i c hc
      split
      · obtain ⟨_, _, hreplaces, -⟩ := exists_replaces hc t.now e
        rw [Hub.registry, Hub.registry, hreplaces.registries_eq]
      · rfl
    · rfl
  | _ => exact recorded.onward honward rfl

theorem recorded_step {t : Clocked (Hub ι κ ν ε ω)} (recorded : t.state.Recorded name log)
    (e : HubEvent ι κ ν ε ω) : (step t e).state.Recorded name (log ++ enrols name t e) := by
  rcases enrols_cases name t e with silent | ⟨s, rfl, known, henrols⟩
  · rw [silent, List.append_nil]
    exact recorded.step_of_silent silent
  · rw [henrols, step, if_pos known]
    exact recorded.register known

theorem recorded_run (now : Instant) (events : List (HubEvent ι κ ν ε ω)) (name : String) :
    (events.foldl step (start now)).state.Recorded name
      (gathered step (enrols name) (start now) events) := by
  induction events using List.reverseRecOn with
  | nil => exact ⟨fun s hs => (nomatch hs), .slnil, rfl⟩
  | append_singleton events e ih =>
    rw [gathered_concat, List.foldl_append]
    exact recorded_step ih e

end Records

variable [DecidableEq ι] [DecidableEq κ] [DecidableEq ω]

/-- What registries answer about those who have been registered, as `log` has it, and who is alive.
A cache or listener is alive as long as somebody refers to it, and listens to the same scope all the
time. Once the last one that refers to it has come to its end, it is never found again, and nothing
happens to it any more. -/
structure PurgesInvisibly (t : Clocked (Hub ι κ ν ε ω))
    (log : String → List (Subscriber ι κ ν ε ω)) : Prop where
  found : ∀ name scope, (t.state.subscribersTo name scope).1 =
    (log name).filter fun s => t.state.scopeOf s = some scope
  size : ∀ name, (t.state.registry name).size t.state.scopeOf =
    (log name).countP fun s => (t.state.scopeOf s).isSome
  isEmpty : ∀ name, (t.state.registry name).isEmpty t.state.scopeOf = true ↔
    ∀ s ∈ log name, t.state.scopeOf s = none
  scopes_ascending : ∀ name,
    ((t.state.registry name).livingScopes t.state.scopeOf).Pairwise (· < ·)
  mem_scopes : ∀ name scope, scope ∈ (t.state.registry name).livingScopes t.state.scopeOf ↔
    ∃ s ∈ log name, t.state.scopeOf s = some scope
  purged : ∀ name scope, (t.state.registry name).Purged
    ((t.state.subscribersTo name scope).2.registry name) t.state.scopeOf
  others : ∀ name scope other, other ≠ name →
    (t.state.subscribersTo name scope).2.registry other = t.state.registry other
  known : ∀ name, ∀ s ∈ log name, t.state.knows s = true
  cache_scope : ∀ r c scope, t.state.caches.get? r = some c →
    t.state.scopeOf (.cache r) = some scope → scope = c.scope
  count_eq : ∀ s, t.state.references.count s = t.state.holders s
  alive_iff : ∀ s, t.state.knows s = true →
    ((t.state.scopeOf s).isSome = true ↔ ∃ o, t.state.Owns o s)
  unheld : ∀ name r c, t.state.caches.get? r = some c → .cache r ∈ log name →
    (∀ handle, t.state.cacheHandles.get? handle ≠ some r) →
      (.cache r ∈ (t.state.subscribersTo name c.scope).1 ↔
        (∃ w, c.isAt w = true) ∨ ∃ slot, .cache r ∈ t.state.keptUnder slot)
  begun : ∀ e o s, Begins t e o s →
    (step t e).state.Owns o s ∧ ((step t e).state.scopeOf s).isSome = true
  ended : ∀ e o left s, Ends t e o left → t.state.Owns o s → ∀ o' s',
    ((step t e).state.Owns o' s' ↔
      t.state.Owns o' s' ∧ o' ≠ o ∨ left = some o' ∧ t.state.Owns o s')
  outlived : ∀ (events : List (HubEvent ι κ ν ε ω)) s, t.state.knows s = true →
    (∃ o, (events.foldl step t).state.Owns o s) →
      (t.state.scopeOf s).isSome = true ∧
        (events.foldl step t).state.scopeOf s = t.state.scopeOf s
  orphaned : ∀ e o s, t.state.knows s = true → Ends t e o none → t.state.Owns o s →
    (∀ o', t.state.Owns o' s → o' = o) → ∀ events : List (HubEvent ι κ ν ε ω),
      let after := events.foldl step (step t e)
      after.state.scopeOf s = none ∧
        ∀ name scope, s ∉ (after.state.subscribersTo name scope).1
  dead : ∀ (events : List (HubEvent ι κ ν ε ω)) r c, t.state.caches.get? r = some c →
    t.state.scopeOf (.cache r) = none →
    (events.foldl step t).state.scopeOf (.cache r) = none ∧
      (events.foldl step t).state.caches.get? r = some c
  dead_listener : ∀ (events : List (HubEvent ι κ ν ε ω)) l x, t.state.listeners.get? l = some x →
    t.state.scopeOf (.listener l) = none →
      (events.foldl step t).state.scopeOf (.listener l) = none ∧
        (events.foldl step t).state.listeners.get? l = some x

section Runs

variable {t : Clocked (Hub ι κ ν ε ω)}

/-- Whatever happens to a hub, nothing that its registries answer depends on what they have
dropped, and nobody lives longer for being registered. -/
theorem purges_invisibly (now : Instant) (events : List (HubEvent ι κ ν ε ω)) :
    PurgesInvisibly (events.foldl step (start now))
      fun name => gathered step (enrols name) (start now) events := by
  have hrecorded := recorded_run now events
  have hcounted := counted_run now events
  generalize events.foldl step (start now) = t at hrecorded hcounted
  generalize hlog : (fun name => gathered step (enrols name) (start now) events) = log
  -- The log still has the dead that searches have dropped, so the two agree about the living alone.
  have hliving : ∀ name,
      Registry.SameLiving ⟨log name⟩ (t.state.registry name) t.state.scopeOf := by
    intro name
    rw [← hlog]
    exact (hrecorded name).living
  have hfound : ∀ name scope, (t.state.subscribersTo name scope).1 =
      (log name).filter fun s => t.state.scopeOf s = some scope := by
    intro name scope
    rw [← hlog]
    exact (hrecorded name).found_eq scope
  constructor
  case found => exact hfound
  case size =>
    intro name
    rw [(hliving name).size_eq, List.countP_eq_length_filter]
    rfl
  case isEmpty =>
    intro name
    rw [(hliving name).isEmpty_eq, Registry.isEmpty, beq_iff_eq, Registry.size,
      List.length_eq_zero_iff, Registry.living, List.filter_eq_nil_iff]
    simp
  case scopes_ascending =>
    intro name
    exact (Registry.livingScopes_spec _ _).1
  case mem_scopes =>
    intro name scope
    rw [(hliving name).livingScopes_eq]
    exact (Registry.livingScopes_spec _ _).2 scope
  case purged =>
    intro name scope
    rw [registry_subscribersTo, if_pos rfl]
    exact Registry.purged_subscribersTo _ _ scope
  case others =>
    intro name scope other hne
    rw [registry_subscribersTo, if_neg hne]
  case known =>
    intro name s hs
    rw [← hlog] at hs
    exact (hrecorded name).known s hs
  case cache_scope =>
    intro r c scope hc hscope
    rw [scopeOf_cache hc (count_pos_of_scopeOf hscope)] at hscope
    exact (Option.some.inj hscope).symm
  case count_eq => exact fun s => hcounted.count_eq s
  case alive_iff => exact fun s known => hcounted.isSome_scopeOf_iff known
  case unheld =>
    intro name r c hc hmem unheld
    have howned : (∃ o, t.state.Owns o (.cache r)) ↔
        (∃ w, c.isAt w = true) ∨ ∃ slot, .cache r ∈ t.state.keptUnder slot :=
      (owned_cache_iff hc).trans (or_iff_right (not_exists.mpr unheld))
    rw [hfound, List.mem_filter, and_iff_right hmem, decide_eq_true_eq, ← howned,
      ← hcounted.count_pos_iff]
    exact ⟨count_pos_of_scopeOf, scopeOf_cache hc⟩
  case begun =>
    intro e o s begins
    have howns := begins.owns
    exact ⟨howns, ((counted_step hcounted e).isSome_scopeOf_iff begins.knows).mpr ⟨o, howns⟩⟩
  case ended => exact fun e o left s ends owns => ends.owns_iff hcounted owns
  case outlived =>
    intro events s known howned
    have honward := onward_foldl t events
    have hafter := (hcounted.foldl events).isSome_scopeOf_iff (honward.knows known)
    obtain ⟨scope, hscope⟩ := Option.isSome_iff_exists.mp (hafter.mpr howned)
    have hbefore := honward.scopeOf known hscope
    rw [hbefore, hscope]
    exact ⟨rfl, rfl⟩
  case orphaned =>
    intro e o s known ends owns sole events after
    have hdead := (onward_foldl (step t e) events).dead ((onward_step t e).knows known)
      (ends.dead hcounted owns sole)
    refine ⟨scopeOf_of_dead hdead, fun name scope hs => ?_⟩
    exact (count_pos_of_scopeOf (scopeOf_of_found hs)).ne' hdead
  case dead =>
    intro events r c hc hnone
    have honward := onward_foldl t events
    have known := knows_of_cache hc
    exact ⟨honward.scopeOf_eq_none known hnone,
      honward.dead_cache hc (count_eq_zero_of_scopeOf known hnone)⟩
  case dead_listener =>
    intro events l x hx hnone
    have honward := onward_foldl t events
    have known := knows_of_listener hx
    exact ⟨honward.scopeOf_eq_none known hnone,
      honward.dead_listener hx (count_eq_zero_of_scopeOf known hnone)⟩

end Runs

end ReadThrough.Hub
