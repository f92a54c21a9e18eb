import ReadThrough.Proofs.Hub.Publications
import ReadThrough.Proofs.Hub.Purging

/-!
# How far a change goes

A change reaches each living subscriber of its scope once for each registration, in the order of the
registrations, and nobody else, whatever any of them makes of it. If it has been made here, it is
published after that, once, and whatever came of it; if a peer has published it, it goes no further.
-/

namespace ReadThrough

def Manner.verdict : Manner → Verdict
  | .accepts => .accepted
  | .refuses => .refused "listener refused"
  | .crashes => .crashed

/-- A cache accepts each change that it does not crash over. -/
def Cache.verdict {ι κ ν ε ω : Type} [DecidableEq κ] (c : Cache ι κ ν ε ω) (key : κ)
    (now : Instant) : Verdict :=
  if (c.change key now).isSome then .accepted else .crashed

namespace Hub

variable {ι κ ν ε ω : Type} [DecidableEq ι] [DecidableEq κ] [DecidableEq ω]
  {h h' : Hub ι κ ν ε ω} {told found : List (Subscriber ι κ ν ε ω)} {scope : String} {key : κ}
  {now : Instant}

section Verdicts

/-- What a subscriber makes of a change. -/
def verdictOf (h : Hub ι κ ν ε ω) (key : κ) (now : Instant) : Subscriber ι κ ν ε ω → Verdict
  | .cache r => ((h.caches.get? r).map fun c => c.verdict key now).getD .accepted
  | .listener r => ((h.listeners.get? r).map fun x => x.manner.verdict).getD .accepted

omit [DecidableEq ι] [DecidableEq ω] in
theorem fst_tell (scope : String) (key : κ) (now : Instant) (t : Told ι κ ν ε ω)
    (s : Subscriber ι κ ν ε ω) : (tell scope key now t s).1 = t.hub.verdictOf key now s := by
  cases s with
  | cache r =>
    simp only [tell, inform, tellCache, verdictOf]
    cases t.hub.caches.get? r with
    | none => rfl
    | some c =>
      simp only [Cache.verdict, Option.map_some, Option.getD_some]
      cases c.change key now <;> rfl
  | listener r =>
    simp only [tell, inform, tellListener, verdictOf]
    cases t.hub.listeners.get? r with
    | none => rfl
    | some x =>
      simp only [Option.map_some, Option.getD_some]
      cases x.manner <;> rfl

/-- Whoever is told of a change again, after himself or others, makes of it what he has made of it
before. -/
theorem Reached.verdictOf_eq (reached : h.Reached told key now h') (s : Subscriber ι κ ν ε ω) :
    h'.verdictOf key now s = h.verdictOf key now s := by
  cases s with
  | cache r =>
    rw [verdictOf, verdictOf, reached.caches_eq]
    cases h.caches.get? r with
    | none => rfl
    | some c =>
      apply hearing_of_preserved (motive := fun d => d.verdict key now = c.verdict key now)
      · intro d s same reaction
        rw [← same, Cache.verdict, Cache.verdict, Cache.isSome_change_again reaction]
      · rfl
  | listener r =>
    rw [verdictOf, verdictOf, reached.listeners_eq]
    cases h.listeners.get? r <;> rfl

theorem fst_deliver (scope : String) (key : κ) (now : Instant)
    (found : List (Subscriber ι κ ν ε ω)) (t : Told ι κ ν ε ω) :
    (deliver (tell scope key now) found t).1 =
      found.map fun s => (s, t.hub.verdictOf key now s) := by
  induction found generalizing t with
  | nil => rfl
  | cons s found ih =>
    -- The rest is told in the state that `s` has left, in which nobody has changed his mind.
    have hreached := reached_tell scope key now t s
    rw [deliver, List.map_cons]
    refine congrArg₂ List.cons (congrArg (Prod.mk s) (fst_tell ..)) ((ih _).trans ?_)
    simp only [hreached.verdictOf_eq]

end Verdicts

section Deliveries

omit [DecidableEq ι] [DecidableEq ω] in
theorem acts_tell (scope : String) (key : κ) (now : Instant) (t : Told ι κ ν ε ω)
    (s : Subscriber ι κ ν ε ω) : (tell scope key now t s).2.acts = t.acts ++ [.tell s scope key] := by
  have hinform : (inform scope key now t s).2.acts = t.acts := by
    cases s with
    | listener l => rfl
    | cache r =>
      simp only [inform]
      cases t.hub.tellCache r key now <;> rfl
  rw [← hinform]
  rfl

omit [DecidableEq ι] [DecidableEq ω] in
theorem acts_deliver (scope : String) (key : κ) (now : Instant)
    (found : List (Subscriber ι κ ν ε ω)) (t : Told ι κ ν ε ω) :
    (deliver (tell scope key now) found t).2.acts =
      t.acts ++ found.map fun s => .tell s scope key := by
  induction found generalizing t with
  | nil => exact (List.append_nil _).symm
  | cons s found ih =>
    refine (ih (tell scope key now t s).2).trans ?_
    rw [acts_tell, List.append_assoc, List.map_cons]
    rfl

/-- The state in which everybody has been told in turn, from the first to the last. -/
def tellAll (scope : String) (key : κ) (now : Instant) (told : List (Subscriber ι κ ν ε ω))
    (t : Told ι κ ν ε ω) : Told ι κ ν ε ω :=
  told.foldl (fun t s => (tell scope key now t s).2) t

/-- What comes of a change that is delivered to `told`, who are alive and of its scope. Apart from
the registrations that the search has dropped, what everybody has been told is all that has
changed. -/
structure Delivers (h : Hub ι κ ν ε ω) (registry scope : String) (key : κ) (now : Instant)
    (told : List (Subscriber ι κ ν ε ω))
    (outcome : List (Subscriber ι κ ν ε ω × Verdict) × Told ι κ ν ε ω) : Prop where
  verdicts_eq : outcome.1 = told.map fun s => (s, h.verdictOf key now s)
  accepted_eq : accepted outcome.1 = told.countP fun s => h.verdictOf key now s = .accepted
  reached : (h.subscribersTo registry scope).2.Reached told key now outcome.2.hub
  told_eq : outcome.2 =
    let t := tellAll scope key now told { hub := (h.subscribersTo registry scope).2 }
    { t with notices := t.notices ++ [.delivered scope key (accepted outcome.1)] }
  acts_eq : outcome.2.acts = told.map fun s => .tell s scope key

theorem delivers (h : Hub ι κ ν ε ω) (registry scope : String) (key : κ) (now : Instant) :
    h.Delivers registry scope key now (h.subscribersTo registry scope).1
      (h.deliverLocally registry scope key now) := by
  have hverdicts : (h.deliverLocally registry scope key now).1 = _ :=
    fst_deliver scope key now _ { hub := (h.subscribersTo registry scope).2 }
  constructor
  case verdicts_eq => exact hverdicts
  case accepted_eq =>
    rw [hverdicts, accepted, List.countP_map]
    rfl
  case reached => exact reached_deliverLocally h registry scope key now
  case told_eq =>
    have htold := snd_deliver (tell scope key now) (h.subscribersTo registry scope).1
      { hub := (h.subscribersTo registry scope).2 }
    rw [tellAll, ← htold]
    rfl
  case acts_eq => exact acts_deliver scope key now _ { hub := (h.subscribersTo registry scope).2 }

end Deliveries

section Announcements

/-- What announcing a change does beyond delivering it. However publishing it ends, nothing of that
is undone, and a crash over it is passed on. -/
structure Announces (h : Hub ι κ ν ε ω) (name : String) (b : Broadcaster κ) (scope : String)
    (key : κ) (now : Instant) : Prop where
  verdicts_eq : (h.announce name b scope key now).verdicts = (h.relay b scope key now).1
  hub_eq : ∃ b', b.Published b' [(scope, key)] [] ∧ (h.announce name b scope key now).told.hub =
    { (h.relay b scope key now).2.hub with broadcasters := h.broadcasters.put name b' }
  acts_eq : (h.announce name b scope key now).told.acts =
    (h.relay b scope key now).2.acts ++ [.publish name scope key]
  spawned_eq : (h.announce name b scope key now).told.spawned = (h.relay b scope key now).2.spawned
  notices_eq : (h.announce name b scope key now).told.notices =
    (h.relay b scope key now).2.notices ++
      if b.peers = .refusing then [.publishFailed scope key "transport down"] else []
  answer_eq : (h.announce name b scope key now).answer =
    if b.peers = .crashing then .error "transport blew up"
    else .ok (accepted (h.relay b scope key now).1)

theorem announces (h : Hub ι κ ν ε ω) (name : String) (b : Broadcaster κ) (scope : String)
    (key : κ) (now : Instant) : h.Announces name b scope key now where
  verdicts_eq := rfl
  hub_eq := by
    have hbroadcasters : (h.relay b scope key now).2.hub.broadcasters = h.broadcasters :=
      broadcasters_deliverLocally ..
    refine ⟨(publish b scope key).2, published_publish b scope key, ?_⟩
    rw [← hbroadcasters]
    rfl
  acts_eq := rfl
  spawned_eq := rfl
  notices_eq := by
    have hnotices : (h.announce name b scope key now).told.notices =
        (h.relay b scope key now).2.notices ++
          publicationNotices scope key (publish b scope key).1 := rfl
    rw [hnotices, publish]
    cases b.peers <;> rfl
  answer_eq := by
    unfold announce pass publish
    cases b.peers <;> rfl

end Announcements

section Runs

/-- How far changes go that are announced or relayed in `t`, which the events have led to. A change
is delivered to those of its scope who are alive, among all who have been registered. Since it was
set up, a broadcaster has published all that it has announced and nothing else, and it publishes
nothing more for what it relays. -/
structure FansOut (start : Clocked (Hub ι κ ν ε ω)) (events : List (HubEvent ι κ ν ε ω))
    (t : Clocked (Hub ι κ ν ε ω)) : Prop where
  relays : ∀ name b, t.state.broadcasters.get? name = some b → ∀ scope key,
    t.state.Delivers b.registry scope key t.now
      ((gathered step (enrols b.registry) start events).filter fun s =>
        t.state.scopeOf s = some scope)
      (t.state.relay b scope key t.now)
  announces : ∀ name b, t.state.broadcasters.get? name = some b → ∀ scope key,
    t.state.Announces name b scope key t.now
  alive_iff : ∀ s, t.state.knows s = true →
    ((t.state.scopeOf s).isSome = true ↔ ∃ o, t.state.Owns o s)
  dropped : ∀ handle o s, (step t (.drop handle)).state.Owns o s ↔
    t.state.Owns o s ∧ o ≠ .handle handle
  published : ∀ before name registry peers after,
    events = before ++ .setUpBroadcaster name registry peers :: after →
    (∀ e ∈ after, e.setsUpBroadcaster name = false) →
      ∃ b, t.state.broadcasters.get? name = some b ∧ b.registry = registry ∧ b.peers = peers ∧
        gathered step (fetched name)
            (step (before.foldl step start) (.setUpBroadcaster name registry peers)) after ++
          b.published = if peers = .nobody then [] else after.filterMap (·.announcement name)
  no_echo : ∀ (more : List (HubEvent ι κ ν ε ω)) name b, t.state.broadcasters.get? name = some b →
    (∀ e ∈ more, e.setsUpBroadcaster name = false ∧ e.announcement name = none) →
      ∃ b', (more.foldl step t).state.broadcasters.get? name = some b' ∧
        b.Published b' [] (gathered step (fetched name) t more)

/-- Whatever happens to a hub, a change reaches all that it concerns exactly once, and is published
exactly if it has been announced. -/
theorem fans_out_exactly (now : Instant) (events : List (HubEvent ι κ ν ε ω)) :
    FansOut (start now) events (events.foldl step (start now)) := by
  constructor
  case relays =>
    intro name b hb scope key
    have hrecorded := recorded_run now events b.registry
    rw [← hrecorded.found_eq]
    exact delivers ..
  case announces =>
    intro name b hb scope key
    exact announces ..
  case alive_iff => exact fun s known => (counted_run now events).isSome_scopeOf_iff known
  case dropped => exact fun handle o s => owns_dropHandle _ handle o s
  case published =>
    intro before name registry peers after hevents kept
    rw [hevents, List.foldl_append, List.foldl_cons]
    generalize before.foldl step (start now) = t
    have hset : (step t (.setUpBroadcaster name registry peers)).state.broadcasters.get? name =
        some ⟨registry, peers, []⟩ := Table.get?_put_self ..
    obtain ⟨b, hb, hpublished⟩ := published_run hset after kept
    exact ⟨b, hb, hpublished.registry_eq, hpublished.peers_eq, hpublished.published_eq⟩
  case no_echo =>
    intro more name b hb silent
    obtain ⟨b', hb', hpublished⟩ := published_run hb more fun e he => (silent e he).1
    rw [List.filterMap_eq_nil_iff.mpr fun e he => (silent e he).2] at hpublished
    exact ⟨b', hb', hpublished⟩

end Runs

end Hub

end ReadThrough
