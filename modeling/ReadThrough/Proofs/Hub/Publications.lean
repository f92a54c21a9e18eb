import ReadThrough.Proofs.Hub.Liveness
import ReadThrough.Proofs.Runs

/-!
# What broadcasters publish

A broadcaster publishes each change that it announces, once and in the order of its announcements.
It publishes nothing else: a change that it relays goes no further.
-/

namespace ReadThrough

section Events

variable {ι κ ν ε ω : Type}

/-- The broadcaster whose publications the event is about. -/
def HubEvent.publisher : HubEvent ι κ ν ε ω → Option String
  | .setUpBroadcaster name .. => some name
  | .announce name .. => some name
  | .fetch name => some name
  | _ => none

def HubEvent.setsUpBroadcaster (name : String) : HubEvent ι κ ν ε ω → Bool
  | .setUpBroadcaster other .. => decide (other = name)
  | _ => false

/-- The change that the broadcaster of this name announces. -/
def HubEvent.announcement (name : String) : HubEvent ι κ ν ε ω → Option (String × κ)
  | .announce other scope key => if other = name then some (scope, key) else none
  | _ => none

/-- What is fetched of the publications of the broadcaster of this name. -/
def Hub.fetched (name : String) (t : Clocked (Hub ι κ ν ε ω)) :
    HubEvent ι κ ν ε ω → List (String × κ)
  | .fetch other => if other = name then (t.state.fetchPublished name).1 else []
  | _ => []

end Events

section Broadcasters

variable {κ : Type} {b b' b'' : Broadcaster κ}
  {announced announced' fetched fetched' : List (String × κ)}

/-- What becomes of a broadcaster that announces changes, while its publications are fetched from
time to time. -/
structure Broadcaster.Published (b b' : Broadcaster κ) (announced fetched : List (String × κ)) :
    Prop where
  registry_eq : b'.registry = b.registry
  peers_eq : b'.peers = b.peers
  published_eq : fetched ++ b'.published =
    b.published ++ if b.peers = .nobody then [] else announced

namespace Broadcaster.Published

theorem refl (b : Broadcaster κ) : b.Published b [] [] where
  registry_eq := rfl
  peers_eq := rfl
  published_eq := by
    rw [ite_self, List.append_nil, List.nil_append]

theorem trans (p : b.Published b' announced fetched) (q : b'.Published b'' announced' fetched') :
    b.Published b'' (announced ++ announced') (fetched ++ fetched') where
  registry_eq := q.registry_eq.trans p.registry_eq
  peers_eq := q.peers_eq.trans p.peers_eq
  published_eq := by
    have hq := q.published_eq
    rw [p.peers_eq] at hq
    rw [List.append_assoc, hq, ← List.append_assoc, p.published_eq, List.append_assoc]
    split
    · rfl
    · rfl

end Broadcaster.Published

theorem Hub.published_publish (b : Broadcaster κ) (scope : String) (key : κ) :
    b.Published (publish b scope key).2 [(scope, key)] [] := by
  have hpublish : (publish b scope key).2 = if b.peers = .nobody then b
      else { b with published := b.published ++ [(scope, key)] } := by
    unfold publish
    cases b.peers <;> rfl
  rw [hpublish]
  by_cases hpeers : b.peers = .nobody
  · rw [if_pos hpeers]
    refine ⟨rfl, rfl, ?_⟩
    rw [if_pos hpeers, List.append_nil, List.nil_append]
  · rw [if_neg hpeers]
    refine ⟨rfl, rfl, ?_⟩
    rw [if_neg hpeers, List.nil_append]

end Broadcasters

namespace Hub

variable {ι κ ν ε ω : Type} [DecidableEq ι] [DecidableEq κ] [DecidableEq ω]
  {t : Clocked (Hub ι κ ν ε ω)} {name : String} {b : Broadcaster κ} {e : HubEvent ι κ ν ε ω}

section Steps

theorem broadcasters_deliverLocally (h : Hub ι κ ν ε ω) (registry scope : String) (key : κ)
    (now : Instant) :
    (h.deliverLocally registry scope key now).2.hub.broadcasters = h.broadcasters :=
  (reached_deliverLocally h registry scope key now).broadcasters_eq

theorem broadcasters_announce (h : Hub ι κ ν ε ω) (name : String) (b : Broadcaster κ)
    (scope : String) (key : κ) (now : Instant) :
    (h.announce name b scope key now).told.hub.broadcasters =
      h.broadcasters.put name (publish b scope key).2 :=
  congrArg (·.put name (publish b scope key).2) (broadcasters_deliverLocally ..)

/-- A broadcaster is left alone by whatever is not about its publications, such as a change that it
or another one relays. -/
theorem get?_broadcasters_step (t : Clocked (Hub ι κ ν ε ω)) (other : e.publisher ≠ some name) :
    (step t e).state.broadcasters.get? name = t.state.broadcasters.get? name := by
  have hput : ∀ {n : String}, some n ≠ some name → ∀ b : Broadcaster κ,
      (t.state.broadcasters.put n b).get? name = t.state.broadcasters.get? name := by
    intro n hn b
    have hne : name ≠ n := fun heq => hn (congrArg some heq.symm)
    rw [Table.get?_put, if_neg hne]
  cases e with
  | setUpBroadcaster n registry peers => exact hput other _
  | announce n scope key =>
    simp only [step]
    split
    · rw [broadcasters_announce]
      exact hput other _
    · rfl
  | fetch n =>
    simp only [step, fetchPublished]
    split
    · rfl
    · exact hput other _
  | relay n scope key =>
    simp only [step]
    split
    · exact congrArg (Table.get? · name) (broadcasters_deliverLocally ..)
    · rfl
  | hold handle s =>
    rw [step]
    split
    · cases s <;> rfl
    · rfl
  | register registry s =>
    rw [step]
    split <;> rfl
  | ofCache r e =>
    simp only [step]
    split
    · rename_i c hc
      split
      · obtain ⟨_, _, hreplaces, -⟩ := exists_replaces hc t.now e
        exact congrArg (Table.get? · name) hreplaces.broadcasters_eq
      · rfl
    · rfl
  | _ => rfl

/-- A change that is announced is published, and what has been fetched is not there any more. -/
theorem published_step (hb : t.state.broadcasters.get? name = some b)
    (kept : e.setsUpBroadcaster name = false) :
    ∃ b', (step t e).state.broadcasters.get? name = some b' ∧
      b.Published b' (e.announcement name).toList (fetched name t e) := by
  by_cases hpublisher : e.publisher = some name
  · cases e with
    | setUpBroadcaster n registry peers =>
      cases hpublisher
      simp [HubEvent.setsUpBroadcaster] at kept
    | announce n scope key =>
      cases hpublisher
      refine ⟨(publish b scope key).2, ?_, ?_⟩
      · simp only [step, hb]
        rw [broadcasters_announce, Table.get?_put_self]
      · rw [HubEvent.announcement, if_pos rfl]
        exact published_publish b scope key
    | fetch n =>
      cases hpublisher
      refine ⟨{ b with published := [] }, ?_, rfl, rfl, ?_⟩
      · simp only [step, fetchPublished, hb]
        rw [Table.get?_put_self]
      · have hfetched : fetched name t (.fetch name) = b.published := by
          rw [fetched, if_pos rfl, fetchPublished, hb]
        rw [hfetched]
        exact congrArg (b.published ++ ·) (ite_self []).symm
    | _ => cases hpublisher
  · refine ⟨b, (get?_broadcasters_step t hpublisher).trans hb, ?_⟩
    have hsilent : e.announcement name = none ∧ fetched name t e = [] := by
      cases e with
      | announce n scope key => exact ⟨if_neg fun heq => hpublisher (congrArg some heq), rfl⟩
      | fetch n => exact ⟨rfl, if_neg fun heq => hpublisher (congrArg some heq)⟩
      | _ => exact ⟨rfl, rfl⟩
    rw [hsilent.1, hsilent.2]
    exact .refl b

theorem published_run (hb : t.state.broadcasters.get? name = some b)
    (events : List (HubEvent ι κ ν ε ω)) (kept : ∀ e ∈ events, e.setsUpBroadcaster name = false) :
    ∃ b', (events.foldl step t).state.broadcasters.get? name = some b' ∧
      b.Published b' (events.filterMap (·.announcement name))
        (gathered step (fetched name) t events) := by
  induction events generalizing t b with
  | nil => exact ⟨b, hb, .refl b⟩
  | cons e events ih =>
    obtain ⟨hkept, hrest⟩ := List.forall_mem_cons.mp kept
    obtain ⟨b', hb', hstep⟩ := published_step hb hkept
    obtain ⟨b'', hb'', hrun⟩ := ih hb' hrest
    refine ⟨b'', hb'', ?_⟩
    have hcons : (e :: events).filterMap (·.announcement name) =
        (e.announcement name).toList ++ events.filterMap (·.announcement name) := by
      rw [List.filterMap_cons]
      cases e.announcement name <;> rfl
    rw [hcons, gathered]
    exact hstep.trans hrun

end Steps

end Hub

end ReadThrough
