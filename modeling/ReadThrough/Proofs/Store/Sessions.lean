import ReadThrough.Proofs.Store.Polls
import ReadThrough.Store.Layout

/-!
# Sessions keep order

A session starts without calls and without flights. Starting, polling and dropping its calls keeps
order, and so does whatever else is done to its store.
-/

namespace ReadThrough

variable {ι κ ν ε ω : Type} [DecidableEq κ]

theorem Store.flight?_ofLayout (l : Layout) (hash : κ → UInt64) (k : κ) :
    (Store.ofLayout l hash : Store κ ν ε ω).flight? k = none := by
  rw [Store.flight?, Store.shardOf_ofLayout]
  rfl

end ReadThrough

namespace ReadThrough.Session

variable {ι κ ν ε ω : Type} [DecidableEq ι]

/-- The call of this name is under way for `k` and leads `f`. -/
def Leads (s : Session ι κ ν ε ω) (id : ι) (k : κ) (f : Ref (Flight ε ω)) : Prop :=
  s.calls.get? id = some ⟨k, .loading f⟩

def IsIdle (s : Session ι κ ν ε ω) (k : κ) : Prop := ∀ i f, ¬ s.Leads i k f

theorem Leads.ledBy_eq {s : Session ι κ ν ε ω} {id : ι} {k : κ} {f : Ref (Flight ε ω)}
    (h : s.Leads id k f) : Store.ledBy s.calls.get? id = some f :=
  Store.ledBy_of_eq_some h

variable [DecidableEq κ]

/-- Order among the flights of the store and the calls under way. -/
def Orderly (s : Session ι κ ν ε ω) : Prop := s.store.Orderly s.calls.get?

/-- A flight is registered for `k` that no call under way leads. -/
def Stranded (s : Session ι κ ν ε ω) (k : κ) : Prop := s.store.Stranded s.calls.get? k

/-- Order is kept from `s` to `s'`, and the keys in `lost` are stranded on the way. -/
structure Settles (s s' : Session ι κ ν ε ω) (lost : κ → Prop) : Prop where
  orderly : s.Orderly → s'.Orderly
  stranded_iff : s.Orderly → ∀ k, s'.Stranded k ↔ s.Stranded k ∨ lost k

variable {s s' s'' : Session ι κ ν ε ω} {lost : κ → Prop}

theorem Settles.refl (s : Session ι κ ν ε ω) : s.Settles s fun _ => False :=
  ⟨id, fun _ k => by rw [or_false]⟩

theorem Settles.trans_of_lossless (h : s.Settles s' lost) (h' : s'.Settles s'' fun _ => False) :
    s.Settles s'' lost :=
  ⟨fun hs => h'.orderly (h.orderly hs), fun hs k => by
    rw [h'.stranded_iff (h.orderly hs), or_false, h.stranded_iff hs]⟩

theorem Settles.not_stranded (h : s.Settles s' fun _ => False) (hs : s.Orderly)
    (hk : ∀ k, ¬ s.Stranded k) (k : κ) : ¬ s'.Stranded k := by
  rw [h.stranded_iff hs, or_false]
  exact hk k

section Leaders

variable {id : ι} {k : κ} {f : Ref (Flight ε ω)}

theorem Orderly.registered (hs : s.Orderly) (h : s.Leads id k f) : s.store.flight? k = some f :=
  Store.Orderly.registered hs h rfl

theorem Orderly.leads_unique (hs : s.Orderly) {j : ι} {g : Ref (Flight ε ω)}
    (h : s.Leads id k f) (h' : s.Leads j k g) : id = j := by
  have hfg : some f = some g := (hs.registered h).symm.trans (hs.registered h')
  cases hfg
  exact Store.Orderly.leader hs h.ledBy_eq h'.ledBy_eq

theorem Orderly.leads_of_ledBy (hs : s.Orderly) (hf : s.store.flight? k = some f)
    (h : Store.ledBy s.calls.get? id = some f) : s.Leads id k f := by
  obtain ⟨⟨j, phase⟩, hc, hled⟩ := Store.ledBy_eq_some_iff.mp h
  obtain rfl := Store.Orderly.once hs (Store.Orderly.registered hs hc hled) hf
  rw [Phase.led?_eq_some_iff] at hled
  subst hled
  exact hc

/-- A key is stranded if a flight is registered for it and no call leads one. -/
theorem Orderly.stranded_iff (hs : s.Orderly) :
    s.Stranded k ↔ ∃ f, s.store.flight? k = some f ∧ ∀ i, ¬ s.Leads i k f := by
  constructor
  · rintro ⟨f, hf, hnone⟩
    exact ⟨f, hf, fun i hi => hnone i hi.ledBy_eq⟩
  · rintro ⟨f, hf, hnone⟩
    exact ⟨f, hf, fun i hi => hnone i (hs.leads_of_ledBy hf hi)⟩

theorem Orderly.exists_leads (hs : s.Orderly) (hk : ¬ s.Stranded k)
    (hf : s.store.flight? k = some f) : ∃ i, s.Leads i k f := by
  by_contra hnone
  exact hk (hs.stranded_iff.mpr ⟨f, hf, not_exists.mp hnone⟩)

theorem Orderly.flight?_eq_none (hs : s.Orderly) (hk : ¬ s.Stranded k)
    (idle : s.IsIdle k) : s.store.flight? k = none := by
  cases hf : s.store.flight? k with
  | none => rfl
  | some f =>
    obtain ⟨i, hi⟩ := hs.exists_leads hk hf
    exact absurd hi (idle i f)

end Leaders

theorem settles_of_sameFlights (calls : s'.calls = s.calls) (h : s.store.SameFlights s'.store) :
    s.Settles s' fun _ => False := by
  constructor
  · intro hs
    rw [Orderly, calls]
    exact Store.Orderly.sameStanding hs h.sameStanding
  · intro _ k
    rw [Stranded, calls, or_false]
    exact h.sameStanding.stranded_iff

theorem orderly_ofStore {s : Store κ ν ε ω} (h : ∀ k, s.flight? k = none) :
    (ofStore s : Session ι κ ν ε ω).Orderly where
  aloft hf := by simp [ofStore, h] at hf
  once hf := by simp [ofStore, h] at hf
  registered hc := nomatch hc
  leader hi := nomatch hi
  awaited hc := nomatch hc
  spent hc := nomatch hc

theorem not_stranded_ofStore {s : Store κ ν ε ω} (h : ∀ k, s.flight? k = none) (k : κ) :
    ¬ (ofStore s : Session ι κ ν ε ω).Stranded k := by
  rintro ⟨f, hf, -⟩
  simp [ofStore, h] at hf

theorem drop_of_absent {id : ι} (hc : s.calls.get? id = none) : s.drop id = ([], s) := by
  rw [drop, hc]

theorem drop_of_present {id : ι} {c : Call κ ε ω} (hc : s.calls.get? id = some c) :
    s.drop id = ((s.store.abandon c).1, ⟨(s.store.abandon c).2, s.calls.erase id⟩) := by
  rw [drop, hc]

theorem get?_drop (s : Session ι κ ν ε ω) (id : ι) :
    (s.drop id).2.calls.get? = Function.update s.calls.get? id none := by
  cases hc : s.calls.get? id with
  | none => rw [drop_of_absent hc, ← hc, Function.update_eq_self]
  | some c =>
    rw [drop_of_present hc]
    exact Table.get?_erase_eq_update s.calls id

theorem Leads.of_drop {id i : ι} {k : κ} {f : Ref (Flight ε ω)} (h : (s.drop id).2.Leads i k f) :
    s.Leads i k f := by
  rw [Leads, get?_drop] at h
  rcases update_eq_some h with ⟨-, h⟩ | ⟨-, h⟩
  · cases h
  · exact h

theorem IsIdle.drop {k : κ} (h : s.IsIdle k) (id : ι) : (s.drop id).2.IsIdle k :=
  fun i f hi => h i f hi.of_drop

theorem settles_drop [DecidableEq ω] (s : Session ι κ ν ε ω) (id : ι) :
    s.Settles (s.drop id).2 fun _ => False := by
  have hcalls := s.get?_drop id
  cases hc : s.calls.get? id with
  | none =>
    rw [drop_of_absent hc]
    exact .refl s
  | some c =>
    have hstore : (s.drop id).2.store = (s.store.abandon c).2 := by rw [drop_of_present hc]
    constructor
    · intro hs
      rw [Orderly, hstore, hcalls]
      exact (Store.Orderly.abandoned hs hc).1
    · intro hs k
      rw [Stranded, hstore, hcalls, or_false]
      exact (Store.Orderly.abandoned hs hc).2

/-- A call that may be polled under a name: the one that is under way under it, or else a new
one. -/
inductive Admits (s : Session ι κ ν ε ω) (id : ι) : Call κ ε ω → Prop where
  | present {c : Call κ ε ω} (h : s.calls.get? id = some c) : Admits s id c
  | fresh (h : s.calls.get? id = none) (k : κ) : Admits s id (.start k)

variable {id : ι} {c : Call κ ε ω}

omit [DecidableEq κ] in
theorem Admits.led (h : s.Admits id c) :
    (some c).bind (·.phase.led?) = Store.ledBy s.calls.get? id := by
  cases h with
  | present h => rw [Store.ledBy, h]
  | fresh h k =>
    rw [Store.ledBy, h]
    rfl

/-- Whoever comes anew has nothing yet to lead or to wait for. -/
theorem Admits.orderly (h : s.Admits id c) (hs : s.Orderly) :
    s.store.Orderly (Function.update s.calls.get? id (some c)) := by
  cases h with
  | present h =>
    rw [update_of_eq_some h]
    exact hs
  | fresh h k =>
    refine Store.Orderly.update hs (Admits.fresh h k).led ?_ ?_ ?_
    · rintro _ f ⟨⟩ hf
      cases hf
    · rintro _ f ⟨⟩ hf
      cases hf
    · rintro _ ⟨⟩ hspent
      cases hspent

theorem Admits.stranded_iff (h : s.Admits id c) {k : κ} :
    s.store.Stranded (Function.update s.calls.get? id (some c)) k ↔ s.Stranded k :=
  Store.stranded_update_iff h.led

variable [DecidableEq ω]

theorem settles_start (s : Session ι κ ν ε ω) (id : ι) (key : κ) :
    s.Settles (s.start id key).2 fun _ => False := by
  have hcalls : (s.start id key).2.calls.get?
      = Function.update (s.drop id).2.calls.get? id (some (.start key)) :=
    Table.get?_put_eq_update _ _ _
  have hnone : (s.drop id).2.calls.get? id = none := by rw [get?_drop, Function.update_self]
  refine (s.settles_drop id).trans_of_lossless ⟨fun hs => ?_, fun hs k => ?_⟩
  · rw [Orderly, hcalls]
    exact (Admits.fresh hnone key).orderly hs
  · rw [Stranded, hcalls, or_false]
    exact (Admits.fresh hnone key).stranded_iff

variable {now : Instant} {waker : ω} {source : Source ν ε}

theorem get?_pollKept (s : Session ι κ ν ε ω) (id : ι) (c : Call κ ε ω) :
    (s.pollKept id c now waker source).2.calls.get?
      = Function.update s.calls.get? id (some (s.store.poll c now waker source).call) :=
  Table.get?_put_eq_update _ _ _

theorem update_get?_pollCall (s : Session ι κ ν ε ω) (id : ι) (c : Call κ ε ω) :
    Function.update (s.pollCall id c now waker source).2.calls.get? id none =
      Function.update s.calls.get? id none := by
  unfold pollCall
  simp only
  split
  · rw [get?_drop, get?_pollKept, Function.update_idem, Function.update_idem]
  · rw [get?_pollKept, Function.update_idem]

theorem settles_pollKept (hc : s.Admits id c) :
    s.Settles (s.pollKept id c now waker source).2 fun k =>
      k = c.key ∧ (s.store.poll c now waker source).asked = true ∧
        source.refusal.isSome = true := by
  have hpoll : ∀ hs : s.Orderly, Store.Polled now waker source s.store c _ := fun hs =>
    Store.polled_poll hs.allAloft c
  have hpolled := fun hs => (hc.orderly hs).polled (Function.update_self ..) (hpoll hs)
  simp only [Function.update_idem] at hpolled
  constructor
  · intro hs
    rw [Orderly, get?_pollKept]
    exact (hpolled hs).1
  · intro hs k
    rw [Stranded, get?_pollKept, ← hc.stranded_iff]
    exact (hpolled hs).2

theorem settles_pollCall (hc : s.Admits id c) :
    s.Settles (s.pollCall id c now waker source).2 fun k =>
      k = c.key ∧ (s.store.poll c now waker source).asked = true ∧
        source.refusal.isSome = true := by
  refine (settles_pollKept hc).trans_of_lossless ?_
  unfold pollCall
  simp only
  split
  · exact settles_drop _ id
  · exact .refl _

end ReadThrough.Session
