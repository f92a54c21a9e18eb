import ReadThrough.Proofs.Cache.Identity
import ReadThrough.Proofs.Cache.Ledger
import ReadThrough.Proofs.Store.Lockstep

/-!
# Changes that are heard of more than once

A cache that reacts to a change reacts to it again, and one that crashes over it crashes again.
-/

namespace ReadThrough.Cache

variable {ι κ ν ε ω : Type}

variable [DecidableEq κ] {c : Cache ι κ ν ε ω} {k : κ} {r : Ref (Entry ν)} {now : Instant}
  {s : Scheduling ι κ ν ε ω}

omit [DecidableEq κ] in
/-- The policy decides about an entry by its times, whoever holds its lease. -/
theorem decision_congr {c' : Cache ι κ ν ε ω} (policy : c'.policy = c.policy)
    (contents : c'.store.contents? r = c.store.contents? r) (now : Instant) :
    c'.decision r now = c.decision r now := by
  have hdecision : ∀ d : Cache ι κ ν ε ω, d.decision r now =
      ((d.store.contents? r).map fun x => d.policy.decides now x.lifetime).getD .keep := by
    intro d
    rw [decision, Store.contents?]
    cases d.store.entryAt? r <;> rfl
  rw [hdecision, hdecision, policy, contents]

theorem exists_change_again (reaction : c.change k now = some s) :
    ∃ s', s.cache.change k now = some s' := by
  cases reacted_change reaction with
  | missing missing eq =>
    rw [eq]
    exact ⟨s, reaction⟩
  | @renewed r live due eq =>
    have hlive : (c.schedule k r).cache.store.live? k now = some r := by
      rw [(c.sameRecords_schedule k r).live?_eq, live]
    have hdue : (c.schedule k r).cache.decision r now = .renew := by
      have hpolicy := congrArg (·.2.2) (c.identity_schedule k r)
      rw [decision_congr hpolicy ((c.sameRecords_schedule k r).contents?_eq r), due]
    rw [eq]
    exact ⟨(c.schedule k r).cache.schedule k r, by simp only [change, hlive, hdue]⟩
  | removed live early eq =>
    have hmissing : s.cache.store.live? k now = none := by
      rw [eq]
      exact (Store.live?_remove c.store k k).trans (if_pos rfl)
    refine ⟨⟨s.cache, .changeOfUncached, none⟩, ?_⟩
    rw [change, hmissing]

/-- Whether a cache crashes over a change does not depend on how often it has heard of it. -/
theorem isSome_change_again (reaction : c.change k now = some s) :
    (s.cache.change k now).isSome = (c.change k now).isSome := by
  obtain ⟨s', hagain⟩ := exists_change_again reaction
  rw [hagain, reaction]
  rfl

end ReadThrough.Cache
