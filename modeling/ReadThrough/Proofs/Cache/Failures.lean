import ReadThrough.Proofs.Cache.Queries
import ReadThrough.Proofs.Store.Failures

/-!
# A failure leaves the cache as it was

A load can end without a value in several ways, and so can a renewal. A load retires its flight
then, at the latest when its call is dropped. A renewal gives the lease of its entry back. Neither
touches anything else in the store, whatever else is under way.
-/

namespace ReadThrough

namespace Store

variable {κ ν ε ω : Type} {s : Store κ ν ε ω} {r : Ref (Entry ν)}

end Store

namespace Cache

variable {ι κ ν ε ω : Type}

section Leases

variable {c : Cache ι κ ν ε ω} {q : Renewal κ ν}

end Leases

variable [DecidableEq κ]

section Renewals

/-- The load of a renewal ends, and there is nothing to be put in place. -/
inductive ComesToNothing (s : Store κ ν ε ω) (q : Renewal κ ν) (now : Instant) :
    Reply ν ε → RenewalEnd ν ε → Prop where
  | failed {d : Nat} {e : ε} : ComesToNothing s q now (.failed d e) (.failed e)
  | crashed {d : Nat} {text : String} : ComesToNothing s q now (.crashed d text) (.crashed text)
  | superseded {d : Nat} {v : ν} {x : Entry ν}
      (fresh : Entry.fresh? (some v) (now + d) s.timeToLive = some x)
      (gone : s.holds q.key q.entry = false) :
      ComesToNothing s q now (.answered d (some v)) .superseded
  | alreadyGone {d : Nat} (gone : s.holds q.key q.entry = false) :
      ComesToNothing s q now (.answered d none) .alreadyGone
  | late {d : Nat} {v : ν} (late : Entry.fresh? (some v) (now + d) s.timeToLive = none) :
      ComesToNothing s q now (.answered d (some v)) .expiryOverflow

variable {c : Cache ι κ ν ε ω} {q : Renewal κ ν} {now : Instant} {reply : Reply ν ε}
  {e : RenewalEnd ν ε} {n : Nat}

theorem ComesToNothing.runStarted (h : ComesToNothing c.store q now reply e) (n : Nat)
    (asked : Bool) :
    (c.runStarted n q asked now reply).ended = some e ∧
      (c.runStarted n q asked now reply).cache.store = (c.closeRenewal n q).store := by
  cases h with
  | failed => exact ⟨rfl, rfl⟩
  | crashed => exact ⟨rfl, rfl⟩
  | @superseded d v _ fresh gone =>
    have hswap : c.store.swapIfSame q.key q.entry (some v) (now + d) = .error .superseded := by
      rw [Store.swapIfSame, fresh, gone]
      rfl
    simp only [Cache.runStarted, applyAnswer, hswap]
    exact ⟨trivial, rfl⟩
  | alreadyGone gone =>
    simp only [Cache.runStarted, applyAnswer_none, gone, Bool.false_eq_true, if_false]
    exact ⟨trivial, rfl⟩
  | @late d v late =>
    have hswap : c.store.swapIfSame q.key q.entry (some v) (now + d) = .error .expiryOverflow := by
      rw [Store.swapIfSame, late]
    simp only [Cache.runStarted, applyAnswer, hswap]
    exact ⟨trivial, rfl⟩

end Renewals

variable [DecidableEq ι] [DecidableEq ω]

section Polls

variable {c : Cache ι κ ν ε ω} {id : ι} {call : Call κ ε ω} {now : Instant} {waker : ω}
  {reply : Reply ν ε} {o : Outcome ν ε ω}

end Polls

section Steps

variable {t : Clocked (Cache ι κ ν ε ω)} {e : CacheEvent ι κ ν ε ω} {c : Cache ι κ ν ε ω} {id : ι}
  {call : Call κ ε ω} {waker : ω} {reply : Reply ν ε} {k : κ} {f : Ref (Flight ε ω)}

end Steps

end Cache

end ReadThrough
