import ReadThrough.Cache.Basic

/-!
# Changes at the source

When the value behind a key may have changed, a live entry that is due is renewed and
any other live entry is removed. Looking at the entry is not an access to it. A change
crashes over a live entry about which the policy cannot decide, and leaves it alone.
-/

namespace ReadThrough.Cache

variable {ι κ ν ε ω : Type} [DecidableEq κ]

/-- React to a change of the value behind `k`; nothing if the policy cannot decide. -/
def change (c : Cache ι κ ν ε ω) (k : κ) (now : Instant) : Option (Scheduling ι κ ν ε ω) :=
  match c.store.live? k now with
  | none => some ⟨c, .changeOfUncached, none⟩
  | some r =>
    match c.decision r now with
    | .renew => some (c.schedule k r)
    | .keep =>
      let c := (c.discard k).2
      some ⟨{ c with tally := { c.tally with invalidations := c.tally.invalidations + 1 } },
        .removedAfterChange, none⟩
    | .overflow => none

end ReadThrough.Cache
