import ReadThrough.Proofs.Store.Traffic
import ReadThrough.Store.Session

/-!
# Polls keep the entries

Whatever a poll does, it takes no entry away, and to an entry that is there it does no more than
record an access. What it adds is idle. The same holds of swapping one entry for another, which only
moves a new one into the slot.
-/

namespace ReadThrough

namespace Store

variable {κ ν ε ω : Type} [DecidableEq κ]

theorem SameCells.keepsEntries {s s' : Store κ ν ε ω} (h : s.SameCells s') : s.KeepsEntries s' :=
  keepsEntries_of_eq h.entries_eq

theorem lease_eq_idle_of_fresh {value : Option ν} {t : Instant} {ttl : Span} {e : Entry ν}
    (h : Entry.fresh? value t ttl = some e) : e.lease = .idle := by
  obtain ⟨-, rfl⟩ := Entry.fresh?_eq_some_iff.mp h
  rfl

theorem keepsEntries_place (s : Store κ ν ε ω) (k : κ) {e : Entry ν} (h : e.lease = .idle) :
    s.KeepsEntries (s.place k e) :=
  (keepsEntries_addEntry s h).trans (sameCells_setSlot _ k _).keepsEntries

theorem keepsEntries_concludeFlight (s : Store κ ν ε ω) (k : κ) (f : Ref (Flight ε ω))
    (l : Landing ε) : s.KeepsEntries (s.concludeFlight k f l).2 :=
  keepsEntries_of_eq (entries_concludeFlight s k f l)

theorem keepsEntries_landed (s : Store κ ν ε ω) (k : κ) (f : Ref (Flight ε ω)) {e : Entry ν}
    (h : e.lease = .idle) (now : Instant) :
    s.KeepsEntries ((s.placeAndLand k f e).2.recordDeadline k e.expires now).2 :=
  ((keepsEntries_place s k h).trans (keepsEntries_concludeFlight _ k f .loaded)).trans
    (sameCells_recordDeadline _ k _ now).keepsEntries

theorem keepsEntries_swapIfSame {s : Store κ ν ε ω} {k : κ} {current : Ref (Entry ν)}
    {value : Option ν} {now : Instant} {stored : Stored κ ν ε ω}
    (h : s.swapIfSame k current value now = .ok stored) : s.KeepsEntries stored.store := by
  unfold swapIfSame at h
  split at h
  · cases h
  · rename_i e hfresh
    split at h
    · cases h
      exact (keepsEntries_place s k (lease_eq_idle_of_fresh hfresh)).trans
        (sameCells_recordDeadline _ k _ now).keepsEntries
    · cases h

theorem keepsEntries_abandon (s : Store κ ν ε ω) (c : Call κ ε ω) :
    s.KeepsEntries (s.abandon c).2 := by
  unfold abandon
  split
  · exact keepsEntries_concludeFlight s _ _ _
  · exact .refl s

variable [DecidableEq ω] {s : Store κ ν ε ω} {now : Instant} {waker : ω} {source : Source ν ε}

theorem Pass.keepsEntries {c : Call κ ε ω} {p : Progress κ ν ε ω}
    (h : Pass s now waker source c p) : s.KeepsEntries p.store := by
  cases h with
  | hit => exact keepsEntries_recordAccess s _ now
  | lead => exact keepsEntries_of_eq rfl
  | refuse => exact keepsEntries_of_eq rfl
  | unarmed => exact keepsEntries_of_eq rfl
  | wait => exact keepsEntries_of_eq rfl
  | land _ fresh => exact keepsEntries_landed s _ _ (lease_eq_idle_of_fresh fresh) _
  | fail => exact keepsEntries_concludeFlight s _ _ _
  | _ => exact .refl s

theorem keepsEntries_passes (n : Nat) (s : Store κ ν ε ω) (c : Call κ ε ω) :
    s.KeepsEntries (s.passes n c now waker source).store := by
  induction n generalizing s c with
  | zero => exact .refl s
  | succ n ih =>
    have hpass := (pass_spec s now waker source c).keepsEntries
    unfold passes
    simp only
    split
    · exact hpass
    · exact hpass.trans (ih _ _)

end Store

namespace Session

variable {ι κ ν ε ω : Type} [DecidableEq ι] [DecidableEq κ]

theorem keepsEntries_drop (s : Session ι κ ν ε ω) (id : ι) :
    s.store.KeepsEntries (s.drop id).2.store := by
  unfold drop
  split
  · exact Store.keepsEntries_abandon s.store _
  · exact .refl _

theorem keepsEntries_pollCall [DecidableEq ω] (s : Session ι κ ν ε ω) (id : ι) (c : Call κ ε ω)
    (now : Instant) (waker : ω) (source : Source ν ε) :
    s.store.KeepsEntries (s.pollCall id c now waker source).2.store := by
  have hpoll : s.store.KeepsEntries (s.pollKept id c now waker source).2.store :=
    Store.keepsEntries_passes Store.passBound s.store c
  unfold pollCall
  simp only
  split
  · exact hpoll.trans (keepsEntries_drop _ id)
  · exact hpoll

end Session

end ReadThrough
