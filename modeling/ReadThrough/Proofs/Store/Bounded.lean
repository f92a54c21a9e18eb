import ReadThrough.Proofs.Store.Changes

/-!
# A bound on the entries

A store that is laid out for a number of entries never has more of them between operations. Storing
one drops what has expired in the shard of its key and evicts no more than it has to, and what it
evicts expires first among all that is left in any shard.
-/

namespace ReadThrough

namespace Store

variable {κ ν ε ω : Type} [DecidableEq κ] {s : Store κ ν ε ω} {now : Instant}

theorem roomMade_swapIfSame (hs : s.Tidy) {k : κ} {current : Ref (Entry ν)} {value : Option ν}
    {stored : Stored κ ν ε ω} (h : s.swapIfSame k current value now = .ok stored) :
    s.RoomMade k value now stored.entry stored.evicted stored.store := by
  obtain ⟨-, e, hfresh, rfl⟩ := swapIfSame_eq_ok h
  exact (placed_place s k e).roomMade hs hfresh

theorem exists_swapIfSame {k : κ} {current : Ref (Entry ν)} {value : Option ν}
    (holds : s.holds k current = true)
    (representable : isRepresentable (now + s.timeToLive.toNanos) = true) :
    ∃ stored, s.swapIfSame k current value now = .ok stored := by
  have hfresh : Entry.fresh? value now s.timeToLive = some _ :=
    Entry.fresh?_eq_some_iff.mpr ⟨representable, rfl⟩
  unfold swapIfSame
  rw [hfresh]
  simp only [holds, if_true]
  exact ⟨_, rfl⟩

variable [DecidableEq ω] {waker : ω} {source : Source ν ε} {c : Call κ ε ω}
  {p : Progress κ ν ε ω} {r : Ref (Entry ν)}

theorem Pass.sameTables (h : Pass s now waker source c p) (outcome : p.outcome = none) :
    s.SameTables p.store ∧ p.evicted = [] := by
  cases h with
  | join => exact ⟨.refl s, rfl⟩
  | retry => exact ⟨.refl s, rfl⟩
  | lead => exact ⟨sameTables_register s _, rfl⟩
  | _ => cases outcome

/-- A poll that stores an entry places what the source has answered, and then makes room. -/
theorem Polled.placed (h : Polled now waker source s c p) (loaded : p.outcome = some (.loaded r)) :
    ∃ d v e x, source.reply = .answered d v ∧ Entry.fresh? v (now + d) s.timeToLive = some e ∧
      s.Placed c.key e x ∧ r = s.entries.next ∧
        (p.evicted, p.store) = x.recordDeadline c.key e.expires (now + d) := by
  induction h with
  | last pass _ =>
    cases pass with
    | land reply fresh =>
      cases loaded
      exact ⟨_, _, _, _, reply, fresh, placed_placeAndLand _ _ _ _, rfl, rfl⟩
    | _ => cases loaded
  | next pass outcome _ ih =>
    obtain ⟨hsame, hevicted⟩ := pass.sameTables outcome
    obtain ⟨d, v, e, x, hreply, hfresh, hplaced, hr, hrecord⟩ := ih loaded
    rw [hsame.timeToLive_eq] at hfresh
    rw [pass.key_eq] at hplaced hrecord
    rw [hsame.entries_eq] at hr
    refine ⟨d, v, e, x, hreply, hfresh, hsame.placed hplaced, hr, ?_⟩
    rw [← hrecord, hevicted, List.nil_append]

theorem Polled.roomMade (h : Polled now waker source s c p) (hs : s.Tidy)
    (loaded : p.outcome = some (.loaded r)) :
    ∃ d v, source.reply = .answered d v ∧
      s.RoomMade c.key v (now + d) r p.evicted p.store := by
  obtain ⟨d, v, e, x, hreply, hfresh, hplaced, rfl, hrecord⟩ := h.placed loaded
  obtain ⟨hevicted, hstore⟩ := Prod.mk.inj hrecord
  refine ⟨d, v, hreply, ?_⟩
  rw [hevicted, hstore]
  exact hplaced.roomMade hs hfresh

/-- The answer to a load is stored unless its entry would expire too late. -/
theorem outcome_poll_of_answered {k : κ} {f : Ref (Flight ε ω)} {d : Nat} {v : Option ν}
    (reply : source.reply = .answered d v)
    (representable : isRepresentable (now + d + s.timeToLive.toNanos) = true) :
    (s.poll ⟨k, .loading f⟩ now waker source).outcome = some (.loaded s.entries.next) := by
  have hfresh : Entry.fresh? v (now + d) s.timeToLive = some _ :=
    Entry.fresh?_eq_some_iff.mpr ⟨representable, rfl⟩
  have hpass : (s.pass ⟨k, .loading f⟩ now waker source).outcome =
      some (.loaded s.entries.next) := by
    simp only [pass, runLoad, reply, landValue_of_fresh k f hfresh]
  simp only [poll, passBound, passes, hpass]

end Store

namespace Session

variable {ι κ ν ε ω : Type} [DecidableEq ι] [DecidableEq κ] [DecidableEq ω]

/-- A store has no more than `m` entries, and whatever is stored makes room in the same way, by a
load as by a swap, unless it comes too late for an entry. -/
structure Bounded (m : Nat) (t : Clocked (Session ι κ ν ε ω)) : Prop where
  capacity_eq : t.state.store.capacity = some m
  size_le : t.state.store.size ≤ m
  lands : ∀ i k f waker source d v, t.state.Leads i k f → source.reply = .answered d v →
    isRepresentable (t.now + d + t.state.store.timeToLive.toNanos) = true →
      ∃ r, (t.state.store.poll ⟨k, .loading f⟩ t.now waker source).outcome = some (.loaded r)
  loaded : ∀ i c waker source r, t.state.calls.get? i = some c →
    (t.state.store.poll c t.now waker source).outcome = some (.loaded r) →
      ∃ d v, source.reply = .answered d v ∧
        let p := t.state.store.poll c t.now waker source
        t.state.store.RoomMade c.key v (t.now + d) r p.evicted p.store ∧
          t.state.store.SoonestFirst c.key (t.now + d) r p.evicted p.store
  swaps : ∀ k current value, t.state.store.holds k current = true →
    isRepresentable (t.now + t.state.store.timeToLive.toNanos) = true →
      ∃ stored, t.state.store.swapIfSame k current value t.now = .ok stored
  swapped : ∀ k current value stored,
    t.state.store.swapIfSame k current value t.now = .ok stored →
      t.state.store.RoomMade k value t.now stored.entry stored.evicted stored.store ∧
        t.state.store.SoonestFirst k t.now stored.entry stored.evicted stored.store

theorem Orderly.bounded {m : Nat} {t : Clocked (Session ι κ ν ε ω)} (ho : t.state.Orderly)
    (hs : t.state.store.Sound) (capacity : t.state.store.capacity = some m) : Bounded m t := by
  constructor
  case capacity_eq => exact capacity
  case size_le => exact hs.within m capacity
  case lands =>
    intro i k f waker source d v _ reply representable
    exact ⟨_, Store.outcome_poll_of_answered reply representable⟩
  case loaded =>
    intro i c waker source r _ hloaded
    have hpolled : Store.Polled t.now waker source t.state.store c _ :=
      Store.polled_poll ho.allAloft c
    obtain ⟨d, v, hreply, hroom⟩ := hpolled.roomMade hs.toTidy hloaded
    have hsound := (t.state.store.changes_poll c t.now waker source).sound hs
    exact ⟨d, v, hreply, hroom, hroom.soonestFirst hsound.toTidy⟩
  case swaps =>
    intro k current value holds representable
    exact Store.exists_swapIfSame holds representable
  case swapped =>
    intro k current value stored hstored
    have hroom := Store.roomMade_swapIfSame hs.toTidy hstored
    exact ⟨hroom, hroom.soonestFirst ((Store.changes_swapIfSame hstored).sound hs).toTidy⟩

/-- Whatever happens to a store that is laid out for `m` entries, it keeps to that number, and gives
up those that expire soonest. -/
theorem capacity_kept (m : Nat) (l : Layout) (hash : κ → UInt64) (start : Instant)
    (events : List (SessionEvent ι κ ν ε ω)) :
    Bounded m (events.foldl perform ⟨start, ofLayout { l with capacity := some m } hash⟩) :=
  (orderly_run _ hash start events).bounded (sound_run _ hash start events)
    (sameMeasures_run _ hash start events).capacity_eq

end Session

end ReadThrough
