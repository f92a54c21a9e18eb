import ReadThrough.Proofs.Store.Replacing

/-!
# What becomes of the contents of entries

Apart from its lease an entry changes in one way only: a lookup that finds it records the access. A
new entry comes about where a value is stored, and nowhere else. All other operations remove entries
from their slots, if anything.
-/

namespace ReadThrough

variable {κ ν ε ω : Type}

def Outcome.hit? : Outcome ν ε ω → Option (Ref (Entry ν))
  | .hit r => some r
  | _ => none

@[simp] theorem Outcome.hit?_eq_some_iff {o : Outcome ν ε ω} {r : Ref (Entry ν)} :
    o.hit? = some r ↔ o = .hit r := by
  cases o <;> simp [hit?]

namespace Outcome

variable {o : Option (Outcome ν ε ω)} {r : Ref (Entry ν)}

theorem bind_hit?_eq_some_iff : o.bind (·.hit?) = some r ↔ o = some (.hit r) := by
  cases o <;> simp

theorem hit_or_loaded (resolved : o.bind (·.resolved?) = some r) :
    o = some (.hit r) ∨ o = some (.loaded r) := by
  obtain ⟨o, rfl, ho⟩ := Option.bind_eq_some_iff.mp resolved
  cases o with
  | hit =>
    cases ho
    exact .inl rfl
  | loaded =>
    cases ho
    exact .inr rfl
  | _ => cases ho

theorem resolved?_eq_none (unread : o.bind (·.hit?) = none)
    (unloaded : ∀ r, o ≠ some (.loaded r)) : o.bind (·.resolved?) = none := by
  cases hresolved : o.bind (·.resolved?) with
  | none => rfl
  | some r =>
    rcases hit_or_loaded hresolved with rfl | loaded
    · cases unread
    · exact absurd loaded (unloaded r)

end Outcome

namespace Store

variable [DecidableEq κ] {s s' s'' : Store κ ν ε ω} {k : κ} {value : Option ν} {now : Instant}
  {r : Ref (Entry ν)}

/-- At most slots have gone, and leases have changed. -/
structure Sheds (s s' : Store κ ν ε ω) : Prop where
  slot? : ∀ {k r}, s'.slot? k = some r → s.slot? k = some r
  contents?_eq : ∀ r, s'.contents? r = s.contents? r

namespace Sheds

theorem refl (s : Store κ ν ε ω) : s.Sheds s := ⟨id, fun _ => rfl⟩

theorem trans (h : s.Sheds s') (h' : s'.Sheds s'') : s.Sheds s'' :=
  ⟨h.slot? ∘ h'.slot?, fun r => (h'.contents?_eq r).trans (h.contents?_eq r)⟩

end Sheds

theorem SameRecords.sheds (h : s.SameRecords s') : s.Sheds s' :=
  ⟨fun hr => by rw [← h.slot?_eq, hr], h.contents?_eq⟩

theorem SameTables.sheds (h : s.SameTables s') : s.Sheds s' :=
  ⟨fun hr => by rw [← h.slot?_eq, hr], fun r => by rw [contents?, h.entryAt?_eq, contents?]⟩

theorem SameTables.live?_eq (h : s.SameTables s') (k : κ) (now : Instant) :
    s'.live? k now = s.live? k now := by
  rw [live?, h.slot?_eq, isLive_congr h.entries_eq, live?]

theorem Emptied.sheds (h : s.Emptied k s') : s.Sheds s' where
  slot? hr := by
    rw [h.slot?_eq] at hr
    split at hr
    · cases hr
    · exact hr
  contents?_eq := h.contents?_eq

theorem sheds_forget (s : Store κ ν ε ω) (k : κ) : s.Sheds (s.forget k) :=
  (s.emptied_forget k).sheds

theorem sheds_remove (s : Store κ ν ε ω) (k : κ) : s.Sheds (s.remove k).2 := by
  unfold remove
  split
  · exact sheds_forget s k
  · exact .refl s

theorem sheds_removeIfSame (s : Store κ ν ε ω) (k : κ) (r : Ref (Entry ν)) :
    s.Sheds (s.removeIfSame k r).2 := by
  unfold removeIfSame
  split
  · exact sheds_forget s k
  · exact .refl s

theorem sheds_clear (s : Store κ ν ε ω) : s.Sheds s.clear where
  slot? hr := by
    rw [slot?_clear] at hr
    cases hr
  contents?_eq _ := rfl

def freshContents (s : Store κ ν ε ω) (value : Option ν) (now : Instant) : Entry ν :=
  ⟨value, now, now + s.timeToLive.toNanos, 0, .idle⟩

/-- The new entry `r`, made of `value` now, has been stored for `k`. -/
structure Stocked (s : Store κ ν ε ω) (k : κ) (r : Ref (Entry ν)) (value : Option ν)
    (now : Instant) (s' : Store κ ν ε ω) : Prop where
  new : s.entryAt? r = none
  fresh : s'.contents? r = some (s.freshContents value now)
  kept : ∀ q, q ≠ r → s'.contents? q = s.contents? q
  slot? : ∀ {j q}, s'.slot? j = some q → j = k ∧ q = r ∨ j ≠ k ∧ s.slot? j = some q

theorem RoomMade.stocked {evicted : List κ} (h : s.RoomMade k value now r evicted s') :
    s.Stocked k r value now s' where
  new := h.new
  fresh := by
    rw [contents?, h.fresh]
    rfl
  kept q hq := by rw [contents?, h.kept q hq, contents?]
  slot? {j q} hq := by
    have hstocked := (Option.filter_eq_some_iff.mp (h.restocked_of_slot? hq).2).1
    split at hstocked
    · rename_i hj
      cases hstocked
      exact .inl ⟨hj, rfl⟩
    · rename_i hj
      exact .inr ⟨hj, hstocked⟩

theorem Replaced.stocked (h : s.Replaced k value now r s') : s.Stocked k r value now s' where
  new := h.new
  fresh := by
    rw [contents?, h.fresh]
    rfl
  kept := h.kept
  slot? {j q} hq := by
    by_cases hj : j = k
    · subst hj
      rw [h.slot?_self] at hq
      split at hq
      · cases hq
        exact .inl ⟨rfl, rfl⟩
      · cases hq
    · rw [h.slot?_other j hj] at hq
      exact .inr ⟨hj, (Option.filter_eq_some_iff.mp hq).1⟩

theorem Stocked.sheds (h : s.Stocked k r value now s') (h' : s'.Sheds s'') :
    s.Stocked k r value now s'' where
  new := h.new
  fresh := by rw [h'.contents?_eq, h.fresh]
  kept q hq := by rw [h'.contents?_eq, h.kept q hq]
  slot? hq := h.slot? (h'.slot? hq)

theorem SameTables.stocked (same : s.SameTables s') (h : s'.Stocked k r value now s'') :
    s.Stocked k r value now s'' where
  new := by rw [← same.entryAt?_eq, h.new]
  fresh := by rw [h.fresh, freshContents, same.timeToLive_eq, freshContents]
  kept q hq := by rw [h.kept q hq, same.sheds.contents?_eq]
  slot? hq := (h.slot? hq).imp_right fun ⟨hj, hq⟩ => ⟨hj, same.sheds.slot? hq⟩

omit [DecidableEq κ] in
theorem contents?_of_entryAt? {x : Entry ν} (hx : s.entryAt? r = some x) :
    s.contents? r = some (x.withLease .idle) := by
  rw [contents?, hx, Option.map_some]

omit [DecidableEq κ] in
theorem expires?_of_contents? {x : Entry ν} (hx : s.contents? r = some x) :
    s.expires? r = some x.expires := by
  obtain ⟨y, hy, rfl⟩ := Option.map_eq_some_iff.mp hx
  rw [expires?, hy]
  rfl

omit [DecidableEq κ] in
theorem contents?_recordAccess (s : Store κ ν ε ω) (r q : Ref (Entry ν)) (now : Instant) :
    (s.modifyEntry r (·.recordAccess now)).contents? q =
      if q = r then (s.contents? q).map (·.recordAccess now) else s.contents? q := by
  rw [contents?, entryAt?_modifyEntry, contents?]
  split
  · rw [Option.map_map, Option.map_map]
    rfl
  · rfl

theorem Sheds.recordAccess (h : s.Sheds s') (r : Ref (Entry ν)) (now : Instant) :
    (s.modifyEntry r (·.recordAccess now)).Sheds (s'.modifyEntry r (·.recordAccess now)) where
  slot? := h.slot?
  contents?_eq q := by
    rw [contents?_recordAccess, contents?_recordAccess, h.contents?_eq]

section Polls

variable [DecidableEq ω] {waker : ω} {source : Source ν ε} {c : Call κ ε ω}
  {p : Progress κ ν ε ω}

/-- A poll that finds a live entry records the access, and that is all. -/
theorem Polled.hit (h : Polled now waker source s c p) (hit : p.outcome = some (.hit r)) :
    s.live? c.key now = some r ∧ p.store = s.modifyEntry r (·.recordAccess now) ∧
      p.ran = false := by
  induction h with
  | last pass _ =>
    cases pass with
    | hit live =>
      cases hit
      exact ⟨live, rfl, rfl⟩
    | _ => cases hit
  | @next s c p q pass outcome _ ih =>
    obtain ⟨hlive, hstore, hran⟩ := ih hit
    cases pass with
    | join missing => cases missing.symm.trans hlive
    | retry => exact ⟨hlive, hstore, hran⟩
    | lead missing =>
      rw [(sameTables_register s _).live?_eq, missing] at hlive
      cases hlive
    | _ => cases outcome

theorem Polled.sameTables (h : Polled now waker source s c p)
    (unresolved : p.outcome.bind (·.resolved?) = none) : s.SameTables p.store := by
  induction h with
  | @last s _ _ _ pass _ =>
    cases pass with
    | hit => cases unresolved
    | land => cases unresolved
    | lead => exact sameTables_register s _
    | refuse => exact sameTables_register s _
    | unarmed => exact sameTables_register s _
    | wait => exact sameTables_withFlights s _
    | fail => exact sameTables_concludeFlight s _ _ _
    | _ => exact .refl s
  | next pass outcome _ ih => exact (pass.sameTables outcome).1.trans (ih unresolved)

end Polls

end Store

end ReadThrough
