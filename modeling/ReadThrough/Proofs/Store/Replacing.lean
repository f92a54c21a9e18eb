import ReadThrough.Proofs.Store.Bounded

/-!
# One entry in place of another

A new entry that takes the place of the entry that is stored needs no more room, so nothing is
evicted for it, and all that is dropped has expired. Removing an entry drops nothing else. A poll
resolves to an entry that is stored for its key, or to one that it has made.
-/

namespace ReadThrough.Store

variable {κ ν ε ω : Type} [DecidableEq κ] {s s' s'' : Store κ ν ε ω} {k : κ} {value : Option ν}
  {now : Instant} {r : Ref (Entry ν)} {evicted : List κ}

omit [DecidableEq κ] in
/-- An entry, apart from its lease. -/
def contents? (s : Store κ ν ε ω) (r : Ref (Entry ν)) : Option (Entry ν) :=
  (s.entryAt? r).map (·.withLease .idle)

/-- The same entries are stored, with the same contents and the same deadlines. -/
structure SameRecords (s s' : Store κ ν ε ω) : Prop extends SameMeasures s s' where
  slot?_eq : ∀ k, s'.slot? k = s.slot? k
  deadline?_eq : ∀ k, s'.deadline? k = s.deadline? k
  contents?_eq : ∀ r, s'.contents? r = s.contents? r

namespace SameRecords

theorem refl (s : Store κ ν ε ω) : s.SameRecords s :=
  ⟨.refl s, fun _ => rfl, fun _ => rfl, fun _ => rfl⟩

theorem trans (h : s.SameRecords s') (h' : s'.SameRecords s'') : s.SameRecords s'' :=
  ⟨h.toSameMeasures.trans h'.toSameMeasures, fun k => (h'.slot?_eq k).trans (h.slot?_eq k),
    fun k => (h'.deadline?_eq k).trans (h.deadline?_eq k),
    fun r => (h'.contents?_eq r).trans (h.contents?_eq r)⟩

theorem expires?_eq (h : s.SameRecords s') (r : Ref (Entry ν)) : s'.expires? r = s.expires? r := by
  have hexpires : ∀ x : Store κ ν ε ω, x.expires? r = (x.contents? r).map (·.expires) := by
    intro x
    rw [contents?, Option.map_map]
    rfl
  rw [hexpires, h.contents?_eq, hexpires]

theorem holds_eq (h : s.SameRecords s') (k : κ) (r : Ref (Entry ν)) :
    s'.holds k r = s.holds k r := by
  rw [holds, holds, h.slot?_eq]

theorem outlasts_eq (h : s.SameRecords s') (k j : κ) (now : Instant) :
    s'.Outlasts k j now = s.Outlasts k j now := by
  funext r
  rw [Outlasts, Outlasts, isLive_congr_expires? (funext h.expires?_eq),
    decide_eq_decide.mpr (not_congr h.home_eq_iff)]

theorem live?_eq (h : s.SameRecords s') (k : κ) (now : Instant) :
    s'.live? k now = s.live? k now := by
  rw [live?, live?, h.slot?_eq, isLive_congr_expires? (funext h.expires?_eq)]

end SameRecords

theorem sameRecords_modifyEntry (s : Store κ ν ε ω) (r : Ref (Entry ν)) {f : Entry ν → Entry ν}
    (hf : ∀ e, (f e).withLease .idle = e.withLease .idle) : s.SameRecords (s.modifyEntry r f) where
  toSameMeasures := ⟨rfl, rfl, rfl, rfl⟩
  slot?_eq _ := rfl
  deadline?_eq _ := rfl
  contents?_eq q := by
    rw [contents?, entryAt?_modifyEntry, contents?]
    split
    · rw [Option.map_map]
      exact congrArg (Option.map · _) (funext hf)
    · rfl

/-- An idle entry `r` that is made of `value` now has taken the place of the entry of `k`, and what
had expired in the shard of `k` has been dropped. -/
structure Replaced (s : Store κ ν ε ω) (k : κ) (value : Option ν) (now : Instant)
    (r : Ref (Entry ν)) (s' : Store κ ν ε ω) : Prop where
  new : s.entryAt? r = none
  fresh : s'.entryAt? r = some ⟨value, now, now + s.timeToLive.toNanos, 0, .idle⟩
  kept : ∀ q, q ≠ r → s'.contents? q = s.contents? q
  slot?_self : s'.slot? k = if 0 < s.timeToLive.toNanos then some r else none
  deadline?_self : s'.deadline? k =
    if 0 < s.timeToLive.toNanos then some (now + s.timeToLive.toNanos) else none
  slot?_other : ∀ j, j ≠ k → s'.slot? j = (s.slot? j).filter (s.Outlasts k j now)
  deadline?_other : ∀ j, j ≠ k → s'.deadline? j =
    (s.deadline? j).filter fun t => decide (s.home j ≠ s.home k) || decide (now < t)

/-- The entry of `k` has been removed, and nothing else. -/
structure Emptied (s : Store κ ν ε ω) (k : κ) (s' : Store κ ν ε ω) : Prop where
  slot?_eq : ∀ j, s'.slot? j = if j = k then none else s.slot? j
  deadline?_eq : ∀ j, s'.deadline? j = if j = k then none else s.deadline? j
  contents?_eq : ∀ r, s'.contents? r = s.contents? r

theorem emptied_forget (s : Store κ ν ε ω) (k : κ) : s.Emptied k (s.forget k) :=
  ⟨slot?_forget s k, deadline?_forget s k, fun _ => rfl⟩

theorem Emptied.congr (h : s.Emptied k s') {x : Store κ ν ε ω} (before : x.SameRecords s)
    (after : s'.SameRecords s'') : x.Emptied k s'' where
  slot?_eq j := by rw [after.slot?_eq, h.slot?_eq, before.slot?_eq]
  deadline?_eq j := by rw [after.deadline?_eq, h.deadline?_eq, before.deadline?_eq]
  contents?_eq r := by rw [after.contents?_eq, h.contents?_eq, before.contents?_eq]

theorem Replaced.congr (h : s.Replaced k value now r s') {x : Store κ ν ε ω}
    (before : x.SameRecords s) (after : s'.SameRecords s'')
    (untouched : s''.entryAt? r = s'.entryAt? r) : x.Replaced k value now r s'' where
  new := by
    have hnone : x.expires? r = none := by
      rw [← before.expires?_eq, expires?, h.new, Option.map_none]
    exact Option.map_eq_none_iff.mp hnone
  fresh := by rw [untouched, h.fresh, before.timeToLive_eq]
  kept q hq := by rw [after.contents?_eq, h.kept q hq, before.contents?_eq]
  slot?_self := by rw [after.slot?_eq, h.slot?_self, before.timeToLive_eq]
  deadline?_self := by rw [after.deadline?_eq, h.deadline?_self, before.timeToLive_eq]
  slot?_other j hj := by
    rw [after.slot?_eq, h.slot?_other j hj, before.slot?_eq, before.outlasts_eq]
  deadline?_other j hj := by
    rw [after.deadline?_eq, h.deadline?_other j hj, before.deadline?_eq]
    simp only [ne_eq, before.home_eq_iff]

theorem Replaced.eq_of_slot? (h : s.Replaced k value now r s') (hs : s.Tidy) {j : κ}
    (hj : s'.slot? j = some r) : j = k := by
  by_contra hne
  rw [h.slot?_other j hne] at hj
  exact hs.ne_of_new h.new (Option.filter_eq_some_iff.mp hj).1 rfl

namespace RoomMade

theorem slot?_of_restocked {live : Ref (Entry ν) → Bool} {j : κ} {p q : Ref (Entry ν)}
    (occupied : s.slot? k = some p) (hq : s.restocked k r live j = some q) :
    ∃ q', s.slot? j = some q' := by
  have hj := (Option.filter_eq_some_iff.mp hq).1
  split at hj
  · rename_i hjk
    exact ⟨p, hjk ▸ occupied⟩
  · exact ⟨q, hj⟩

/-- Nothing is evicted for an entry that takes the place of another. -/
theorem evicted_eq_nil (h : s.RoomMade k value now r evicted s') (hs : s.Sound) (tidy : s'.Tidy)
    {p : Ref (Entry ν)} (occupied : s.slot? k = some p) : evicted = [] := by
  by_contra hne
  obtain ⟨j, hj⟩ := List.exists_mem_of_ne_nil evicted hne
  -- All that is left was there before, and the key `j` was there too.
  have hsub : s'.residents ⊆ s.residents.erase j := by
    intro i hi
    obtain ⟨q, hq⟩ := tidy.slots.mem_residents_iff.mp hi
    obtain ⟨hleft, hq⟩ := h.restocked_of_slot? hq
    rw [Finset.mem_erase, hs.slots.mem_residents_iff]
    exact ⟨fun hij => hleft (hij ▸ hj), slot?_of_restocked occupied hq⟩
  have hmem : j ∈ s.residents := by
    obtain ⟨t, ht⟩ := h.inOrder.expiry_eq_some hj
    obtain ⟨q, hq, -⟩ := Option.bind_eq_some_iff.mp ht
    exact hs.slots.mem_residents_iff.mpr (slot?_of_restocked occupied hq)
  have hlt : s'.residents.card < s.residents.card :=
    Nat.lt_of_le_of_lt (Finset.card_le_card hsub) (Finset.card_erase_lt_of_mem hmem)
  rw [tidy.slots.card_residents, hs.slots.card_residents] at hlt
  exact Nat.not_le_of_lt hlt (hs.within _ (h.needed hne))

section Unevicted

variable (h : s.RoomMade k value now r [] s')
include h

theorem slot?_self : s'.slot? k = if 0 < s.timeToLive.toNanos then some r else none := by
  rw [h.slot?_eq, if_neg List.not_mem_nil, restocked, if_pos rfl, Option.filter_some,
    isLive_eq h.expires?_fresh]
  simp

theorem slot?_other (hs : s.Tidy) {j : κ} (hj : j ≠ k) :
    s'.slot? j = (s.slot? j).filter (s.Outlasts k j now) := by
  rw [h.slot?_eq, if_neg List.not_mem_nil, restocked, if_neg hj]
  cases hq : s.slot? j with
  | none => rfl
  | some q =>
    have hlive : s'.isLive now q = s.isLive now q := by
      rw [isLive, h.kept q (hs.ne_of_new h.new hq), isLive]
    rw [Option.filter_some, Option.filter_some, hlive, Outlasts]

theorem deadline?_other (hs : s.Tidy) (tidy : s'.Tidy) {j : κ} (hj : j ≠ k) :
    s'.deadline? j =
      (s.deadline? j).filter fun t => decide (s.home j ≠ s.home k) || decide (now < t) := by
  rw [tidy.recorded, hs.recorded, expiry?, expiry?, h.slot?_other hs hj]
  cases hq : s.slot? j with
  | none => rfl
  | some q =>
    obtain ⟨e, he⟩ := hs.present hq
    have hexpires : s.expires? q = some e.expires := by rw [expires?, he, Option.map_some]
    have hkept : s'.expires? q = some e.expires := by
      rw [expires?, h.kept q (hs.ne_of_new h.new hq), he, Option.map_some]
    rw [Option.filter_some, Option.bind_some, hexpires, Option.filter_some, Outlasts,
      isLive_eq hexpires]
    split
    · exact hkept
    · rfl

end Unevicted

theorem replaced (h : s.RoomMade k value now r evicted s') (hs : s.Sound) (tidy : s'.Tidy)
    {p : Ref (Entry ν)} (occupied : s.slot? k = some p) : s.Replaced k value now r s' := by
  obtain rfl := h.evicted_eq_nil hs tidy occupied
  constructor
  case new => exact h.new
  case fresh => exact h.fresh
  case kept =>
    intro q hq
    rw [contents?, h.kept q hq, contents?]
  case slot?_self => exact h.slot?_self
  case slot?_other => exact fun j hj => h.slot?_other hs.toTidy hj
  case deadline?_self =>
    rw [tidy.recorded, expiry?, h.slot?_self]
    split
    · exact h.expires?_fresh
    · rfl
  case deadline?_other => exact fun j hj => h.deadline?_other hs.toTidy tidy hj

end RoomMade

section Resolving

variable [DecidableEq ω] {waker : ω} {source : Source ν ε} {c : Call κ ε ω}
  {p : Progress κ ν ε ω}

theorem Pass.resolved (h : Pass s now waker source c p)
    (resolved : p.outcome.bind (·.resolved?) = some r) :
    s.slot? c.key = some r ∨ s.entryAt? r = none := by
  cases h with
  | hit live =>
    cases resolved
    exact .inl (Option.filter_eq_some_iff.mp live).1
  | land =>
    cases resolved
    exact .inr (Arena.get?_next _)
  | _ => cases resolved

theorem resolved_passes (n : Nat) {s : Store κ ν ε ω} {c : Call κ ε ω}
    (resolved : (s.passes n c now waker source).outcome.bind (·.resolved?) = some r) :
    s.slot? c.key = some r ∨ s.entryAt? r = none := by
  induction n generalizing s c with
  | zero => cases resolved
  | succ n ih =>
    have hpass := pass_spec s now waker source c
    unfold passes at resolved
    simp only at resolved
    split at resolved
    · exact hpass.resolved resolved
    · rename_i outcome
      obtain ⟨hsame, -⟩ := hpass.sameTables outcome
      rw [← hpass.key_eq, ← hsame.slot?_eq, ← hsame.entryAt?_eq]
      exact ih resolved

theorem resolved_poll
    (resolved : (s.poll c now waker source).outcome.bind (·.resolved?) = some r) :
    s.slot? c.key = some r ∨ s.entryAt? r = none :=
  resolved_passes passBound resolved

end Resolving

end ReadThrough.Store
