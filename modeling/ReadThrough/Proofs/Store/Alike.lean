import ReadThrough.Proofs.Store.Bounded

/-!
# Stores that look alike

Two stores look alike if they differ in nothing but the shards, the hashes and the expired entries
that they still hold. They stay alike whatever is done to both of them. The one thing that takes an
argument is storing an entry, since expired entries count against the capacity. But they are evicted
before any live entry is, and as long as no two entries expire at the same instant, a live entry is
evicted exactly if there are enough entries that expire later to fill the store.
-/

namespace ReadThrough.Store

variable {κ ν ε ω : Type}

section Apart

/-- No two loads have landed at the same instant: of all entries that were ever stored, no two were
created at the same time. -/
def LandedApart (s : Store κ ν ε ω) : Prop :=
  ∀ r q e e', s.entryAt? r = some e → s.entryAt? q = some e' → e.created = e'.created → r = q

theorem landedApart_of_nodup {s : Store κ ν ε ω}
    (h : (s.entries.cells.toList.map (·.created)).Nodup) : s.LandedApart := by
  have hget : ∀ {r e}, s.entryAt? r = some e →
      (s.entries.cells.toList.map (·.created))[r.index]? = some e.created := by
    intro r e he
    have hcell : s.entries.cells[r.index]? = some e := he
    rw [List.getElem?_map, Array.getElem?_toList, hcell, Option.map_some]
  intro r q e e' hr hq hcreated
  have hlt := (List.getElem?_eq_some_iff.mp (hget hr)).1
  have hsame := (hget hr).trans (hcreated ▸ (hget hq).symm)
  exact Ref.ext ((List.getElem?_inj hlt h).mp hsame)

theorem Onward.landedApart [DecidableEq κ] {s s' : Store κ ν ε ω} (h : s.Onward s')
    (apart : s'.LandedApart) : s.LandedApart := by
  intro r q e e' hr hq hcreated
  obtain ⟨d, hd, hd'⟩ := h.entries hr
  obtain ⟨d', hd'', hd'''⟩ := h.entries hq
  exact apart r q d d' hd hd'' (by rw [hd', hd''', hcreated])

end Apart

variable [DecidableEq κ] {s s' x x' : Store κ ν ε ω} {now later : Instant} {k : κ}
  {r : Ref (Entry ν)}

section Liveness

theorem live?_eq_some_iff :
    s.live? k now = some r ↔ s.slot? k = some r ∧ s.isLive now r = true :=
  Option.filter_eq_some_iff

omit [DecidableEq κ] in
theorem isLive_of_later (le : now ≤ later) (h : s.isLive later r = true) :
    s.isLive now r = true := by
  rw [isLive, Option.any_eq_true] at h ⊢
  obtain ⟨e, he, hlive⟩ := h
  refine ⟨e, he, ?_⟩
  simp only [Entry.hasExpired, Bool.not_eq_true', decide_eq_false_iff_not, Nat.not_le] at hlive ⊢
  exact Nat.lt_of_le_of_lt le hlive

theorem live?_later (le : now ≤ later) :
    s.live? k later = (s.live? k now).filter (s.isLive later) := by
  ext q
  rw [live?_eq_some_iff, Option.filter_eq_some_iff, live?_eq_some_iff]
  constructor
  · rintro ⟨hslot, hlive⟩
    exact ⟨⟨hslot, isLive_of_later le hlive⟩, hlive⟩
  · rintro ⟨⟨hslot, -⟩, hlive⟩
    exact ⟨hslot, hlive⟩

end Liveness

/-- At `now` and ever after, `s'` shows the same as `s`. -/
structure Alike (now : Instant) (s s' : Store κ ν ε ω) : Prop extends SameFlights s s' where
  timeToLive_eq : s'.timeToLive = s.timeToLive
  capacity_eq : s'.capacity = s.capacity
  entries_eq : s'.entries = s.entries
  live?_eq : ∀ k, s'.live? k now = s.live? k now

namespace Alike

theorem symm (h : s.Alike now s') : s'.Alike now s where
  flights_eq := h.flights_eq.symm
  flight?_eq k := (h.flight?_eq k).symm
  timeToLive_eq := h.timeToLive_eq.symm
  capacity_eq := h.capacity_eq.symm
  entries_eq := h.entries_eq.symm
  live?_eq k := (h.live?_eq k).symm

theorem mono (h : s.Alike now s') (le : now ≤ later) : s.Alike later s' where
  toSameFlights := h.toSameFlights
  timeToLive_eq := h.timeToLive_eq
  capacity_eq := h.capacity_eq
  entries_eq := h.entries_eq
  live?_eq k := by rw [live?_later le, live?_later le, h.live?_eq, isLive_congr h.entries_eq]

theorem entryAt?_eq (h : s.Alike now s') : s'.entryAt? = s.entryAt? := by
  funext r
  rw [entryAt?, entryAt?, h.entries_eq]

theorem after (h : s.Alike now s') (measures : s.SameMeasures x) (measures' : s'.SameMeasures x')
    (flights : x.SameFlights x') (entries : x'.entries = x.entries)
    (live : ∀ j, x'.live? j later = x.live? j later) : x.Alike later x' where
  toSameFlights := flights
  timeToLive_eq := by rw [measures'.timeToLive_eq, h.timeToLive_eq, measures.timeToLive_eq]
  capacity_eq := by rw [measures'.capacity_eq, h.capacity_eq, measures.capacity_eq]
  entries_eq := entries
  live?_eq := live

theorem sameTables (h : s.Alike now s') (hx : s.SameTables x) (hx' : s'.SameTables x')
    (flights : x.SameFlights x') : x.Alike now x' := by
  apply h.after hx.toSameMeasures hx'.toSameMeasures flights
  case entries => rw [hx'.entries_eq, h.entries_eq, hx.entries_eq]
  case live =>
    intro j
    have hlive : x.live? j now = s.live? j now := by
      rw [live?, hx.slot?_eq, isLive_congr hx.entries_eq, live?]
    have hlive' : x'.live? j now = s'.live? j now := by
      rw [live?, hx'.slot?_eq, isLive_congr hx'.entries_eq, live?]
    rw [hlive, hlive', h.live?_eq]

end Alike

section Storing

variable {s₁ s₁' : Store κ ν ε ω} {value : Option ν} {evicted evicted' : List κ} {i j : κ}
  {p q : Ref (Entry ν)}

theorem Sound.restocked_single (hs : s.Sound) (new : s.entryAt? r = none)
    {live : Ref (Entry ν) → Bool} (hi : s.restocked k r live i = some q)
    (hj : s.restocked k r live j = some q) : i = j := by
  have hi := (Option.filter_eq_some_iff.mp hi).1
  have hj := (Option.filter_eq_some_iff.mp hj).1
  split at hi
  · cases hi
    split at hj
    · rw [‹i = k›, ‹j = k›]
    · exact absurd rfl (hs.ne_of_new new hj)
  · split at hj
    · cases hj
      exact absurd rfl (hs.ne_of_new new hi)
    · exact hs.single hi hj

theorem RoomMade.restocked_live_iff (h : s.RoomMade k value now r evicted s₁) (hs : s.Tidy) :
    s.restocked k r (s₁.isLive now) j = some q ∧ s₁.isLive now q = true ↔
      (if j = k then some r else s.live? j now) = some q ∧ s₁.isLive now q = true := by
  rw [restocked, Option.filter_eq_some_iff]
  split
  · constructor
    · rintro ⟨⟨hq, -⟩, hlive⟩
      exact ⟨hq, hlive⟩
    · rintro ⟨hq, hlive⟩
      exact ⟨⟨hq, by rw [hlive, Bool.or_true]⟩, hlive⟩
  · constructor
    · rintro ⟨⟨hq, -⟩, hlive⟩
      refine ⟨live?_eq_some_iff.mpr ⟨hq, ?_⟩, hlive⟩
      rw [isLive, ← h.kept q (hs.ne_of_new h.new hq)]
      exact hlive
    · rintro ⟨hq, hlive⟩
      exact ⟨⟨(live?_eq_some_iff.mp hq).1, by rw [hlive, Bool.or_true]⟩, hlive⟩

/-- An entry is stored for `k` in each of two stores that are alike, and they make room for it. -/
structure BothStore (k : κ) (value : Option ν) (now : Instant) (r : Ref (Entry ν))
    (s s₁ : Store κ ν ε ω) (evicted : List κ) (s' s₁' : Store κ ν ε ω) (evicted' : List κ) :
    Prop where
  alike : s.Alike now s'
  room : s.RoomMade k value now r evicted s₁
  room' : s'.RoomMade k value now r evicted' s₁'
  sound : s.Sound
  sound' : s'.Sound
  made : s₁.Sound
  made' : s₁'.Sound
  entries_eq : s₁'.entries = s₁.entries
  apart : s.capacity ≠ none → s₁.LandedApart

namespace BothStore

variable (h : BothStore k value now r s s₁ evicted s' s₁' evicted')

include h

theorem symm : BothStore k value now r s' s₁' evicted' s s₁ evicted where
  alike := h.alike.symm
  room := h.room'
  room' := h.room
  sound := h.sound'
  sound' := h.sound
  made := h.made'
  made' := h.made
  entries_eq := h.entries_eq.symm
  apart hcapacity := by
    have hapart := h.apart (h.alike.capacity_eq ▸ hcapacity)
    rw [LandedApart] at hapart ⊢
    simp only [entryAt?, h.entries_eq]
    exact hapart

theorem restocked (hq : s.restocked k r (s₁.isLive now) j = some q)
    (live : s₁.isLive now q = true) : s'.restocked k r (s₁'.isLive now) j = some q := by
  have hleft := (h.room.restocked_live_iff h.sound.toTidy).mp ⟨hq, live⟩
  rw [← h.alike.live?_eq, ← isLive_congr h.entries_eq] at hleft
  exact ((h.room'.restocked_live_iff h.sound'.toTidy).mpr hleft).1

theorem expires?_eq : s₁'.expires? = s₁.expires? := by
  funext q
  rw [expires?, expires?, entryAt?, entryAt?, h.entries_eq]

theorem eq_of_expires_eq (bounded : s.capacity ≠ none) {t : Instant}
    (hp : s.restocked k r (s₁.isLive now) i = some p)
    (hq : s.restocked k r (s₁.isLive now) j = some q)
    (hpt : s₁.expires? p = some t) (hqt : s₁.expires? q = some t) : i = j := by
  obtain ⟨e, he, hexpires⟩ := Option.map_eq_some_iff.mp hpt
  obtain ⟨e', he', hexpires'⟩ := Option.map_eq_some_iff.mp hqt
  have hcreated : e.created = e'.created := by
    have hsum := h.made.timed he
    have hsum' := h.made.timed he'
    rw [hexpires] at hsum
    rw [hexpires'] at hsum'
    exact Nat.add_right_cancel (hsum.symm.trans hsum')
  obtain rfl := h.apart bounded p q e e' he he' hcreated
  exact h.sound.restocked_single h.room.new hp hq

/-- A live entry that one of the stores evicts, the other one evicts too. Otherwise that one would
have to keep it besides all that is left in the first, and exceed its capacity. -/
theorem evicted_of_evicted (hj : j ∈ evicted) (hq : s.restocked k r (s₁.isLive now) j = some q)
    (live : s₁.isLive now q = true) : j ∈ evicted' := by
  by_contra hj'
  have hcapacity := h.room.needed (List.ne_nil_of_mem hj)
  have hfits : s₁'.size ≤ s₁.size :=
    h.room'.fits s₁.size (h.alike.capacity_eq.trans hcapacity)
  obtain ⟨t, ht⟩ := h.room.expires?_isSome h.made.toTidy hq
  have hq' := h.restocked hq live
  have hsubset : s₁.residents ⊆ s₁'.residents := by
    intro i hi
    obtain ⟨p, hp⟩ := h.made.slots.mem_residents_iff.mp hi
    obtain ⟨hleft, hp⟩ := h.room.restocked_of_slot? hp
    obtain ⟨u, hu⟩ := h.room.expires?_isSome h.made.toTidy hp
    have hle : t ≤ u := h.room.inOrder.le_of_left hj (by rw [hq, Option.bind_some, ht]) hleft
      (by rw [hp, Option.bind_some, hu])
    have hlive : s₁.isLive now p = true := by
      rw [isLive_eq ht, decide_eq_true_eq] at live
      rw [isLive_eq hu, decide_eq_true_eq]
      exact Nat.lt_of_lt_of_le live hle
    have hp' := h.restocked hp hlive
    refine h.made'.slots.mem_residents_iff.mpr ⟨p, ?_⟩
    rw [h.room'.slot?_eq, if_neg, hp']
    intro hi'
    have hge : u ≤ t := h.room'.inOrder.le_of_left hi'
      (by rw [hp', Option.bind_some, h.expires?_eq, hu]) hj'
      (by rw [hq', Option.bind_some, h.expires?_eq, ht])
    obtain rfl := Nat.le_antisymm hle hge
    have hbounded : s.capacity ≠ none := by
      rw [hcapacity]
      exact Option.some_ne_none _
    have hij : i = j := h.eq_of_expires_eq hbounded hp hq hu ht
    exact hleft (hij ▸ hj)
  have hstrict : s₁.residents ⊂ s₁'.residents := by
    refine (Finset.ssubset_iff_of_subset hsubset).mpr ⟨j, ?_, ?_⟩
    · refine h.made'.slots.mem_residents_iff.mpr ⟨q, ?_⟩
      rw [h.room'.slot?_eq, if_neg hj', hq']
    · intro hin
      obtain ⟨p, hp⟩ := h.made.slots.mem_residents_iff.mp hin
      exact (h.room.restocked_of_slot? hp).1 hj
  have hcard := Finset.card_lt_card hstrict
  rw [h.made.slots.card_residents, h.made'.slots.card_residents] at hcard
  exact Nat.not_le_of_lt hcard hfits

theorem live?_of_live? (hq : s₁.live? j now = some q) : s₁'.live? j now = some q := by
  obtain ⟨hslot, hlive⟩ := live?_eq_some_iff.mp hq
  obtain ⟨hleft, hq⟩ := h.room.restocked_of_slot? hslot
  have hq' := h.restocked hq hlive
  have hlive' : s₁'.isLive now q = true := by rw [isLive_congr h.entries_eq, hlive]
  refine live?_eq_some_iff.mpr ⟨?_, hlive'⟩
  rw [h.room'.slot?_eq, if_neg, hq']
  exact fun hj' => hleft (h.symm.evicted_of_evicted hj' hq' hlive')

theorem live?_eq (j : κ) : s₁'.live? j now = s₁.live? j now := by
  ext q
  exact ⟨h.symm.live?_of_live?, h.live?_of_live?⟩

end BothStore

end Storing

end ReadThrough.Store
