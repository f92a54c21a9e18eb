import ReadThrough.Proofs.Store.Homes
import ReadThrough.Proofs.Store.Traffic
import ReadThrough.Proofs.Tables
import ReadThrough.Store.Layout

/-!
# Slots and deadlines in step

Between operations a store has a deadline on record for exactly the keys that have a slot, and it is
the expiry of the entry in this slot. Removing entries keeps it so, and so does whatever is done to
flights. Storing an entry first brings it into its slot; its deadline is recorded after that.
-/

namespace ReadThrough.Store

variable {κ ν ε ω : Type}

section Views

variable [DecidableEq κ]

/-- When the entry of `k` is recorded to expire. -/
def deadline? (s : Store κ ν ε ω) (k : κ) : Option Instant := (s.shardOf k).deadlines.get? k

omit [DecidableEq κ] in
def expires? (s : Store κ ν ε ω) (r : Ref (Entry ν)) : Option Instant :=
  (s.entryAt? r).map (·.expires)

/-- When the entry stored for `k` expires. -/
def expiry? (s : Store κ ν ε ω) (k : κ) : Option Instant := (s.slot? k).bind s.expires?

theorem deadline?_modifyShard {s : Store κ ν ε ω} {k : κ} {f : Shard κ ν ε ω → Shard κ ν ε ω}
    (h : ∀ sh j, j ≠ k → (f sh).deadlines.get? j = sh.deadlines.get? j) (j : κ) :
    (s.modifyShard k f).deadline? j =
      if j = k then (f (s.shardOf k)).deadlines.get? k else s.deadline? j :=
  get?_modifyShard h j

theorem deadline?_forget (s : Store κ ν ε ω) (k j : κ) :
    (s.forget k).deadline? j = if j = k then none else s.deadline? j := by
  unfold forget
  rw [deadline?_modifyShard]
  · simp [Table.get?_erase]
  · intro sh i hi
    simp [Table.get?_erase, hi]

omit [DecidableEq κ] in
theorem entryAt?_modifyEntry (s : Store κ ν ε ω) (r : Ref (Entry ν)) (f : Entry ν → Entry ν)
    (q : Ref (Entry ν)) :
    (s.modifyEntry r f).entryAt? q = if q = r then (s.entryAt? q).map f else s.entryAt? q :=
  Arena.get?_modify _ _ _ _

omit [DecidableEq κ] in
theorem expires?_modifyEntry (s : Store κ ν ε ω) (r : Ref (Entry ν)) {f : Entry ν → Entry ν}
    (hf : ∀ e, (f e).expires = e.expires) (q : Ref (Entry ν)) :
    (s.modifyEntry r f).expires? q = s.expires? q := by
  rw [expires?, entryAt?_modifyEntry, expires?]
  split
  · rw [Option.map_map]
    exact congrArg (Option.map · _) (funext hf)
  · rfl

omit [DecidableEq κ] in
theorem isLive_congr_expires? {s s' : Store κ ν ε ω} (h : s'.expires? = s.expires?) :
    s'.isLive = s.isLive := by
  have hany : ∀ (x : Store κ ν ε ω) t q,
      x.isLive t q = (x.expires? q).any fun u => !decide (u ≤ t) := by
    intro x t q
    rw [isLive, expires?, Option.any_map]
    rfl
  funext t q
  rw [hany, hany, h]

omit [DecidableEq κ] in
theorem isLive_congr {s s' : Store κ ν ε ω} (h : s'.entries = s.entries) :
    s'.isLive = s.isLive := by
  apply isLive_congr_expires?
  funext q
  rw [expires?, expires?, entryAt?, entryAt?, h]

end Views

/-- What a store is laid out with stays the same. -/
structure SameMeasures (s s' : Store κ ν ε ω) : Prop where
  hash_eq : s'.hash = s.hash
  shardBits_eq : s'.shardBits = s.shardBits
  timeToLive_eq : s'.timeToLive = s.timeToLive
  capacity_eq : s'.capacity = s.capacity

theorem SameMeasures.refl (s : Store κ ν ε ω) : s.SameMeasures s := ⟨rfl, rfl, rfl, rfl⟩

theorem SameMeasures.trans {s s' s'' : Store κ ν ε ω} (h : s.SameMeasures s')
    (h' : s'.SameMeasures s'') : s.SameMeasures s'' :=
  ⟨h'.hash_eq.trans h.hash_eq, h'.shardBits_eq.trans h.shardBits_eq,
    h'.timeToLive_eq.trans h.timeToLive_eq, h'.capacity_eq.trans h.capacity_eq⟩

theorem SameMeasures.home_val_eq {s s' : Store κ ν ε ω} (h : s.SameMeasures s') (k : κ) :
    (s'.home k).val = (s.home k).val := by
  simp only [home, h.hash_eq, h.shardBits_eq]

theorem SameMeasures.home_eq_iff {s s' : Store κ ν ε ω} (h : s.SameMeasures s') {j k : κ} :
    s'.home j = s'.home k ↔ s.home j = s.home k := by
  rw [Fin.ext_iff, Fin.ext_iff, h.home_val_eq, h.home_val_eq]

variable [DecidableEq κ]

/-- All tables have each key in its home shard only. -/
structure AtHome (s : Store κ ν ε ω) : Prop where
  slots : s.Homed Shard.slots
  deadlines : s.Homed Shard.deadlines
  flights : s.Homed Shard.flights

/-- What holds of the slots and deadlines of a store between operations. -/
structure Tidy (s : Store κ ν ε ω) : Prop extends AtHome s where
  present : ∀ {k r}, s.slot? k = some r → ∃ e, s.entryAt? r = some e
  recorded : ∀ k, s.deadline? k = s.expiry? k

variable {s s' s'' x : Store κ ν ε ω} {k : κ} {e : Entry ν}

theorem AtHome.modifyShard (h : s.AtHome) (k : κ) {f : Shard κ ν ε ω → Shard κ ν ε ω}
    (slots : ∀ sh j r, (f sh).slots.get? j = some r → j = k ∨ ∃ q, sh.slots.get? j = some q)
    (deadlines : ∀ sh j t, (f sh).deadlines.get? j = some t →
      j = k ∨ ∃ u, sh.deadlines.get? j = some u)
    (flights : ∀ sh j g, (f sh).flights.get? j = some g →
      j = k ∨ ∃ g', sh.flights.get? j = some g') :
    (s.modifyShard k f).AtHome :=
  ⟨h.slots.modifyShard k slots, h.deadlines.modifyShard k deadlines,
    h.flights.modifyShard k flights⟩

theorem expiry?_eq_some_iff {t : Instant} :
    s.expiry? k = some t ↔ ∃ r, s.slot? k = some r ∧ s.expires? r = some t :=
  Option.bind_eq_some_iff

theorem Tidy.expiry?_isSome (h : s.Tidy) {r : Ref (Entry ν)} (hr : s.slot? k = some r) :
    ∃ t, s.expiry? k = some t := by
  obtain ⟨e, he⟩ := h.present hr
  exact ⟨e.expires, by rw [expiry?, hr, Option.bind_some, expires?, he, Option.map_some]⟩

theorem Tidy.ne_of_new (h : s.Tidy) {j : κ} {q r : Ref (Entry ν)} (new : s.entryAt? r = none)
    (hq : s.slot? j = some q) : q ≠ r := by
  rintro rfl
  obtain ⟨e, he⟩ := h.present hq
  rw [new] at he
  cases he

theorem expiry?_eq_none (h : s.slot? k = none) : s.expiry? k = none := by
  rw [expiry?, h, Option.bind_none]

theorem expiry?_forget (s : Store κ ν ε ω) (k j : κ) :
    (s.forget k).expiry? j = if j = k then none else s.expiry? j := by
  rw [expiry?, slot?_forget]
  split
  · rfl
  · rfl

theorem slot?_remove (s : Store κ ν ε ω) (k j : κ) :
    (s.remove k).2.slot? j = if j = k then none else s.slot? j := by
  unfold remove
  split
  · exact slot?_forget s k j
  · rename_i hnone
    split
    · rename_i hj
      rw [hj, hnone]
    · rfl

theorem slot?_clear (s : Store κ ν ε ω) (k : κ) : s.clear.slot? k = none := by
  rw [slot?, shardOf_clear]
  rfl

theorem slot?_ofLayout (l : Layout) (hash : κ → UInt64) (k : κ) :
    (ofLayout l hash : Store κ ν ε ω).slot? k = none := by
  rw [slot?, shardOf_ofLayout]
  rfl

/-- The same store but for its flights. -/
structure SameTables (s s' : Store κ ν ε ω) : Prop extends SameMeasures s s' where
  entries_eq : s'.entries = s.entries
  slot?_eq : ∀ k, s'.slot? k = s.slot? k
  deadline?_eq : ∀ k, s'.deadline? k = s.deadline? k
  atHome : s.AtHome → s'.AtHome

namespace SameTables

theorem refl (s : Store κ ν ε ω) : s.SameTables s :=
  ⟨.refl s, rfl, fun _ => rfl, fun _ => rfl, id⟩

theorem trans (h : s.SameTables s') (h' : s'.SameTables s'') : s.SameTables s'' :=
  ⟨h.toSameMeasures.trans h'.toSameMeasures, h'.entries_eq.trans h.entries_eq,
    fun k => (h'.slot?_eq k).trans (h.slot?_eq k),
    fun k => (h'.deadline?_eq k).trans (h.deadline?_eq k), h'.atHome ∘ h.atHome⟩

theorem entryAt?_eq (h : s.SameTables s') (r : Ref (Entry ν)) : s'.entryAt? r = s.entryAt? r := by
  rw [entryAt?, h.entries_eq, entryAt?]

theorem expires?_eq (h : s.SameTables s') (r : Ref (Entry ν)) : s'.expires? r = s.expires? r := by
  rw [expires?, h.entryAt?_eq, expires?]

theorem expiry?_eq (h : s.SameTables s') (k : κ) : s'.expiry? k = s.expiry? k := by
  rw [expiry?, h.slot?_eq, funext h.expires?_eq, expiry?]

end SameTables

theorem sameTables_modifyShard (s : Store κ ν ε ω) (k : κ) {f : Shard κ ν ε ω → Shard κ ν ε ω}
    (slots : ∀ sh, (f sh).slots = sh.slots) (deadlines : ∀ sh, (f sh).deadlines = sh.deadlines)
    (flights : ∀ sh j g, (f sh).flights.get? j = some g →
      j = k ∨ ∃ g', sh.flights.get? j = some g') :
    s.SameTables (s.modifyShard k f) where
  toSameMeasures := ⟨rfl, rfl, rfl, rfl⟩
  entries_eq := rfl
  slot?_eq j := by
    rw [slot?_modifyShard fun sh i _ => by rw [slots], slots]
    split
    · rename_i hj
      rw [hj, slot?]
    · rfl
  deadline?_eq j := by
    rw [deadline?_modifyShard fun sh i _ => by rw [deadlines], deadlines]
    split
    · rename_i hj
      rw [hj, deadline?]
    · rfl
  atHome h := h.modifyShard k (fun sh j r hr => .inr ⟨r, slots sh ▸ hr⟩)
    (fun sh j t ht => .inr ⟨t, deadlines sh ▸ ht⟩) flights

theorem sameTables_withFlights (s : Store κ ν ε ω) (flights : Arena (Flight ε ω)) :
    s.SameTables { s with flights := flights } :=
  ⟨⟨rfl, rfl, rfl, rfl⟩, rfl, fun _ => rfl, fun _ => rfl,
    fun h => ⟨h.slots, h.deadlines, h.flights⟩⟩

theorem sameTables_register (s : Store κ ν ε ω) (k : κ) : s.SameTables (s.register k).2 := by
  have hput : s.SameTables (s.modifyShard k fun sh =>
      { sh with flights := sh.flights.put k s.flights.next }) := by
    apply sameTables_modifyShard
    case slots => exact fun _ => rfl
    case deadlines => exact fun _ => rfl
    case flights => exact fun sh j g hg => Table.get?_put_cases hg
  exact hput.trans (sameTables_withFlights _ _)

theorem sameTables_retire (s : Store κ ν ε ω) (k : κ) (f : Ref (Flight ε ω)) :
    s.SameTables (s.retire k f) := by
  unfold retire
  split
  · apply sameTables_modifyShard
    case slots => exact fun _ => rfl
    case deadlines => exact fun _ => rfl
    case flights => exact fun sh j g hg => .inr ⟨g, Table.get?_of_get?_erase hg⟩
  · exact .refl s

theorem sameTables_concludeFlight (s : Store κ ν ε ω) (k : κ) (f : Ref (Flight ε ω))
    (l : Landing ε) : s.SameTables (s.concludeFlight k f l).2 :=
  (sameTables_retire s k f).trans (sameTables_withFlights _ _)

/-- Apart from flights, `x` is `s` with the new entry `e` in the slot of `k`, and with no deadline
recorded for it yet. -/
structure Placed (s : Store κ ν ε ω) (k : κ) (e : Entry ν) (x : Store κ ν ε ω) : Prop extends
    SameMeasures s x where
  entries_eq : x.entries = s.entries.add e
  slot?_eq : ∀ j, x.slot? j = if j = k then some s.entries.next else s.slot? j
  deadline?_eq : ∀ j, x.deadline? j = s.deadline? j
  atHome : s.AtHome → x.AtHome

theorem place_eq (s : Store κ ν ε ω) (k : κ) (e : Entry ν) :
    s.place k e = (s.addEntry e).2.modifyShard k fun sh =>
      { sh with slots := sh.slots.put k s.entries.next } := rfl

theorem placed_place (s : Store κ ν ε ω) (k : κ) (e : Entry ν) : s.Placed k e (s.place k e) where
  toSameMeasures := ⟨rfl, rfl, rfl, rfl⟩
  entries_eq := rfl
  slot?_eq j := by
    rw [place_eq, slot?_modifyShard]
    · rw [Table.get?_put_self]
      rfl
    · intro sh i hi
      rw [Table.get?_put, if_neg hi]
  deadline?_eq j := by
    rw [place_eq, deadline?_modifyShard]
    · split
      · rename_i hj
        rw [hj]
        rfl
      · rfl
    · exact fun _ _ _ => rfl
  atHome h := by
    have hadded : (s.addEntry e).2.AtHome := ⟨h.slots, h.deadlines, h.flights⟩
    rw [place_eq]
    apply hadded.modifyShard
    case slots => exact fun sh j r hr => Table.get?_put_cases hr
    case deadlines => exact fun sh j t ht => .inr ⟨t, ht⟩
    case flights => exact fun sh j g hg => .inr ⟨g, hg⟩

theorem Placed.sameTables (h : s.Placed k e x) {y : Store κ ν ε ω} (same : x.SameTables y) :
    s.Placed k e y :=
  ⟨h.toSameMeasures.trans same.toSameMeasures, same.entries_eq.trans h.entries_eq,
    fun j => (same.slot?_eq j).trans (h.slot?_eq j),
    fun j => (same.deadline?_eq j).trans (h.deadline?_eq j), same.atHome ∘ h.atHome⟩

theorem SameTables.placed (same : s.SameTables s') (h : s'.Placed k e x) : s.Placed k e x where
  toSameMeasures := same.toSameMeasures.trans h.toSameMeasures
  entries_eq := by rw [h.entries_eq, same.entries_eq]
  slot?_eq j := by rw [h.slot?_eq, same.entries_eq, same.slot?_eq]
  deadline?_eq j := by rw [h.deadline?_eq, same.deadline?_eq]
  atHome := h.atHome ∘ same.atHome

theorem placed_placeAndLand (s : Store κ ν ε ω) (k : κ) (f : Ref (Flight ε ω)) (e : Entry ν) :
    s.Placed k e (s.placeAndLand k f e).2 :=
  (placed_place s k e).sameTables (sameTables_concludeFlight _ k f .loaded)

namespace Tidy

theorem sameTables (h : s.Tidy) (same : s.SameTables s') : s'.Tidy where
  toAtHome := same.atHome h.toAtHome
  present hr := by
    rw [same.slot?_eq] at hr
    obtain ⟨e, he⟩ := h.present hr
    exact ⟨e, (same.entryAt?_eq _).trans he⟩
  recorded k := by rw [same.deadline?_eq, same.expiry?_eq, h.recorded]

theorem modifyEntry (h : s.Tidy) (r : Ref (Entry ν)) {f : Entry ν → Entry ν}
    (hf : ∀ e, (f e).expires = e.expires) : (s.modifyEntry r f).Tidy where
  toAtHome := ⟨h.slots, h.deadlines, h.flights⟩
  present {k q} hq := by
    obtain ⟨e, he⟩ := h.present hq
    rw [entryAt?_modifyEntry, he]
    split
    · exact ⟨_, rfl⟩
    · exact ⟨_, rfl⟩
  recorded k := by
    have hexpiry : (s.modifyEntry r f).expiry? k = s.expiry? k :=
      congrArg (Option.bind (s.slot? k)) (funext (expires?_modifyEntry s r hf))
    rw [hexpiry]
    exact h.recorded k

theorem forget (h : s.Tidy) (k : κ) : (s.forget k).Tidy where
  toAtHome := by
    apply h.toAtHome.modifyShard
    case slots => exact fun sh j r hr => .inr ⟨r, Table.get?_of_get?_erase hr⟩
    case deadlines => exact fun sh j t ht => .inr ⟨t, Table.get?_of_get?_erase ht⟩
    case flights => exact fun sh j g hg => .inr ⟨g, hg⟩
  present hr := by
    rw [slot?_forget] at hr
    split at hr
    · cases hr
    · exact h.present hr
  recorded j := by
    rw [deadline?_forget, expiry?_forget, h.recorded]

theorem clear (h : s.Tidy) : s.clear.Tidy where
  slots := h.slots.withShards fun i k a ha => by
    rw [get_mapShards] at ha
    cases ha
  deadlines := h.deadlines.withShards fun i k a ha => by
    rw [get_mapShards] at ha
    cases ha
  flights := h.flights.withShards fun i k a ha => by
    rw [get_mapShards] at ha
    exact ⟨a, ha⟩
  present hr := by
    rw [slot?_clear] at hr
    cases hr
  recorded k := by
    rw [expiry?_eq_none (slot?_clear s k), deadline?, shardOf_clear]
    rfl

end Tidy

theorem tidy_ofLayout (l : Layout) (hash : κ → UInt64) :
    (ofLayout l hash : Store κ ν ε ω).Tidy where
  slots i k a ha := by
    rw [shards_ofLayout] at ha
    cases ha
  deadlines i k a ha := by
    rw [shards_ofLayout] at ha
    cases ha
  flights i k a ha := by
    rw [shards_ofLayout] at ha
    cases ha
  present hr := by
    rw [slot?_ofLayout] at hr
    cases hr
  recorded k := by
    rw [expiry?_eq_none (slot?_ofLayout l hash k), deadline?, shardOf_ofLayout]
    rfl

end ReadThrough.Store
