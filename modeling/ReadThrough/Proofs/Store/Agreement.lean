import ReadThrough.Proofs.Store.Changes

/-!
# Slots and deadlines agree

Whatever happens to a store and its callers, every key has at most one slot, all that belongs to a
key is in the shard that its hash tells, and each shard has a deadline for exactly the keys that
have a slot in it: the expiry of the entry that is stored there.
-/

namespace ReadThrough

namespace Store

variable {κ ν ε ω : Type} [DecidableEq κ]

/-- The tables of all shards of a store that is laid out by `l`, with the keys spread by `hash`. No
key has two slots, and it has a deadline where it has a slot, which is the expiry of the entry
stored. -/
structure TablesAgree (l : Layout) (hash : κ → UInt64) (s : Store κ ν ε ω) : Prop where
  shardBits_eq : s.shardBits = l.shardBits
  one_slot : (s.keysOf Shard.slots).Nodup
  slot_home : ∀ (i : Fin (shardCount s.shardBits)) k r, (s.shards.get i).slots.get? k = some r →
    i.val = (hash k).toNat &&& (shardCount l.shardBits - 1)
  deadline_home : ∀ (i : Fin (shardCount s.shardBits)) k t,
    (s.shards.get i).deadlines.get? k = some t →
      i.val = (hash k).toNat &&& (shardCount l.shardBits - 1)
  flight_home : ∀ (i : Fin (shardCount s.shardBits)) k f, (s.shards.get i).flights.get? k = some f →
    i.val = (hash k).toNat &&& (shardCount l.shardBits - 1)
  same_keys : ∀ (i : Fin (shardCount s.shardBits)) k,
    k ∈ (s.shards.get i).deadlines.keys ↔ k ∈ (s.shards.get i).slots.keys
  deadline_eq : ∀ (i : Fin (shardCount s.shardBits)) k r, (s.shards.get i).slots.get? k = some r →
    ∃ e, s.entryAt? r = some e ∧ (s.shards.get i).deadlines.get? k = some e.expires

variable {s : Store κ ν ε ω}

theorem Tidy.slot?_eq (h : s.Tidy) {i : Fin (shardCount s.shardBits)} {k : κ} {r : Ref (Entry ν)}
    (hr : (s.shards.get i).slots.get? k = some r) : i = s.home k ∧ s.slot? k = some r := by
  have hi : i = s.home k := h.slots i k r hr
  subst hi
  exact ⟨rfl, hr⟩

theorem Tidy.deadlines_get? (h : s.Tidy) {i : Fin (shardCount s.shardBits)} {k : κ}
    {r : Ref (Entry ν)} (hr : (s.shards.get i).slots.get? k = some r) :
    ∃ e, s.entryAt? r = some e ∧ (s.shards.get i).deadlines.get? k = some e.expires := by
  obtain ⟨rfl, hslot⟩ := h.slot?_eq hr
  obtain ⟨e, he⟩ := h.present hslot
  refine ⟨e, he, ?_⟩
  have hdeadline : s.deadline? k = some e.expires := by
    rw [h.recorded, expiry?, hslot, Option.bind_some, expires?, he, Option.map_some]
  exact hdeadline

theorem Tidy.mem_keys_iff (h : s.Tidy) (i : Fin (shardCount s.shardBits)) (k : κ) :
    k ∈ (s.shards.get i).deadlines.keys ↔ k ∈ (s.shards.get i).slots.keys := by
  rw [Store.mem_keys_iff, Store.mem_keys_iff]
  constructor
  · rintro ⟨t, ht⟩
    have hi : i = s.home k := h.deadlines i k t ht
    subst hi
    have hexpiry : s.expiry? k = some t := by
      rw [← h.recorded]
      exact ht
    obtain ⟨r, hr, -⟩ := expiry?_eq_some_iff.mp hexpiry
    exact ⟨r, hr⟩
  · rintro ⟨r, hr⟩
    obtain ⟨e, -, he⟩ := h.deadlines_get? hr
    exact ⟨e.expires, he⟩

/-- No shard has anything of a key that has no slot in its home shard. -/
theorem Tidy.not_mem_keys (h : s.Tidy) {k : κ} (absent : s.slot? k = none)
    (i : Fin (shardCount s.shardBits)) :
    k ∉ (s.shards.get i).slots.keys ∧ k ∉ (s.shards.get i).deadlines.keys := by
  have hslots : k ∉ (s.shards.get i).slots.keys := by
    rw [Store.mem_keys_iff]
    rintro ⟨r, hr⟩
    cases absent.symm.trans (h.slot?_eq hr).2
  exact ⟨hslots, mt (h.mem_keys_iff i k).mp hslots⟩

theorem Tidy.tablesAgree (h : s.Tidy) {l : Layout} {hash : κ → UInt64}
    (measures : (ofLayout l hash).SameMeasures s) : s.TablesAgree l hash := by
  have hmask : ∀ {k} {i : Fin (shardCount s.shardBits)}, i = s.home k →
      i.val = (hash k).toNat &&& (shardCount l.shardBits - 1) := by
    rintro k _ rfl
    exact measures.home_val_eq k
  constructor
  case shardBits_eq => exact measures.shardBits_eq
  case one_slot => exact h.slots.nodup_keysOf
  case slot_home => exact fun i k r hr => hmask (h.slots i k r hr)
  case deadline_home => exact fun i k t ht => hmask (h.deadlines i k t ht)
  case flight_home => exact fun i k f hf => hmask (h.flights i k f hf)
  case same_keys => exact h.mem_keys_iff
  case deadline_eq => exact fun i k r hr => h.deadlines_get? hr

end Store

/-- Whatever happens to a store and its callers, its tables do not drift apart. -/
theorem Session.tables_agree {ι κ ν ε ω : Type} [DecidableEq ι] [DecidableEq κ] [DecidableEq ω]
    (l : Layout) (hash : κ → UInt64) (start : Instant) (events : List (SessionEvent ι κ ν ε ω)) :
    (events.foldl perform ⟨start, ofLayout l hash⟩).state.store.TablesAgree l hash :=
  (sound_run l hash start events).tablesAgree (sameMeasures_run l hash start events)

end ReadThrough
