import Mathlib.Data.Finset.Card
import ReadThrough.Store.Capacity

/-!
# Where keys are kept

A key is at home in one shard, and no other shard has a slot, a deadline or a flight for it. So the
tables of all shards together are one finite map, in which every key occurs once, and the size of a
store is the number of keys that have a slot.
-/

namespace ReadThrough.Store

variable {κ ν ε ω α : Type}

section Keys

/-- The keys of one table of each shard, shard by shard. -/
def keysOf (s : Store κ ν ε ω) (table : Shard κ ν ε ω → Table κ α) : List κ :=
  s.shards.toList.flatMap fun sh => (table sh).keys

theorem length_keysOf (s : Store κ ν ε ω) (table : Shard κ ν ε ω → Table κ α) :
    (s.keysOf table).length = s.shards.toList.foldr (fun sh n => (table sh).size + n) 0 := by
  unfold keysOf
  induction s.shards.toList with
  | nil => rfl
  | cons sh shards ih =>
    rw [List.flatMap_cons, List.length_append, ih, List.foldr_cons, Table.keys, List.length_map,
      Table.size]

theorem length_keysOf_slots (s : Store κ ν ε ω) : (s.keysOf Shard.slots).length = s.size :=
  s.length_keysOf Shard.slots

theorem length_keysOf_deadlines (s : Store κ ν ε ω) :
    (s.keysOf Shard.deadlines).length = s.deadlineCount :=
  s.length_keysOf Shard.deadlines

variable [DecidableEq κ]

/-- Whatever is in one table of a shard has its home there. -/
def Homed (s : Store κ ν ε ω) (table : Shard κ ν ε ω → Table κ α) : Prop :=
  ∀ (i : Fin (shardCount s.shardBits)) k a, (table (s.shards.get i)).get? k = some a → i = s.home k

variable {s : Store κ ν ε ω} {table : Shard κ ν ε ω → Table κ α}

theorem mem_keys_iff {t : Table κ α} {k : κ} : k ∈ t.keys ↔ ∃ a, t.get? k = some a := by
  rw [← Option.isSome_iff_exists, Option.isSome_iff_ne_none, Ne, Table.get?_eq_none_iff, not_not]

theorem Homed.mem_keysOf_iff (h : s.Homed table) {k : κ} :
    k ∈ s.keysOf table ↔ ∃ a, (table (s.shardOf k)).get? k = some a := by
  simp only [keysOf, List.mem_flatMap, Vector.mem_toList_iff, Vector.mem_iff_getElem, mem_keys_iff]
  constructor
  · rintro ⟨_, ⟨i, hi, rfl⟩, a, ha⟩
    have hhome : s.home k = ⟨i, hi⟩ := (h ⟨i, hi⟩ k a ha).symm
    have hshard : s.shardOf k = s.shards.get ⟨i, hi⟩ := congrArg s.shards.get hhome
    exact ⟨a, hshard ▸ ha⟩
  · rintro ⟨a, ha⟩
    exact ⟨_, ⟨(s.home k).val, (s.home k).isLt, rfl⟩, a, ha⟩

/-- No key occurs twice in all shards together. -/
theorem Homed.nodup_keysOf (h : s.Homed table) : (s.keysOf table).Nodup := by
  rw [keysOf, List.nodup_flatMap]
  refine ⟨fun sh _ => (table sh).nodup_keys, ?_⟩
  rw [List.pairwise_iff_getElem]
  intro i j hi hj hij k hk hk'
  rw [Vector.length_toList] at hi hj
  obtain ⟨a, ha⟩ := mem_keys_iff.mp hk
  obtain ⟨b, hb⟩ := mem_keys_iff.mp hk'
  have hi' : ⟨i, hi⟩ = s.home k := h ⟨i, hi⟩ k a (by rwa [Vector.getElem_toList] at ha)
  have hj' : ⟨j, hj⟩ = s.home k := h ⟨j, hj⟩ k b (by rwa [Vector.getElem_toList] at hb)
  exact Nat.ne_of_lt hij (congrArg Fin.val (hi'.trans hj'.symm))

/-- A change to the home shard of `k` that brings nothing but `k` into it. -/
theorem Homed.modifyShard (h : s.Homed table) (k : κ) {f : Shard κ ν ε ω → Shard κ ν ε ω}
    (hf : ∀ sh j a, (table (f sh)).get? j = some a →
      j = k ∨ ∃ b, (table sh).get? j = some b) :
    (s.modifyShard k f).Homed table := by
  intro (i : Fin (shardCount s.shardBits)) j a ha
  change (table ((s.shards.set (s.home k) (f (s.shardOf k))).get i)).get? j = some a at ha
  rw [get_setShard] at ha
  split at ha
  · rename_i hi
    have hi' : i = s.home k := Fin.ext hi.symm
    rcases hf _ j a ha with rfl | ⟨b, hb⟩
    · exact hi'
    · rw [hi']
      exact h (s.home k) j b hb
  · exact h i j a ha

theorem Homed.withShards (h : s.Homed table)
    {shards : Vector (Shard κ ν ε ω) (shardCount s.shardBits)}
    (hshards : ∀ (i : Fin (shardCount s.shardBits)) k a, (table (shards.get i)).get? k = some a →
      ∃ b, (table (s.shards.get i)).get? k = some b) :
    ({ s with shards := shards } : Store κ ν ε ω).Homed table := by
  intro i k a ha
  obtain ⟨b, hb⟩ := hshards i k a ha
  exact h i k b hb

end Keys

section Residents

variable [DecidableEq κ] {s : Store κ ν ε ω}

/-- The keys that have a slot, live or expired. -/
def residents (s : Store κ ν ε ω) : Finset κ := (s.keysOf Shard.slots).toFinset

theorem Homed.mem_residents_iff (h : s.Homed Shard.slots) {k : κ} :
    k ∈ s.residents ↔ ∃ r, s.slot? k = some r := by
  rw [residents, List.mem_toFinset, h.mem_keysOf_iff]
  rfl

theorem Homed.card_residents (h : s.Homed Shard.slots) : s.residents.card = s.size := by
  rw [residents, List.toFinset_card_of_nodup h.nodup_keysOf, length_keysOf_slots]

end Residents

end ReadThrough.Store
