import ReadThrough.Store.Capacity

/-!
# What the operations of a store leave alone

Removing, clearing, pruning and evicting touch slots and deadlines only. Storing adds an entry, and
a hit records an access. None of them moves a flight, and no entry is ever lost or given another
value, life span or lease by them.
-/

namespace ReadThrough.Store

variable {κ ν ε ω : Type}

section Cells

variable [DecidableEq κ]

/-- The same flights, registered for the same keys. -/
structure SameFlights (s s' : Store κ ν ε ω) : Prop where
  flights_eq : s'.flights = s.flights
  flight?_eq : ∀ k, s'.flight? k = s.flight? k

/-- The same entries and flights: at most slots and deadlines differ. -/
structure SameCells (s s' : Store κ ν ε ω) : Prop extends SameFlights s s' where
  entries_eq : s'.entries = s.entries

variable {s s' s'' : Store κ ν ε ω}

@[refl] theorem SameFlights.refl (s : Store κ ν ε ω) : s.SameFlights s := ⟨rfl, fun _ => rfl⟩

theorem SameFlights.symm (h : s.SameFlights s') : s'.SameFlights s :=
  ⟨h.flights_eq.symm, fun k => (h.flight?_eq k).symm⟩

theorem SameFlights.trans (h : s.SameFlights s') (h' : s'.SameFlights s'') : s.SameFlights s'' :=
  ⟨h'.flights_eq.trans h.flights_eq, fun k => (h'.flight?_eq k).trans (h.flight?_eq k)⟩

theorem SameFlights.flight_eq (h : s.SameFlights s') (f : Ref (Flight ε ω)) :
    s'.flight f = s.flight f := by
  unfold flight
  rw [h.flights_eq]

@[refl] theorem SameCells.refl (s : Store κ ν ε ω) : s.SameCells s := ⟨.refl s, rfl⟩

theorem SameCells.trans (h : s.SameCells s') (h' : s'.SameCells s'') : s.SameCells s'' :=
  ⟨h.toSameFlights.trans h'.toSameFlights, h'.entries_eq.trans h.entries_eq⟩

theorem sameCells_withShards (s : Store κ ν ε ω)
    (shards : Vector (Shard κ ν ε ω) (shardCount s.shardBits))
    (h : ∀ i : Fin (shardCount s.shardBits), (shards.get i).flights = (s.shards.get i).flights) :
    s.SameCells { s with shards := shards } := by
  refine ⟨⟨rfl, fun k => ?_⟩, rfl⟩
  change (shards.get (s.home k)).flights.get? k = (s.shards.get (s.home k)).flights.get? k
  rw [h]

theorem sameCells_setShard (s : Store κ ν ε ω) (i : Fin (shardCount s.shardBits))
    {sh : Shard κ ν ε ω} (h : sh.flights = (s.shards.get i).flights)
    {shards : Vector (Shard κ ν ε ω) (shardCount s.shardBits)}
    (set : ∀ j, shards.get j = if i.val = j.val then sh else s.shards.get j) :
    s.SameCells { s with shards := shards } := by
  apply sameCells_withShards
  intro j
  rw [set]
  split
  · rename_i hj
    rw [h, Fin.ext hj]
  · rfl

theorem sameCells_modifyShard (s : Store κ ν ε ω) (k : κ) {f : Shard κ ν ε ω → Shard κ ν ε ω}
    (h : ∀ sh, (f sh).flights = sh.flights) : s.SameCells (s.modifyShard k f) :=
  sameCells_setShard s (s.home k) (h _) fun j => get_setShard s.shards (s.home k) j _

theorem sameCells_clear (s : Store κ ν ε ω) : s.SameCells s.clear :=
  sameCells_withShards s _ fun i => by rw [get_mapShards, Shard.cleared]

theorem sameCells_forget (s : Store κ ν ε ω) (k : κ) : s.SameCells (s.forget k) :=
  sameCells_modifyShard s k fun _ => rfl

theorem sameCells_remove (s : Store κ ν ε ω) (k : κ) : s.SameCells (s.remove k).2 := by
  unfold remove
  split
  · exact sameCells_forget s k
  · exact .refl s

theorem sameCells_removeIfSame (s : Store κ ν ε ω) (k : κ) (r : Ref (Entry ν)) :
    s.SameCells (s.removeIfSame k r).2 := by
  unfold removeIfSame
  split
  · exact sameCells_forget s k
  · exact .refl s

theorem sameCells_setSlot (s : Store κ ν ε ω) (k : κ) (r : Ref (Entry ν)) :
    s.SameCells (s.setSlot k r) :=
  sameCells_modifyShard s k fun _ => rfl

theorem sameCells_evict {k : κ} (h : s.evict = some (k, s')) : s.SameCells s' := by
  unfold evict at h
  split at h
  · cases h
  · rename_i i _ _
    cases h
    refine sameCells_setShard s i ?_ fun j => get_setShard s.shards i j _
    rfl

theorem sameCells_shrink (bound : Nat) (s : Store κ ν ε ω) : s.SameCells (s.shrink bound).2 := by
  induction bound generalizing s with
  | zero => exact .refl s
  | succ bound ih =>
    unfold shrink
    split
    · split
      · rename_i s' h
        exact (sameCells_evict h).trans (ih s')
      · exact .refl s
    · exact .refl s

theorem sameCells_recordDeadline (s : Store κ ν ε ω) (k : κ) (expires now : Instant) :
    s.SameCells (s.recordDeadline k expires now).2 := by
  unfold recordDeadline fit
  exact (sameCells_modifyShard s k (by intro sh; rfl)).trans (sameCells_shrink _ _)

theorem sameFlights_modifyEntry (s : Store κ ν ε ω) (r : Ref (Entry ν)) (f : Entry ν → Entry ν) :
    s.SameFlights (s.modifyEntry r f) :=
  ⟨rfl, fun _ => rfl⟩

theorem sameFlights_addEntry (s : Store κ ν ε ω) (e : Entry ν) : s.SameFlights (s.addEntry e).2 :=
  ⟨rfl, fun _ => rfl⟩

end Cells

end ReadThrough.Store

namespace ReadThrough

variable {κ ν ε ω : Type}

/-- The entry `e'` is `e`, perhaps read since. -/
def Entry.ReadSince (e e' : Entry ν) : Prop :=
  ∃ offset, e.accessOffset ≤ offset ∧ e' = { e with accessOffset := offset }

theorem Entry.ReadSince.refl (e : Entry ν) : e.ReadSince e := ⟨e.accessOffset, Nat.le_refl _, rfl⟩

theorem Entry.ReadSince.trans {e e' e'' : Entry ν} (h : e.ReadSince e') (h' : e'.ReadSince e'') :
    e.ReadSince e'' := by
  obtain ⟨n, hn, rfl⟩ := h
  obtain ⟨m, hm, rfl⟩ := h'
  exact ⟨m, Nat.le_trans hn hm, rfl⟩

theorem Entry.ReadSince.lease_eq {e e' : Entry ν} (h : e.ReadSince e') : e'.lease = e.lease := by
  obtain ⟨_, _, rfl⟩ := h
  rfl

theorem Entry.readSince_recordAccess (e : Entry ν) (now : Instant) :
    e.ReadSince (e.recordAccess now) :=
  ⟨_, Nat.le_max_left _ _, rfl⟩

namespace Store

/-- Every entry of `s` is in `s'` too, at most read since, and whatever else is there is idle. -/
structure KeepsEntries (s s' : Store κ ν ε ω) : Prop where
  kept : ∀ {r e}, s.entryAt? r = some e → ∃ e', s'.entryAt? r = some e' ∧ e.ReadSince e'
  new_idle : ∀ {r e'}, s.entryAt? r = none → s'.entryAt? r = some e' → e'.lease = .idle

variable {s s' s'' : Store κ ν ε ω}

theorem keepsEntries_of_eq (h : s'.entries = s.entries) : s.KeepsEntries s' := by
  have hr : ∀ r, s'.entryAt? r = s.entryAt? r := fun r => by simp only [entryAt?, h]
  refine ⟨fun {r e} he => ⟨e, (hr r).trans he, .refl e⟩, fun {r e'} hn he => ?_⟩
  rw [hr, hn] at he
  cases he

theorem KeepsEntries.refl (s : Store κ ν ε ω) : s.KeepsEntries s := keepsEntries_of_eq rfl

theorem KeepsEntries.trans (h : s.KeepsEntries s') (h' : s'.KeepsEntries s'') :
    s.KeepsEntries s'' := by
  constructor
  · intro r e he
    obtain ⟨e', he', hread⟩ := h.kept he
    obtain ⟨e'', he'', hread'⟩ := h'.kept he'
    exact ⟨e'', he'', hread.trans hread'⟩
  · intro r e'' hn he''
    cases he' : s'.entryAt? r with
    | none => exact h'.new_idle he' he''
    | some e' =>
      obtain ⟨_, hsome, hread⟩ := h'.kept he'
      rw [he''] at hsome
      cases hsome
      rw [hread.lease_eq]
      exact h.new_idle hn he'

theorem keepsEntries_recordAccess (s : Store κ ν ε ω) (r : Ref (Entry ν)) (now : Instant) :
    s.KeepsEntries (s.modifyEntry r (·.recordAccess now)) := by
  have hget : ∀ q, (s.modifyEntry r (·.recordAccess now)).entryAt? q =
      if q = r then (s.entryAt? q).map (·.recordAccess now) else s.entryAt? q :=
    fun q => Arena.get?_modify _ _ _ _
  constructor
  · intro q e he
    rw [hget, he]
    by_cases hq : q = r
    · exact ⟨_, by rw [if_pos hq]; rfl, e.readSince_recordAccess now⟩
    · exact ⟨e, by rw [if_neg hq], .refl e⟩
  · intro q e' hn he'
    rw [hget, hn] at he'
    split at he' <;> cases he'

theorem keepsEntries_addEntry (s : Store κ ν ε ω) {e : Entry ν} (h : e.lease = .idle) :
    s.KeepsEntries (s.addEntry e).2 := by
  constructor
  · intro r x hx
    exact ⟨x, Arena.get?_add_of_eq_some hx e, .refl x⟩
  · intro r e' hn he'
    have hget : (s.addEntry e).2.entryAt? r = if r = s.entries.next then some e else s.entryAt? r :=
      Arena.get?_add _ _ _
    rw [hget, hn] at he'
    split at he'
    · cases he'
      exact h
    · cases he'

end Store

end ReadThrough
