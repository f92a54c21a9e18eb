import ReadThrough.Proofs.Store.Tidy

/-!
# Eviction

Each shard knows which of its keys expires next, and the earliest of these is the earliest of all.
So while a tidy store is over its capacity there is something to evict, it is an entry that expires
first among all that are resident, and its eviction leaves the store tidy and smaller by one.
-/

namespace ReadThrough

section Earliest

variable {α : Type} {xs : List (α × Instant)} {x : α × Instant}

theorem earliest_eq_none_iff : earliest xs = none ↔ xs = [] := by
  cases xs with
  | nil => simp [earliest]
  | cons y ys =>
    simp only [earliest, reduceCtorEq, iff_false]
    split
    · exact Option.some_ne_none y
    · split <;> exact Option.some_ne_none _

/-- The earliest item is one of the list, and none of the list is earlier. Which one it is on a tie
is left open. -/
theorem earliest_spec (h : earliest xs = some x) : x ∈ xs ∧ ∀ y ∈ xs, x.2 ≤ y.2 := by
  induction xs generalizing x with
  | nil => cases h
  | cons a xs ih =>
    rw [earliest] at h
    cases hxs : earliest xs with
    | none =>
      rw [hxs] at h
      cases h
      rw [earliest_eq_none_iff.mp hxs]
      simp
    | some b =>
      obtain ⟨hmem, hmin⟩ := ih hxs
      simp only [hxs] at h
      split at h
      · rename_i hab
        cases h
        refine ⟨List.mem_cons_self, fun y hy => ?_⟩
        rcases List.mem_cons.mp hy with rfl | hy
        · exact Nat.le_refl _
        · exact Nat.le_trans hab (hmin y hy)
      · rename_i hab
        cases h
        refine ⟨List.mem_cons_of_mem a hmem, fun y hy => ?_⟩
        rcases List.mem_cons.mp hy with rfl | hy
        · exact Nat.le_of_not_le hab
        · exact hmin y hy

end Earliest

namespace Store

variable {κ ν ε ω : Type} [DecidableEq κ] {s s' : Store κ ν ε ω} {k : κ}

/-- The heads of the shards are compared, and each is the earliest of its shard. -/
theorem victim_spec {i : Fin (shardCount s.shardBits)} (h : s.victim = some (i, k)) :
    ∃ t, (s.shards.get i).deadlines.get? k = some t ∧
      ∀ (j : Fin (shardCount s.shardBits)) k' u,
        (s.shards.get j).deadlines.get? k' = some u → t ≤ u := by
  obtain ⟨⟨⟨i', k'⟩, t⟩, hearliest, hik⟩ := Option.map_eq_some_iff.mp h
  cases hik
  obtain ⟨hmem, hmin⟩ := earliest_spec hearliest
  obtain ⟨_, -, hhead⟩ := List.mem_filterMap.mp hmem
  obtain ⟨head, hnext, heq⟩ := Option.map_eq_some_iff.mp hhead
  cases heq
  refine ⟨head.2, Table.get?_eq_some_iff.mpr (earliest_spec hnext).1, fun j k' u hu => ?_⟩
  rw [Table.get?_eq_some_iff] at hu
  cases hj : (s.shards.get j).nextToExpire with
  | none =>
    rw [earliest_eq_none_iff.mp hj] at hu
    cases hu
  | some first =>
    have hfirst : first.2 ≤ u := (earliest_spec hj).2 _ hu
    have hin := hmin ((j, first.1), first.2)
      (List.mem_filterMap.mpr ⟨j, List.mem_finRange j, congrArg (Option.map _) hj⟩)
    exact Nat.le_trans hin hfirst

theorem deadlines_of_victim_eq_none (h : s.victim = none) (k : κ) : s.deadline? k = none := by
  cases hk : s.deadline? k with
  | none => rfl
  | some t =>
    have hheads := earliest_eq_none_iff.mp (Option.map_eq_none_iff.mp h)
    rw [List.filterMap_eq_nil_iff] at hheads
    have hempty := earliest_eq_none_iff.mp
      (Option.map_eq_none_iff.mp (hheads (s.home k) (List.mem_finRange _)))
    have hmem : (k, t) ∈ (s.shards[s.home k]).deadlines.toList := Table.get?_eq_some_iff.mp hk
    rw [hempty] at hmem
    cases hmem

/-- No entry that is resident expires earlier than the one stored for `k`. -/
def ExpiresFirst (s : Store κ ν ε ω) (k : κ) : Prop :=
  ∃ t, s.expiry? k = some t ∧ ∀ j u, s.expiry? j = some u → t ≤ u

theorem Tidy.size_forget (h : s.Tidy) (hk : ∃ r, s.slot? k = some r) :
    (s.forget k).size + 1 = s.size := by
  have hresidents : (s.forget k).residents = s.residents.erase k := by
    ext j
    rw [(h.forget k).slots.mem_residents_iff, Finset.mem_erase, h.slots.mem_residents_iff,
      slot?_forget]
    split <;> simp [*]
  rw [← h.slots.card_residents, ← (h.forget k).slots.card_residents, hresidents]
  exact Finset.card_erase_add_one (h.slots.mem_residents_iff.mpr hk)

theorem Tidy.deadlineCount_eq (h : s.Tidy) : s.deadlineCount = s.size := by
  rw [← length_keysOf_slots, ← length_keysOf_deadlines]
  apply List.Perm.length_eq
  rw [List.perm_ext_iff_of_nodup h.deadlines.nodup_keysOf h.slots.nodup_keysOf]
  intro k
  rw [h.deadlines.mem_keysOf_iff, h.slots.mem_keysOf_iff]
  have hdeadline : (s.shardOf k).deadlines.get? k = s.expiry? k := h.recorded k
  rw [hdeadline]
  constructor
  · rintro ⟨t, ht⟩
    obtain ⟨r, hr, -⟩ := expiry?_eq_some_iff.mp ht
    exact ⟨r, hr⟩
  · rintro ⟨r, hr⟩
    exact h.expiry?_isSome hr

theorem Tidy.exists_evict (h : s.Tidy) (hpos : 0 < s.size) :
    ∃ k, s.ExpiresFirst k ∧ s.evict = some (k, s.forget k) := by
  cases hv : s.victim with
  | none =>
    rw [← h.slots.card_residents, Finset.card_pos] at hpos
    obtain ⟨k, hk⟩ := hpos
    obtain ⟨r, hr⟩ := h.slots.mem_residents_iff.mp hk
    obtain ⟨t, ht⟩ := h.expiry?_isSome hr
    rw [← h.recorded, deadlines_of_victim_eq_none hv] at ht
    cases ht
  | some v =>
    obtain ⟨i, k⟩ := v
    obtain ⟨t, ht, hmin⟩ := victim_spec hv
    have hi : i = s.home k := h.deadlines i k t ht
    subst hi
    refine ⟨k, ⟨t, ?_, fun j u hu => ?_⟩, ?_⟩
    · rw [← h.recorded]
      exact ht
    · rw [← h.recorded] at hu
      exact hmin (s.home j) j u hu
    · rw [evict, hv]
      rfl

/-- Evictions one after the other while the store is over its capacity: the keys in order, and the
store afterwards. -/
inductive Evictions : Store κ ν ε ω → List κ → Store κ ν ε ω → Prop where
  | done (s : Store κ ν ε ω) : Evictions s [] s
  | next {s s' : Store κ ν ε ω} {k : κ} {ks : List κ} (exceeds : s.isOverCapacity = true)
      (first : s.ExpiresFirst k) (rest : Evictions (s.forget k) ks s') : Evictions s (k :: ks) s'

omit [DecidableEq κ] in
theorem isOverCapacity_eq_true_iff :
    s.isOverCapacity = true ↔ ∃ m, s.capacity = some m ∧ m < s.size := by
  unfold isOverCapacity
  split
  · rename_i m hm
    simp [hm]
  · rename_i hm
    simp [hm]

def WithinCapacity (s : Store κ ν ε ω) : Prop := ∀ m, s.capacity = some m → s.size ≤ m

omit [DecidableEq κ] in
theorem isOverCapacity_eq_false_iff : s.isOverCapacity = false ↔ s.WithinCapacity := by
  rw [Bool.eq_false_iff, Ne, isOverCapacity_eq_true_iff]
  constructor
  · exact fun h m hm => Nat.le_of_not_lt fun hover => h ⟨m, hm, hover⟩
  · rintro h ⟨m, hm, hover⟩
    exact Nat.not_le_of_lt hover (h m hm)

/-- The bound on the evictions never ends them before the store fits its capacity. -/
theorem Tidy.evictions_shrink (h : s.Tidy) {n : Nat} (hn : s.size ≤ n) :
    Evictions s (s.shrink n).1 (s.shrink n).2 ∧ (s.shrink n).2.WithinCapacity := by
  induction n generalizing s with
  | zero => exact ⟨.done s, fun m _ => Nat.le_trans hn (Nat.zero_le m)⟩
  | succ n ih =>
    unfold shrink
    split
    · rename_i hover
      obtain ⟨m, -, hm⟩ := isOverCapacity_eq_true_iff.mp hover
      obtain ⟨k, hfirst, hevict⟩ := h.exists_evict (Nat.zero_lt_of_lt hm)
      obtain ⟨t, ht, -⟩ := id hfirst
      obtain ⟨r, hr, -⟩ := expiry?_eq_some_iff.mp ht
      have hsize := h.size_forget ⟨r, hr⟩
      obtain ⟨hrest, hfits⟩ := ih (h.forget k) (by omega)
      rw [hevict]
      exact ⟨.next hover hfirst hrest, hfits⟩
    · rename_i hover
      exact ⟨.done s, isOverCapacity_eq_false_iff.mp (Bool.eq_false_iff.mpr hover)⟩

theorem Tidy.evictions_fit (h : s.Tidy) :
    Evictions s s.fit.1 s.fit.2 ∧ s.fit.2.WithinCapacity :=
  h.evictions_shrink (Nat.le_of_eq h.deadlineCount_eq.symm)

/-- The keys `ks` are taken away in this order, and each of them is the one that expires first among
those that are left by then. -/
structure InExpiryOrder (expiry : κ → Option Instant) (ks : List κ) : Prop where
  nodup : ks.Nodup
  first : ∀ before j after, ks = before ++ j :: after →
    ∃ t, expiry j = some t ∧ ∀ i u, i ∉ before → expiry i = some u → t ≤ u

namespace InExpiryOrder

variable {expiry : κ → Option Instant} {ks : List κ} {i j : κ} {t u : Instant}

omit [DecidableEq κ] in
theorem nil (expiry : κ → Option Instant) : InExpiryOrder expiry [] :=
  ⟨List.nodup_nil, by simp⟩

theorem cons (ht : expiry k = some t) (hmin : ∀ i u, expiry i = some u → t ≤ u)
    (h : InExpiryOrder (fun i => if i = k then none else expiry i) ks) :
    InExpiryOrder expiry (k :: ks) := by
  constructor
  case nodup =>
    refine List.nodup_cons.mpr ⟨fun hk => ?_, h.nodup⟩
    obtain ⟨before, after, hks⟩ := List.append_of_mem hk
    obtain ⟨u, hu, -⟩ := h.first before k after hks
    rw [if_pos rfl] at hu
    cases hu
  case first =>
    intro before j after hks
    cases before with
    | nil =>
      obtain ⟨rfl, -⟩ := List.cons.inj hks
      exact ⟨t, ht, fun i u _ hu => hmin i u hu⟩
    | cons b before =>
      rw [List.cons_append] at hks
      obtain ⟨rfl, hks'⟩ := List.cons.inj hks
      obtain ⟨u, hu, hfirst⟩ := h.first before j after hks'
      split at hu
      · cases hu
      · refine ⟨u, hu, fun i w hi hw => ?_⟩
        rw [List.mem_cons, not_or] at hi
        exact hfirst i w hi.2 (by rw [if_neg hi.1, hw])

omit [DecidableEq κ] in
theorem expiry_eq_some (h : InExpiryOrder expiry ks) (hj : j ∈ ks) : ∃ t, expiry j = some t := by
  obtain ⟨before, after, hks⟩ := List.append_of_mem hj
  obtain ⟨t, ht, -⟩ := h.first before j after hks
  exact ⟨t, ht⟩

omit [DecidableEq κ] in
theorem le_of_left (h : InExpiryOrder expiry ks) (hj : j ∈ ks) (ht : expiry j = some t)
    (hi : i ∉ ks) (hu : expiry i = some u) : t ≤ u := by
  obtain ⟨before, after, hks⟩ := List.append_of_mem hj
  obtain ⟨t', ht', hmin⟩ := h.first before j after hks
  obtain rfl := Option.some.inj (ht.symm.trans ht')
  exact hmin i u (fun hbefore => hi (hks ▸ List.mem_append_left _ hbefore)) hu

omit [DecidableEq κ] in
/-- What expires after everything else is taken away only once nothing else is left. -/
theorem mem_of_last (h : InExpiryOrder expiry ks) (hj : j ∈ ks) (ht : expiry j = some t)
    (last : ∀ i u, i ≠ j → expiry i = some u → u < t) (hu : expiry i = some u) : i ∈ ks := by
  by_contra hi
  have hle := h.le_of_left hj ht hi hu
  have hne : i ≠ j := fun hij => hi (hij ▸ hj)
  exact Nat.not_le_of_lt (last i u hne hu) hle

end InExpiryOrder

/-- What `s` has become once the keys `ks` have been evicted from it, one after the other. -/
structure Thinned (s : Store κ ν ε ω) (ks : List κ) (s' : Store κ ν ε ω) : Prop extends
    SameMeasures s s' where
  entries_eq : s'.entries = s.entries
  tidy : s'.Tidy
  slot?_eq : ∀ j, s'.slot? j = if j ∈ ks then none else s.slot? j
  inOrder : InExpiryOrder s.expiry? ks
  size_eq : s'.size + ks.length = s.size
  needed : ks ≠ [] → ∃ m, s.capacity = some m ∧ m ≤ s'.size

theorem Evictions.thinned {ks : List κ} (h : Evictions s ks s') (hs : s.Tidy) :
    s.Thinned ks s' := by
  induction h with
  | done s =>
    exact
      { toSameMeasures := .refl s
        entries_eq := rfl
        tidy := hs
        slot?_eq := by simp
        inOrder := .nil _
        size_eq := by simp
        needed := by simp }
  | @next s s' k ks exceeds first rest ih =>
    have h := ih (hs.forget k)
    obtain ⟨t, ht, hmin⟩ := first
    obtain ⟨r, hr, -⟩ := expiry?_eq_some_iff.mp ht
    have hsize := hs.size_forget ⟨r, hr⟩
    constructor
    case toSameMeasures =>
      exact (⟨rfl, rfl, rfl, rfl⟩ : s.SameMeasures (s.forget k)).trans h.toSameMeasures
    case entries_eq => exact h.entries_eq
    case tidy => exact h.tidy
    case slot?_eq =>
      intro j
      by_cases hj : j = k
      · simp [h.slot?_eq, slot?_forget, hj]
      · simp [h.slot?_eq, slot?_forget, hj]
    case inOrder =>
      have horder := h.inOrder
      rw [funext (expiry?_forget s k)] at horder
      exact .cons ht hmin horder
    case size_eq =>
      have := h.size_eq
      rw [List.length_cons]
      omega
    case needed =>
      intro _
      by_cases hks : ks = []
      · obtain ⟨m, hm, hover⟩ := isOverCapacity_eq_true_iff.mp exceeds
        have := h.size_eq
        rw [hks, List.length_nil] at this
        exact ⟨m, hm, by omega⟩
      · exact h.needed hks

end Store

end ReadThrough
