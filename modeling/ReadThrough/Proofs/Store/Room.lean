import ReadThrough.Proofs.Store.Evictions

/-!
# Making room

Once an entry is stored, whatever has expired in the shard of its key is dropped. Then entries are
evicted in the order in which they expire, until the store fits its capacity. This is all that
storing an entry takes out of the slots, and slots and deadlines stay in step.
-/

namespace ReadThrough.Store

variable {κ ν ε ω : Type} [DecidableEq κ] {s s' x : Store κ ν ε ω} {k : κ} {e : Entry ν}
  {now : Instant} {r : Ref (Entry ν)}

section Pruning

omit [DecidableEq κ] in
theorem isLive_eq {t : Instant} (h : s.expires? r = some t) (now : Instant) :
    s.isLive now r = decide (now < t) := by
  obtain ⟨e, he, rfl⟩ := Option.map_eq_some_iff.mp h
  rw [isLive, he, Option.any_some, Entry.hasExpired, ← decide_not, decide_eq_decide]
  exact Nat.not_le

theorem Placed.expires?_next (h : s.Placed k e x) : x.expires? s.entries.next = some e.expires := by
  rw [expires?, entryAt?, h.entries_eq, Arena.get?_add_next, Option.map_some]

theorem Placed.expires?_eq_some (h : s.Placed k e x) {t : Instant} (ht : s.expires? r = some t) :
    x.expires? r = some t := by
  obtain ⟨e', he', rfl⟩ := Option.map_eq_some_iff.mp ht
  rw [expires?, entryAt?, h.entries_eq, Arena.get?_add_of_eq_some he', Option.map_some]

theorem Placed.present (h : s.Placed k e x) (hs : s.Tidy) {j : κ} (hr : x.slot? j = some r) :
    ∃ t, x.expires? r = some t := by
  rw [h.slot?_eq] at hr
  split at hr
  · cases hr
    exact ⟨_, h.expires?_next⟩
  · obtain ⟨e', he'⟩ := hs.present hr
    exact ⟨_, h.expires?_eq_some (Option.map_eq_some_iff.mpr ⟨e', he', rfl⟩)⟩

theorem Placed.expiry?_eq (h : s.Placed k e x) (hs : s.Tidy) (j : κ) :
    x.expiry? j = if j = k then some e.expires else s.expiry? j := by
  rw [expiry?, h.slot?_eq]
  split
  · exact h.expires?_next
  · cases hj : s.slot? j with
    | none => rw [expiry?_eq_none hj, Option.bind_none]
    | some q =>
      obtain ⟨t, ht⟩ := hs.expiry?_isSome hj
      rw [ht, Option.bind_some]
      rw [expiry?, hj, Option.bind_some] at ht
      exact h.expires?_eq_some ht

/-- The store once a deadline is recorded for `k` and the shard of `k` is pruned. -/
def pruned (s : Store κ ν ε ω) (k : κ) (expires now : Instant) : Store κ ν ε ω :=
  s.modifyShard k fun sh => { sh with deadlines := sh.deadlines.put k expires }.prune s.entries now

theorem recordDeadline_eq (s : Store κ ν ε ω) (k : κ) (expires now : Instant) :
    s.recordDeadline k expires now = (s.pruned k expires now).fit := rfl

/-- Pruning leaves what is in another shard, and what has not expired. -/
def Outlasts (s : Store κ ν ε ω) (k j : κ) (now : Instant) (r : Ref (Entry ν)) : Bool :=
  decide (s.home j ≠ s.home k) || s.isLive now r

theorem Placed.recorded (h : s.Placed k e x) (hs : s.Tidy) {j : κ} (hj : x.home j = x.home k) :
    ((x.shardOf k).deadlines.put k e.expires).get? j = x.expiry? j := by
  have hshard : x.shardOf k = x.shardOf j := by simp only [shardOf, hj]
  rw [Table.get?_put, h.expiry?_eq hs, ← hs.recorded, ← h.deadline?_eq, hshard]
  rfl

/-- Where the deadline of an entry is its expiry, pruning drops the entry once it has expired. -/
theorem get?_prune {sh : Shard κ ν ε ω} {j : κ} {t : Instant} (hr : sh.slots.get? j = some r)
    (ht : sh.deadlines.get? j = some t) (expires : s.expires? r = some t) (now : Instant) :
    (sh.prune s.entries now).slots.get? j = (some r).filter (s.isLive now) := by
  obtain ⟨e, he, rfl⟩ := Option.map_eq_some_iff.mp expires
  have hdue : ((sh.deadlines.keep fun _ t => decide (t ≤ now)).get? j).isSome =
      e.hasExpired now := by
    rw [Table.get?_keep, ht, Option.isSome_filter]
    rfl
  have hlive : s.isLive now r = !e.hasExpired now := by rw [isLive, he, Option.any_some]
  have hget : s.entries.get? r = some e := he
  rw [Shard.prune, Table.get?_keep, hr]
  simp only [Option.filter_some, Table.contains, hdue, hget, hlive, Option.any_some, Bool.and_self]

theorem Placed.slot?_pruned (h : s.Placed k e x) (hs : s.Tidy) (now : Instant) (j : κ) :
    (x.pruned k e.expires now).slot? j = (x.slot? j).filter (x.Outlasts k j now) := by
  unfold pruned
  rw [slot?, shardOf_modifyShard]
  by_cases hj : x.home j = x.home k
  · have houtlasts : x.Outlasts k j now = x.isLive now := by
      funext q
      simp [Outlasts, hj]
    have hshard : x.shardOf j = x.shardOf k := by simp only [shardOf, hj]
    rw [if_pos hj, houtlasts]
    cases hslot : x.slot? j with
    | none =>
      rw [slot?, hshard] at hslot
      rw [Shard.prune, Table.get?_keep, hslot]
      rfl
    | some q =>
      obtain ⟨t, ht⟩ := h.present hs hslot
      have hdeadline : ((x.shardOf k).deadlines.put k e.expires).get? j = some t := by
        rw [h.recorded hs hj, expiry?, hslot, Option.bind_some, ht]
      rw [slot?, hshard] at hslot
      exact get?_prune (by exact hslot) hdeadline ht now
  · have houtlasts : x.Outlasts k j now = fun _ => true := by
      funext q
      simp [Outlasts, hj]
    rw [if_neg hj, houtlasts, slot?]
    cases (x.shardOf j).slots.get? j <;> rfl

theorem Placed.deadline?_pruned (h : s.Placed k e x) (hs : s.Tidy) (now : Instant) (j : κ) :
    (x.pruned k e.expires now).deadline? j =
      (x.expiry? j).filter fun t => decide (x.home j ≠ x.home k) || decide (now < t) := by
  unfold pruned
  rw [deadline?, shardOf_modifyShard]
  by_cases hj : x.home j = x.home k
  · rw [if_pos hj, Shard.prune]
    simp only [Table.get?_keep, h.recorded hs hj, hj, ne_eq, not_true_eq_false, decide_false,
      Bool.false_or]
  · have hjk : j ≠ k := fun hjk => hj (congrArg _ hjk)
    have hdeadline : (x.shardOf j).deadlines.get? j = x.expiry? j := by
      rw [h.expiry?_eq hs, if_neg hjk, ← hs.recorded, ← h.deadline?_eq]
      rfl
    rw [if_neg hj, hdeadline]
    cases x.expiry? j <;> simp [hj, Option.filter_some]

theorem Placed.tidy_pruned (h : s.Placed k e x) (hs : s.Tidy) (now : Instant) :
    (x.pruned k e.expires now).Tidy where
  toAtHome := by
    apply (h.atHome hs.toAtHome).modifyShard
    case slots =>
      intro sh j r hr
      rw [Shard.prune, Table.get?_keep] at hr
      exact .inr ⟨r, (Option.filter_eq_some_iff.mp hr).1⟩
    case deadlines =>
      intro sh j t ht
      rw [Shard.prune, Table.get?_keep] at ht
      exact Table.get?_put_cases (Option.filter_eq_some_iff.mp ht).1
    case flights => exact fun sh j g hg => .inr ⟨g, hg⟩
  present hr := by
    rw [h.slot?_pruned hs] at hr
    obtain ⟨t, ht⟩ := h.present hs (Option.filter_eq_some_iff.mp hr).1
    obtain ⟨e', he', -⟩ := Option.map_eq_some_iff.mp ht
    exact ⟨e', he'⟩
  recorded j := by
    have hexpires : (x.pruned k e.expires now).expires? = x.expires? := rfl
    rw [h.deadline?_pruned hs, expiry?, expiry?, h.slot?_pruned hs, hexpires]
    cases hj : x.slot? j with
    | none => rfl
    | some q =>
      obtain ⟨t, ht⟩ := h.present hs hj
      simp only [Option.bind_some, ht, Option.filter_some, Outlasts, isLive_eq ht]
      split
      · rw [Option.bind_some, ht]
      · rfl

end Pruning

/-- The entry for `j` once `r` is stored for `k`, and once the shard of `k` has nothing any more
that has expired. -/
def restocked (s : Store κ ν ε ω) (k : κ) (r : Ref (Entry ν)) (live : Ref (Entry ν) → Bool)
    (j : κ) : Option (Ref (Entry ν)) :=
  (if j = k then some r else s.slot? j).filter fun q => decide (s.home j ≠ s.home k) || live q

/-- Storing `value` for `k` has taken `s` to `s'`: the entry `r` is new, the shard of `k` has been
pruned, and the keys `evicted` have been evicted. -/
structure RoomMade (s : Store κ ν ε ω) (k : κ) (value : Option ν) (now : Instant)
    (r : Ref (Entry ν)) (evicted : List κ) (s' : Store κ ν ε ω) : Prop where
  new : s.entryAt? r = none
  fresh : s'.entryAt? r = some ⟨value, now, now + s.timeToLive.toNanos, 0, .idle⟩
  kept : ∀ q, q ≠ r → s'.entryAt? q = s.entryAt? q
  slot?_eq : ∀ j, s'.slot? j = if j ∈ evicted then none else s.restocked k r (s'.isLive now) j
  inOrder : InExpiryOrder (fun j => (s.restocked k r (s'.isLive now) j).bind s'.expires?) evicted
  fits : ∀ m, s.capacity = some m → s'.size ≤ m
  needed : evicted ≠ [] → s.capacity = some s'.size

/-- The store has made room for `r` by giving up the entries that expire soonest. Whatever is left
expires no earlier, and what is evicted live leaves live entries only. -/
structure SoonestFirst (s : Store κ ν ε ω) (k : κ) (now : Instant) (r : Ref (Entry ν))
    (evicted : List κ) (s' : Store κ ν ε ω) : Prop where
  expired_first : ∀ before j after q, evicted = before ++ j :: after →
    s.restocked k r (s'.isLive now) j = some q → s'.isLive now q = true →
      ∀ i p, i ∉ before → s.restocked k r (s'.isLive now) i = some p → s'.isLive now p = true
  survivors : ∀ i j p q t u, j ∈ evicted → s.restocked k r (s'.isLive now) j = some q →
    s'.expires? q = some t → s'.slot? i = some p → s'.expires? p = some u → t ≤ u
  newest : 0 < s.timeToLive.toNanos → s.capacity ≠ some 0 →
    (∀ j q t, j ≠ k → s.restocked k r (s'.isLive now) j = some q → s'.expires? q = some t →
      t < now + s.timeToLive.toNanos) →
    s'.slot? k = some r

/-- Once room has been made, the store is what pruning has left of it, thinned to fit. -/
theorem Placed.thinned (h : s.Placed k e x) (hs : s.Tidy) (now : Instant) :
    (x.pruned k e.expires now).Thinned (x.recordDeadline k e.expires now).1
        (x.recordDeadline k e.expires now).2 ∧
      (x.recordDeadline k e.expires now).2.WithinCapacity := by
  obtain ⟨hevictions, hwithin⟩ := (h.tidy_pruned hs now).evictions_fit
  exact ⟨hevictions.thinned (h.tidy_pruned hs now), hwithin⟩

theorem Placed.roomMade (h : s.Placed k e x) (hs : s.Tidy) {value : Option ν}
    (fresh : Entry.fresh? value now s.timeToLive = some e) :
    s.RoomMade k value now s.entries.next (x.recordDeadline k e.expires now).1
      (x.recordDeadline k e.expires now).2 := by
  obtain ⟨hthinned, hfits⟩ := h.thinned hs now
  rw [recordDeadline_eq] at hthinned hfits ⊢
  generalize (x.pruned k e.expires now).fit = made at hthinned hfits
  obtain ⟨evicted, s'⟩ := made
  have hentries : s'.entries = s.entries.add e := hthinned.entries_eq.trans h.entries_eq
  have hlive : s'.isLive now = x.isLive now := by
    funext q
    rw [isLive, isLive, entryAt?, entryAt?, hentries, h.entries_eq]
  have hexpires : s'.expires? = (x.pruned k e.expires now).expires? := by
    funext q
    rw [expires?, expires?, entryAt?, entryAt?, hthinned.entries_eq]
  have hrestocked : (x.pruned k e.expires now).slot? =
      s.restocked k s.entries.next (s'.isLive now) := by
    funext j
    rw [h.slot?_pruned hs, h.slot?_eq, restocked, hlive]
    congr 1
    funext q
    rw [Outlasts, decide_eq_decide.mpr (not_congr h.home_eq_iff)]
  have hcapacity : (x.pruned k e.expires now).capacity = s.capacity := h.capacity_eq
  constructor
  case new => exact Arena.get?_next _
  case fresh =>
    obtain ⟨-, rfl⟩ := Entry.fresh?_eq_some_iff.mp fresh
    rw [entryAt?, hentries, Arena.get?_add_next]
  case kept =>
    intro q hq
    rw [entryAt?, hentries, Arena.get?_add, if_neg hq, entryAt?]
  case slot?_eq =>
    intro j
    rw [hthinned.slot?_eq, hrestocked]
  case inOrder =>
    have horder := hthinned.inOrder
    rw [← hrestocked, hexpires]
    exact horder
  case fits =>
    intro m hm
    exact hfits m (hthinned.capacity_eq.trans (hcapacity.trans hm))
  case needed =>
    intro hne
    obtain ⟨m, hm, hle⟩ := hthinned.needed hne
    have hsize : m = s'.size := Nat.le_antisymm hle (hfits m (hthinned.capacity_eq.trans hm))
    rw [← hcapacity, hm, hsize]

namespace RoomMade

variable {value : Option ν} {evicted : List κ}

/-- What has been restocked of `j` is there unless it has been evicted. -/
theorem restocked_of_slot? (h : s.RoomMade k value now r evicted s') {j : κ} {q : Ref (Entry ν)}
    (hq : s'.slot? j = some q) :
    j ∉ evicted ∧ s.restocked k r (s'.isLive now) j = some q := by
  rw [h.slot?_eq] at hq
  split at hq
  · cases hq
  · exact ⟨‹_›, hq⟩

theorem expires?_isSome (h : s.RoomMade k value now r evicted s') (tidy : s'.Tidy) {j : κ}
    {q : Ref (Entry ν)} (hq : s.restocked k r (s'.isLive now) j = some q) :
    ∃ t, s'.expires? q = some t := by
  by_cases hj : j ∈ evicted
  · obtain ⟨t, ht⟩ := h.inOrder.expiry_eq_some hj
    rw [hq, Option.bind_some] at ht
    exact ⟨t, ht⟩
  · have hslot : s'.slot? j = some q := by rw [h.slot?_eq, if_neg hj, hq]
    obtain ⟨e, he⟩ := tidy.present hslot
    exact ⟨e.expires, by rw [expires?, he, Option.map_some]⟩

theorem expires?_fresh (h : s.RoomMade k value now r evicted s') :
    s'.expires? r = some (now + s.timeToLive.toNanos) := by
  rw [expires?, h.fresh, Option.map_some]

theorem restocked_self (h : s.RoomMade k value now r evicted s')
    (lasting : 0 < s.timeToLive.toNanos) : s.restocked k r (s'.isLive now) k = some r := by
  have hlive : s'.isLive now r = true := by
    rw [isLive_eq h.expires?_fresh, decide_eq_true_eq]
    exact Nat.lt_add_of_pos_right lasting
  rw [restocked, if_pos rfl, Option.filter_some, hlive, Bool.or_true, if_pos rfl]

theorem soonestFirst (h : s.RoomMade k value now r evicted s') (tidy : s'.Tidy) :
    s.SoonestFirst k now r evicted s' := by
  constructor
  case expired_first =>
    intro before j after q hevicted hq hlive i p hi hp
    obtain ⟨t, ht, hmin⟩ := h.inOrder.first before j after hevicted
    rw [hq, Option.bind_some] at ht
    obtain ⟨u, hu⟩ := h.expires?_isSome tidy hp
    have hle : t ≤ u := hmin i u hi (by rw [hp, Option.bind_some, hu])
    rw [isLive_eq ht, decide_eq_true_eq] at hlive
    rw [isLive_eq hu, decide_eq_true_eq]
    exact Nat.lt_of_lt_of_le hlive hle
  case survivors =>
    intro i j p q t u hj hq ht hp hu
    obtain ⟨hi, hp⟩ := h.restocked_of_slot? hp
    exact h.inOrder.le_of_left hj (by rw [hq, Option.bind_some, ht]) hi
      (by rw [hp, Option.bind_some, hu])
  case newest =>
    intro lasting capacity others
    have hself := h.restocked_self lasting
    suffices hk : k ∉ evicted by rw [h.slot?_eq, if_neg hk, hself]
    -- Otherwise nothing would be left, although there was room for one entry.
    intro hk
    have hsize : s'.size ≠ 0 := fun hzero =>
      capacity (by rw [h.needed (List.ne_nil_of_mem hk), hzero])
    rw [← tidy.slots.card_residents, Finset.card_ne_zero] at hsize
    obtain ⟨i, hi⟩ := hsize
    obtain ⟨p, hp⟩ := tidy.slots.mem_residents_iff.mp hi
    obtain ⟨hleft, hp⟩ := h.restocked_of_slot? hp
    obtain ⟨u, hu⟩ := h.expires?_isSome tidy hp
    have hexpiry : (s.restocked k r (s'.isLive now) k).bind s'.expires? =
        some (now + s.timeToLive.toNanos) := by rw [hself, Option.bind_some, h.expires?_fresh]
    refine hleft (h.inOrder.mem_of_last hk hexpiry ?_ (by rw [hp, Option.bind_some, hu]))
    intro j t hj ht
    obtain ⟨q, hq, ht⟩ := Option.bind_eq_some_iff.mp ht
    exact others j q t hj hq ht

end RoomMade

end ReadThrough.Store
