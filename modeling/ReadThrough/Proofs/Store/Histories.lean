import ReadThrough.Proofs.Runs
import ReadThrough.Proofs.Store.Contents

/-!
# Where entries come from

The history of a store is a run whose events do one of three things to its entries. They read the
live entry of a key, or bring a value for a key, or keep what there is. Every entry of such a
history has been brought for the key that it is stored for, at the instant of its creation, and is
from then on what it has been brought as.
-/

namespace ReadThrough

/-- This entry is live at `now`, it lives for the time that it should, and its value has been
brought at the instant of its creation. -/
structure Entry.Genuine {ν : Type} (e : Entry ν) (timeToLive : Span) (now : Instant)
    (brought : Option ν → Instant → Prop) : Prop where
  created_le : e.created ≤ now
  lt_expires : now < e.expires
  expires_eq : e.expires = e.created + timeToLive.toNanos
  brought : brought e.value e.created

variable {κ ν ε ω σ α : Type}

theorem Store.exists_genuine {s : Store κ ν ε ω} {r : Ref (Entry ν)} {y : Entry ν}
    {timeToLive : Span} {now : Instant} {brought : Option ν → Instant → Prop}
    (hy : s.contents? r = some y) (genuine : y.Genuine timeToLive now brought) :
    ∃ x, s.entryAt? r = some x ∧ x.Genuine timeToLive now brought := by
  obtain ⟨x, hx, rfl⟩ := Option.map_eq_some_iff.mp hy
  exact ⟨x, hx, genuine.created_le, genuine.lt_expires, genuine.expires_eq, genuine.brought⟩

variable [DecidableEq κ]

/-- A run of `step` is a history of the store in its states. The entry that an event has read is
`read?`, and what it has brought for which key, as which entry and at which time, is `Brings`. -/
structure History (step : Clocked σ → α → Clocked σ) (store : σ → Store κ ν ε ω)
    (read? : Clocked σ → α → Option (Ref (Entry ν)))
    (Brings : κ → Ref (Entry ν) → Option ν → Instant → Clocked σ → α → Prop)
    (start : Clocked σ) : Prop where
  empty : ∀ r, (store start.state).entryAt? r = none
  sound : ∀ events : List α, (store (events.foldl step start).state).Sound
  timeToLive_eq : ∀ events : List α,
    (store (events.foldl step start).state).timeToLive = (store start.state).timeToLive
  clock : ∀ t e, t.now ≤ (step t e).now
  reads : ∀ (events : List α) e r, let t := events.foldl step start
    read? t e = some r → (∃ k, (store t.state).live? k t.now = some r) ∧ (step t e).now = t.now ∧
      ((store t.state).modifyEntry r (·.recordAccess t.now)).Sheds (store (step t e).state)
  brings : ∀ (events : List α) e k r v time, let t := events.foldl step start
    Brings k r v time t e → time = (step t e).now ∧
      (store t.state).Stocked k r v time (store (step t e).state)
  keeps : ∀ (events : List α) e, let t := events.foldl step start
    read? t e = none → (∀ k r v time, ¬ Brings k r v time t e) →
      (store t.state).Sheds (store (step t e).state)

namespace History

variable {step : Clocked σ → α → Clocked σ} {store : σ → Store κ ν ε ω}
  {read? : Clocked σ → α → Option (Ref (Entry ν))}
  {Brings : κ → Ref (Entry ν) → Option ν → Instant → Clocked σ → α → Prop} {start : Clocked σ}
  (h : History step store read? Brings start) {events before after : List α} {e : α} {j k : κ}
  {q r : Ref (Entry ν)} {v : Option ν} {time : Instant} {x : Entry ν}

include h

omit h in
theorem foldl_concat (events : List α) (e : α) :
    (events ++ [e]).foldl step start = step (events.foldl step start) e := by
  rw [List.foldl_append, List.foldl_cons, List.foldl_nil]

theorem contents?_step (hx : (store (events.foldl step start).state).contents? q = some x) :
    (store (step (events.foldl step start) e).state).contents? q =
      some (if read? (events.foldl step start) e = some q then
        x.recordAccess (events.foldl step start).now else x) := by
  cases hread : read? (events.foldl step start) e with
  | some r =>
    obtain ⟨-, -, hsheds⟩ := h.reads events e r hread
    rw [hsheds.contents?_eq, Store.contents?_recordAccess, hx]
    by_cases hq : q = r
    · subst hq
      simp
    · have hne : ¬ some r = some q := fun hr => hq (Option.some.inj hr).symm
      rw [if_neg hq, if_neg hne]
  | none =>
    rw [if_neg (Option.some_ne_none q).symm]
    by_cases hbrings : ∃ k r v time, Brings k r v time (events.foldl step start) e
    · obtain ⟨k, r, v, time, hbrings⟩ := hbrings
      obtain ⟨-, hstocked⟩ := h.brings events e k r v time hbrings
      have hne : q ≠ r := by
        rintro rfl
        rw [Store.contents?, hstocked.new] at hx
        cases hx
      rw [hstocked.kept q hne, hx]
    · have hsheds := h.keeps events e hread fun k r v time hb => hbrings ⟨k, r, v, time, hb⟩
      rw [hsheds.contents?_eq, hx]

theorem slot?_step (hr : (store (step (events.foldl step start) e).state).slot? k = some r) :
    (store (events.foldl step start).state).slot? k = some r ∨
      ∃ v time, Brings k r v time (events.foldl step start) e := by
  cases hread : read? (events.foldl step start) e with
  | some q =>
    obtain ⟨-, -, hsheds⟩ := h.reads events e q hread
    exact .inl (hsheds.slot? hr)
  | none =>
    by_cases hbrings : ∃ k r v time, Brings k r v time (events.foldl step start) e
    · obtain ⟨j, q, v, time, hbrings⟩ := hbrings
      rcases (h.brings events e j q v time hbrings).2.slot? hr with ⟨rfl, rfl⟩ | ⟨-, hr⟩
      · exact .inr ⟨v, time, hbrings⟩
      · exact .inl hr
    · have hsheds := h.keeps events e hread fun k r v time hb => hbrings ⟨k, r, v, time, hb⟩
      exact .inl (hsheds.slot? hr)

theorem contents?_new (hq : (store (events.foldl step start).state).contents? q = none)
    (hx : (store (step (events.foldl step start) e).state).contents? q = some x) :
    ∃ k v time, Brings k q v time (events.foldl step start) e := by
  cases hread : read? (events.foldl step start) e with
  | some r =>
    obtain ⟨-, -, hsheds⟩ := h.reads events e r hread
    rw [hsheds.contents?_eq, Store.contents?_recordAccess, hq] at hx
    split at hx <;> cases hx
  | none =>
    by_contra hnone
    by_cases hbrings : ∃ k r v time, Brings k r v time (events.foldl step start) e
    · obtain ⟨k, r, v, time, hbrings⟩ := hbrings
      by_cases hqr : q = r
      · exact hnone ⟨k, v, time, hqr ▸ hbrings⟩
      · rw [(h.brings events e k r v time hbrings).2.kept q hqr, hq] at hx
        cases hx
    · have hsheds := h.keeps events e hread fun k r v time hb => hbrings ⟨k, r, v, time, hb⟩
      rw [hsheds.contents?_eq, hq] at hx
      cases hx

theorem exists_contents (hr : (store (events.foldl step start).state).slot? k = some r) :
    ∃ x, (store (events.foldl step start).state).contents? r = some x := by
  obtain ⟨x, hx⟩ := (h.sound events).present hr
  exact ⟨x.withLease .idle, Store.contents?_of_entryAt? hx⟩

theorem live?_step (hr : (store (step (events.foldl step start) e).state).live? k
    (step (events.foldl step start) e).now = some r) :
    (store (events.foldl step start).state).live? k (events.foldl step start).now = some r ∨
      ∃ v time, Brings k r v time (events.foldl step start) e := by
  obtain ⟨hslot, hlive⟩ := Option.filter_eq_some_iff.mp hr
  rcases h.slot?_step hslot with hslot' | hbrings
  · obtain ⟨x, hx⟩ := h.exists_contents hslot'
    have hexpires : (store (step (events.foldl step start) e).state).expires? r =
        some x.expires := by
      rw [Store.expires?_of_contents? (h.contents?_step hx)]
      split <;> rfl
    rw [Store.isLive_eq hexpires, decide_eq_true_iff] at hlive
    refine .inl (Option.filter_eq_some_iff.mpr ⟨hslot', ?_⟩)
    rw [Store.isLive_eq (Store.expires?_of_contents? hx), decide_eq_true_iff]
    exact Nat.lt_of_le_of_lt (h.clock _ e) hlive
  · exact .inr hbrings

theorem occurs_brings (hr : (store (events.foldl step start).state).slot? k = some r)
    (hx : (store (events.foldl step start).state).contents? r = some x) :
    Occurs step start events (Brings k r x.value x.created) := by
  induction events using List.reverseRecOn generalizing x with
  | nil =>
    rw [Store.contents?, List.foldl_nil, h.empty] at hx
    cases hx
  | append_singleton events e ih =>
    rw [foldl_concat] at hr hx
    rw [occurs_concat_iff]
    rcases h.slot?_step hr with hr | ⟨v, time, hbrings⟩
    · obtain ⟨y, hy⟩ := h.exists_contents hr
      have hread := h.contents?_step (e := e) hy
      have hbrought : Occurs step start events (Brings k r y.value y.created) := ih hr hy
      cases hx.symm.trans hread
      left
      split
      · exact hbrought
      · exact hbrought
    · obtain ⟨-, hstocked⟩ := h.brings events e k r v time hbrings
      cases hx.symm.trans hstocked.fresh
      exact .inr hbrings

theorem now_le (t : Clocked σ) (events : List α) : t.now ≤ (events.foldl step t).now := by
  induction events generalizing t with
  | nil => exact Nat.le_refl _
  | cons e events ih => exact Nat.le_trans (h.clock t e) (ih (step t e))

theorem time_le (brought : Occurs step start events (Brings k r v time)) :
    time ≤ (events.foldl step start).now := by
  obtain ⟨before, e, after, rfl, hbrings⟩ := brought
  rw [List.foldl_append, (h.brings before e k r v time hbrings).1]
  exact h.now_le _ after

/-- Once an entry is there, all that happens to its contents is that it is read. -/
theorem readSince (hx : (store (before.foldl step start).state).contents? r = some x)
    (after : List α) :
    ∃ y, (store ((before ++ after).foldl step start).state).contents? r = some y ∧
      x.ReadSince y := by
  induction after using List.reverseRecOn with
  | nil => exact ⟨x, by rwa [List.append_nil], .refl x⟩
  | append_singleton after e ih =>
    obtain ⟨y, hy, hread⟩ := ih
    rw [← List.append_assoc, foldl_concat, h.contents?_step hy]
    refine ⟨_, rfl, ?_⟩
    split
    · exact hread.trans (y.readSince_recordAccess _)
    · exact hread

theorem slot?_back (hx : (store (before.foldl step start).state).contents? r = some x)
    (after : List α) (hr : (store ((before ++ after).foldl step start).state).slot? k = some r) :
    (store (before.foldl step start).state).slot? k = some r := by
  induction after using List.reverseRecOn with
  | nil => rwa [List.append_nil] at hr
  | append_singleton after e ih =>
    rw [← List.append_assoc, foldl_concat] at hr
    rcases h.slot?_step hr with hr | ⟨v, time, hbrings⟩
    · exact ih hr
    · obtain ⟨y, hy, -⟩ := h.readSince hx after
      rw [Store.contents?, (h.brings _ e k r v time hbrings).2.new] at hy
      cases hy

theorem one_key (hj : (store (before.foldl step start).state).slot? j = some r)
    (hk : (store ((before ++ after).foldl step start).state).slot? k = some r) : j = k := by
  obtain ⟨x, hx⟩ := h.exists_contents hj
  exact (h.sound before).single hj (h.slot?_back hx after hk)

section Positions

variable {m n : Nat}

omit h in
theorem exists_take_append (events : List α) (le : m ≤ n) :
    ∃ after, events.take n = events.take m ++ after := by
  obtain ⟨d, rfl⟩ := Nat.exists_eq_add_of_le le
  exact ⟨_, List.take_add⟩

theorem exists_contents_at (le : m ≤ n)
    (hx : (store (stateAt step start events m).state).contents? r = some x) :
    ∃ y, (store (stateAt step start events n).state).contents? r = some y := by
  obtain ⟨after, hafter⟩ := exists_take_append events le
  obtain ⟨y, hy, -⟩ := h.readSince hx after
  rw [← hafter] at hy
  exact ⟨y, hy⟩

theorem slot?_at (le : m ≤ n)
    (hx : (store (stateAt step start events m).state).contents? r = some x)
    (hr : (store (stateAt step start events n).state).slot? k = some r) :
    (store (stateAt step start events m).state).slot? k = some r := by
  obtain ⟨after, hafter⟩ := exists_take_append events le
  rw [stateAt, hafter] at hr
  exact h.slot?_back hx after hr

theorem stocked_at (brought : OccursAt step start events m (Brings k r v time)) :
    (store (stateAt step start events m).state).Stocked k r v time
      (store (stateAt step start events (m + 1)).state) := by
  obtain ⟨e, he, hbrings⟩ := brought
  rw [stateAt_succ he]
  exact (h.brings (events.take m) e k r v time hbrings).2

theorem brought_lt (brought : OccursAt step start events m (Brings k r v time))
    (hx : (store (stateAt step start events n).state).contents? r = some x) : m < n := by
  by_contra hle
  obtain ⟨y, hy⟩ := h.exists_contents_at (Nat.le_of_not_lt hle) hx
  rw [Store.contents?, (h.stocked_at brought).new] at hy
  cases hy

/-- What is stored for a key after something has been brought is that, or has been brought later. -/
theorem eq_of_brought (brought : OccursAt step start events m (Brings k r v time)) (lt : m < n)
    (hq : (store (stateAt step start events n).state).slot? k = some q)
    (hx : (store (stateAt step start events (m + 1)).state).contents? q = some x) : q = r := by
  rcases (h.stocked_at brought).slot? (h.slot?_at lt hx hq) with ⟨-, rfl⟩ | ⟨hk, -⟩
  · rfl
  · exact absurd rfl hk

/-- Of two entries of one key, the one that is stored later has been brought later. -/
theorem brought_in_order {i j s s' : Nat} {r' : Ref (Entry ν)} {v' : Option ν} {time' : Instant}
    (le : i ≤ j) (hr' : (store (stateAt step start events i).state).slot? k = some r')
    (hr : (store (stateAt step start events j).state).slot? k = some r) (ne : r' ≠ r)
    (brought' : OccursAt step start events s' (Brings k r' v' time'))
    (brought : OccursAt step start events s (Brings k r v time)) : s' < s := by
  by_contra hle
  obtain ⟨x', hx'⟩ := h.exists_contents hr'
  have hlt := h.brought_lt brought' hx'
  have hfresh := (h.stocked_at brought).fresh
  obtain ⟨x, hx⟩ := h.exists_contents_at (Nat.succ_le_succ (Nat.le_of_not_lt hle)) hfresh
  exact ne (h.eq_of_brought brought' (Nat.lt_of_lt_of_le hlt le) hr hx).symm

end Positions

section Genuine

theorem expires_eq (hx : (store (events.foldl step start).state).entryAt? r = some x) :
    x.expires = x.created + (store start.state).timeToLive.toNanos := by
  rw [(h.sound events).timed hx, h.timeToLive_eq]

theorem genuine_of_live
    (hr : (store (events.foldl step start).state).live? k (events.foldl step start).now = some r) :
    ∃ x, (store (events.foldl step start).state).entryAt? r = some x ∧
      x.Genuine (store start.state).timeToLive (events.foldl step start).now fun v time =>
        Occurs step start events (Brings k r v time) := by
  obtain ⟨hslot, hlive⟩ := Option.filter_eq_some_iff.mp hr
  obtain ⟨x, hx⟩ := (h.sound events).present hslot
  have hbrought := h.occurs_brings hslot (Store.contents?_of_entryAt? hx)
  refine ⟨x, hx, h.time_le hbrought, ?_, h.expires_eq hx, hbrought⟩
  have hexpires : (store (events.foldl step start).state).expires? r = some x.expires := by
    rw [Store.expires?, hx, Option.map_some]
  rw [Store.isLive_eq hexpires] at hlive
  exact of_decide_eq_true hlive

theorem genuine_of_read (hread : read? (events.foldl step start) e = some r)
    (hr : (store (events.foldl step start).state).live? k (events.foldl step start).now = some r) :
    ∃ x, (store (step (events.foldl step start) e).state).entryAt? r = some x ∧
      x.Genuine (store start.state).timeToLive (step (events.foldl step start) e).now
        fun v time => Occurs step start (events ++ [e]) (Brings k r v time) := by
  obtain ⟨x, hx, hgenuine⟩ := h.genuine_of_live hr
  obtain ⟨-, hnow, -⟩ := h.reads events e r hread
  obtain ⟨y, hy, offset, -, rfl⟩ := h.readSince (Store.contents?_of_entryAt? hx) [e]
  rw [foldl_concat] at hy
  rw [hnow]
  exact Store.exists_genuine hy ⟨hgenuine.created_le, hgenuine.lt_expires, hgenuine.expires_eq,
    occurs_concat_iff.mpr (.inl hgenuine.brought)⟩

/-- What has just been brought is genuine, as long as entries live for any time at all. -/
theorem genuine_of_brings (lasting : 0 < (store start.state).timeToLive.toNanos)
    (hbrings : Brings k r v time (events.foldl step start) e) :
    ∃ x, (store (step (events.foldl step start) e).state).entryAt? r = some x ∧
      x.Genuine (store start.state).timeToLive (step (events.foldl step start) e).now
        fun v time => Occurs step start (events ++ [e]) (Brings k r v time) := by
  obtain ⟨htime, hstocked⟩ := h.brings events e k r v time hbrings
  refine Store.exists_genuine hstocked.fresh ⟨Nat.le_of_eq htime, ?_, ?_, ?_⟩
  · rw [← htime, Store.freshContents, h.timeToLive_eq]
    exact Nat.lt_add_of_pos_right lasting
  · rw [Store.freshContents, h.timeToLive_eq]
  · exact occurs_concat_iff.mpr (.inr hbrings)

end Genuine

end History

/-- In this run of `step`, polls serve nothing but genuine entries. What the poll of an event
resolves to is `Resolves`. The same holds of what anybody finds live who only looks, and no entry
ever changes or is stored for two keys. -/
structure ServesGenuine (step : Clocked σ → α → Clocked σ) (store : σ → Store κ ν ε ω)
    (read? : Clocked σ → α → Option (Ref (Entry ν)))
    (Brings : κ → Ref (Entry ν) → Option ν → Instant → Clocked σ → α → Prop)
    (Resolves : κ → Ref (Entry ν) → Clocked σ → α → Prop) (timeToLive : Span)
    (start : Clocked σ) (events : List α) : Prop where
  resolved : ∀ k r e, Resolves k r (events.foldl step start) e →
    ∃ x, (store (step (events.foldl step start) e).state).entryAt? r = some x ∧
      x.Genuine timeToLive (step (events.foldl step start) e).now fun v time =>
        Occurs step start (events ++ [e]) (Brings k r v time)
  at_once : ∀ r e, read? (events.foldl step start) e = some r →
    (step (events.foldl step start) e).now = (events.foldl step start).now
  peeked : ∀ k r,
    (store (events.foldl step start).state).live? k (events.foldl step start).now = some r →
      ∃ x, (store (events.foldl step start).state).entryAt? r = some x ∧
        x.Genuine timeToLive (events.foldl step start).now fun v time =>
          Occurs step start events (Brings k r v time)
  one_key : ∀ before after j k r, events = before ++ after →
    (store (before.foldl step start).state).slot? j = some r →
      (store (events.foldl step start).state).slot? k = some r → j = k
  unchanged : ∀ before after r x, events = before ++ after →
    (store (before.foldl step start).state).entryAt? r = some x →
      ∃ y, (store (events.foldl step start).state).entryAt? r = some y ∧ y.value = x.value ∧
        y.created = x.created ∧ y.expires = x.expires

/-- Where a poll resolves to what it finds live or has just brought, it serves genuine entries. -/
theorem History.servesGenuine {step : Clocked σ → α → Clocked σ} {store : σ → Store κ ν ε ω}
    {read? : Clocked σ → α → Option (Ref (Entry ν))}
    {Brings : κ → Ref (Entry ν) → Option ν → Instant → Clocked σ → α → Prop} {start : Clocked σ}
    {Resolves : κ → Ref (Entry ν) → Clocked σ → α → Prop}
    (h : History step store read? Brings start)
    (lasting : 0 < (store start.state).timeToLive.toNanos) (events : List α)
    (resolves : ∀ k r e, Resolves k r (events.foldl step start) e →
      read? (events.foldl step start) e = some r ∧
        (store (events.foldl step start).state).live? k (events.foldl step start).now = some r ∨
      ∃ v time, Brings k r v time (events.foldl step start) e) :
    ServesGenuine step store read? Brings Resolves (store start.state).timeToLive start events where
  resolved k r e hresolved := by
    rcases resolves k r e hresolved with ⟨hread, hlive⟩ | ⟨v, time, hbrings⟩
    · exact h.genuine_of_read hread hlive
    · exact h.genuine_of_brings lasting hbrings
  at_once r e hread := (h.reads events e r hread).2.1
  peeked k r hlive := h.genuine_of_live hlive
  one_key := by
    rintro before after j k r rfl hj hk
    exact h.one_key hj hk
  unchanged := by
    rintro before after r x rfl hx
    obtain ⟨y, hy, offset, -, rfl⟩ := h.readSince (Store.contents?_of_entryAt? hx) after
    obtain ⟨z, hz, hzy⟩ := Option.map_eq_some_iff.mp hy
    have hvalue := congrArg Entry.value hzy
    have hcreated := congrArg Entry.created hzy
    have hexpires := congrArg Entry.expires hzy
    exact ⟨z, hz, hvalue, hcreated, hexpires⟩

end ReadThrough
