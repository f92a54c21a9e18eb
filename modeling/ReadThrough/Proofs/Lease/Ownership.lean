import ReadThrough.Proofs.Lease.Moves
import ReadThrough.Proofs.Lease.Packing

/-!
# The lease word is a lock

The word of an entry stands for a lease. Whatever is done to the entry, under whatever tokens and
in whatever order, the word goes the way of the lease that it stands for, and so it tells at every
time who holds the entry. From one time that the entry is idle to the next it belongs to one token,
and nothing that is done under another token, or by reading the entry, makes any difference.
-/

namespace ReadThrough

namespace LeaseWord

/-- Put `new` in the place of `expected`; any other word stays. -/
def compareAndSet (w expected new : LeaseWord) : LeaseWord := if w = expected then new else w

variable {t : Token} {w : LeaseWord}

theorem compareAndSet_self (w new : LeaseWord) : w.compareAndSet w new = new := if_pos rfl

theorem compareAndSet_of_ne {expected : LeaseWord} (h : w ≠ expected) (new : LeaseWord) :
    w.compareAndSet expected new = w := if_neg h

theorem idle_compareAndSet_pack (t : Token) (s : Stage) :
    idle.compareAndSet (pack t s) idle = idle :=
  compareAndSet_of_ne (pack_ne_idle t s).symm idle

/-- A lease that is given back is compared with both words of its holder. -/
theorem release_eq_compareAndSet (w : LeaseWord) (t : Token) : w.release t =
    (w.compareAndSet (pack t .running) idle).compareAndSet (pack t .scheduled) idle := by
  unfold release
  split
  · next h => rw [h, compareAndSet_self, idle_compareAndSet_pack]
  · next h => rw [compareAndSet_of_ne h, compareAndSet]

theorem release_eq_compareAndSet' (w : LeaseWord) (t : Token) : w.release t =
    (w.compareAndSet (pack t .scheduled) idle).compareAndSet (pack t .running) idle := by
  rw [release_eq_compareAndSet]
  by_cases h : w = pack t .running
  · have hne : pack t .running ≠ pack t .scheduled := by simp [pack_inj]
    rw [h, compareAndSet_self, idle_compareAndSet_pack, compareAndSet_of_ne hne,
      compareAndSet_self]
  · rw [compareAndSet_of_ne h]
    by_cases h' : w = pack t .scheduled
    · rw [h', compareAndSet_self, idle_compareAndSet_pack]
    · rw [compareAndSet_of_ne h', compareAndSet_of_ne h]

end LeaseWord

namespace Lease

variable {l : Lease}

theorem stage_eq_idle_iff : l.stage = .idle ↔ l = .idle := by
  cases l <;> simp [stage]

theorem word_inj (l l' : Lease) : l.word = l'.word ↔ l = l' := by
  have hne : ∀ t s, LeaseWord.idle ≠ .pack t s := fun t s => (LeaseWord.pack_ne_idle t s).symm
  cases l <;> cases l' <;> simp [word, LeaseWord.pack_inj, LeaseWord.pack_ne_idle, hne]

theorem stage_word (l : Lease) : l.word.stage = l.stage := by
  cases l with
  | idle => exact LeaseWord.stage_idle
  | scheduled t => exact LeaseWord.stage_pack t .scheduled
  | running t => exact LeaseWord.stage_pack t .running

theorem schedule_word (l : Lease) (t : Token) :
    l.word.schedule t = (l.schedule t).map word := by
  cases l with
  | idle => rfl
  | scheduled => exact if_neg (LeaseWord.pack_ne_idle _ _)
  | running => exact if_neg (LeaseWord.pack_ne_idle _ _)

theorem start_word (l : Lease) (t : Token) : l.word.start t = (l.start t).map word := by
  have hiff : l.word = .pack t .scheduled ↔ l = .scheduled t := word_inj l (.scheduled t)
  unfold LeaseWord.start Lease.start
  by_cases h : l = .scheduled t
  · rw [if_pos (hiff.mpr h), if_pos h]
    rfl
  · rw [if_neg (mt hiff.mp h), if_neg h]
    rfl

theorem release_word (l : Lease) (t : Token) : l.word.release t = (l.release t).word := by
  have hscheduled : l.word = .pack t .scheduled ↔ l = .scheduled t := word_inj l (.scheduled t)
  have hrunning : l.word = .pack t .running ↔ l = .running t := word_inj l (.running t)
  unfold LeaseWord.release Lease.release
  by_cases hr : l = .running t
  · rw [if_pos (hrunning.mpr hr), if_pos (.inr hr)]
    rfl
  · rw [if_neg (mt hrunning.mp hr)]
    by_cases hs : l = .scheduled t
    · rw [if_pos (hscheduled.mpr hs), if_pos (.inl hs)]
      rfl
    · rw [if_neg (mt hscheduled.mp hs), if_neg (not_or.mpr ⟨hs, hr⟩)]

end Lease

namespace Entry

variable {ν : Type} {e : Entry ν} {l : Lease} {events : List EntryEvent}

def Succeeds (t : Token) (e : Entry ν) (ev : EntryEvent) : Prop :=
  ev.token? = some t ∧ (e.perform ev).lease ≠ e.lease

/-- Each event does to the word what it does to the lease that the word stands for. -/
theorem lease_perform (h : e.lease = l.word) (ev : EntryEvent) :
    (e.perform ev).lease = (l.perform ev).word := by
  cases ev with
  | schedule t =>
    have hlease : (e.perform (.schedule t)).lease = (e.lease.schedule t).getD e.lease := rfl
    rw [hlease, h, Lease.schedule_word, Option.getD_map]
    rfl
  | start t =>
    have hlease : (e.perform (.start t)).lease = (e.lease.start t).getD e.lease := rfl
    rw [hlease, h, Lease.start_word, Option.getD_map]
    rfl
  | release t =>
    have hlease : (e.perform (.release t)).lease = e.lease.release t := rfl
    rw [hlease, h, Lease.release_word]
    rfl
  | touch now => exact h

theorem answer?_eq (h : e.lease = l.word) (ev : EntryEvent) : e.answer? ev = l.answer? ev := by
  cases ev with
  | schedule t => rw [answer?, h, Lease.schedule_word, Option.isSome_map]; rfl
  | start t => rw [answer?, h, Lease.start_word, Option.isSome_map]; rfl
  | release => rfl
  | touch => rfl

theorem lease_perform_ne_iff (h : e.lease = l.word) (ev : EntryEvent) :
    (e.perform ev).lease ≠ e.lease ↔ l.perform ev ≠ l := by
  rw [lease_perform h, h, ne_eq, Lease.word_inj]

theorem lease_run (h : e.lease = l.word) (events : List EntryEvent) :
    (events.foldl perform e).lease = (events.foldl Lease.perform l).word := by
  induction events generalizing e l with
  | nil => exact h
  | cons ev events ih => exact ih (lease_perform h ev)

theorem answers_run (h : e.lease = l.word) (events : List EntryEvent) :
    gathered perform (fun e ev => [e.answer? ev]) e events =
      gathered Lease.perform (fun l ev => [l.answer? ev]) l events := by
  induction events generalizing e l with
  | nil => rfl
  | cons ev events ih => rw [gathered, gathered, answer?_eq h, ih (lease_perform h ev)]

theorem lease_stateAt (h : e.lease = l.word) (events : List EntryEvent) (n : Nat) :
    (stateAt perform e events n).lease = (stateAt Lease.perform l events n).word :=
  lease_run h (events.take n)

theorem stage_stateAt_eq_idle_iff (h : e.lease = l.word) (events : List EntryEvent) (n : Nat) :
    (stateAt perform e events n).stage = .idle ↔ stateAt Lease.perform l events n = .idle := by
  rw [stage, lease_stateAt h, Lease.stage_word, Lease.stage_eq_idle_iff]

theorem occursAt_succeeds_iff (h : e.lease = l.word) (n : Nat) (t : Token) :
    OccursAt perform e events n (Succeeds t) ↔
      OccursAt Lease.perform l events n (Lease.Succeeds t) := by
  unfold OccursAt Succeeds Lease.Succeeds
  simp only [lease_perform_ne_iff (lease_stateAt h events n)]

/-- The entry is idle when the event at position `m` comes, from then on it is not, and it is idle
again after the event at position `n`. -/
structure Tenure (e : Entry ν) (events : List EntryEvent) (m n : Nat) : Prop where
  lt : m < n
  idle_before : (stateAt perform e events m).stage = .idle
  busy : ∀ i, m < i → i ≤ n → (stateAt perform e events i).stage ≠ .idle
  idle_after : (stateAt perform e events (n + 1)).stage = .idle

/-- What the word of an entry does in a run, if it stands for the lease `l` at first. It goes where
the same events lead the lease, every attempt is answered as by the lease, and as long as the lease
is held nothing has any success that is not done under the token of its holder. -/
structure Locks (e : Entry ν) (l : Lease) (events : List EntryEvent) : Prop where
  idle_of_fresh : ∀ value created timeToLive e', fresh? value created timeToLive = some e' →
    (e' : Entry ν).lease = Lease.idle.word
  bits_inj : ∀ l₁ l₂ : Lease, l₁.word.bits = l₂.word.bits ↔ l₁ = l₂
  pack_bits_inj : ∀ t₁ s₁ t₂ s₂,
    (LeaseWord.pack t₁ s₁).bits = (LeaseWord.pack t₂ s₂).bits ↔ t₁ = t₂ ∧ s₁ = s₂
  release_eq : ∀ (w : LeaseWord) t,
    w.release t =
        (w.compareAndSet (.pack t .running) .idle).compareAndSet (.pack t .scheduled) .idle ∧
      w.release t =
        (w.compareAndSet (.pack t .scheduled) .idle).compareAndSet (.pack t .running) .idle
  word_eq : (events.foldl perform e).lease = (events.foldl Lease.perform l).word
  stage_eq : (events.foldl perform e).stage = (events.foldl Lease.perform l).stage
  answers_eq : gathered perform (fun e ev => [e.answer? ev]) e events =
    gathered Lease.perform (fun l ev => [l.answer? ev]) l events
  schedule_iff : ∀ t, (events.foldl perform e).answer? (.schedule t) = some true ↔
    events.foldl Lease.perform l = .idle
  start_iff : ∀ t, (events.foldl perform e).answer? (.start t) = some true ↔
    events.foldl Lease.perform l = .scheduled t
  moves_iff : ∀ ev w,
    ((events.foldl perform e).perform ev).lease = w ∧ w ≠ (events.foldl perform e).lease ↔
      ∃ l', (events.foldl Lease.perform l).Moves ev l' ∧ w = l'.word
  barred : ∀ t, (events.foldl Lease.perform l).holder? = some t → ∀ ev, ev.token? ≠ some t →
    ((events.foldl perform e).perform ev).lease = (events.foldl perform e).lease ∧
      (events.foldl perform e).answer? ev ≠ some true
  one_token : ∀ m n, Tenure e events m n →
    ∃ t, events[m]? = some (.schedule t) ∧ events[n]? = some (.release t) ∧
      ∀ t', (∃ i, m ≤ i ∧ i ≤ n ∧ OccursAt perform e events i (Succeeds t')) ↔ t' = t

/-- The word of an entry is a lock: it keeps who holds the lease of the entry. -/
theorem lease_word_locks (e : Entry ν) (l : Lease) (events : List EntryEvent) :
    (e.withLease l.word).Locks l events := by
  have hstart : (e.withLease l.word).lease = l.word := rfl
  have hword := lease_run hstart events
  constructor
  case idle_of_fresh =>
    intro value created timeToLive e' hfresh
    rw [(fresh?_eq_some_iff.mp hfresh).2]
    rfl
  case bits_inj =>
    intro l₁ l₂
    rw [← LeaseWord.ext_iff, Lease.word_inj]
  case pack_bits_inj =>
    intro t₁ s₁ t₂ s₂
    rw [← LeaseWord.ext_iff, LeaseWord.pack_inj]
  case release_eq =>
    intro w t
    exact ⟨w.release_eq_compareAndSet t, w.release_eq_compareAndSet' t⟩
  case word_eq => exact hword
  case stage_eq => rw [stage, hword, Lease.stage_word]
  case answers_eq => exact answers_run hstart events
  case schedule_iff =>
    intro t
    rw [answer?_eq hword, Lease.answer?_schedule_iff]
  case start_iff =>
    intro t
    rw [answer?_eq hword, Lease.answer?_start_iff]
  case moves_iff =>
    intro ev w
    simp only [Lease.moves_iff, lease_perform hword, hword]
    constructor
    · rintro ⟨rfl, hne⟩
      exact ⟨_, ⟨rfl, mt (Lease.word_inj _ _).mpr hne⟩, rfl⟩
    · rintro ⟨l', ⟨rfl, hne⟩, rfl⟩
      exact ⟨rfl, mt (Lease.word_inj _ _).mp hne⟩
  case barred =>
    intro t hheld ev hother
    have hstays : ¬ Lease.Moves (events.foldl Lease.perform l) ev
        ((events.foldl Lease.perform l).perform ev) := fun h => hother (h.token_eq hheld)
    constructor
    · rw [lease_perform hword, hword, (Lease.moves_or_stays _ ev).resolve_left hstays]
    · rw [answer?_eq hword]
      exact mt Lease.moves_of_answer hstays
  case one_token =>
    intro m n tenure
    simp only [occursAt_succeeds_iff hstart]
    exact Lease.one_token ((stage_stateAt_eq_idle_iff hstart events m).mp tenure.idle_before)
      (fun i hmi hin => mt (stage_stateAt_eq_idle_iff hstart events i).mpr (tenure.busy i hmi hin))
      ((stage_stateAt_eq_idle_iff hstart events (n + 1)).mp tenure.idle_after) tenure.lt

example : gathered perform (fun e ev => [e.answer? ev]) (⟨none, 0, 1, 0, .idle⟩ : Entry Unit)
    [.schedule ⟨1, by decide, by decide⟩, .schedule ⟨2, by decide, by decide⟩,
      .start ⟨2, by decide, by decide⟩, .start ⟨1, by decide, by decide⟩,
      .release ⟨2, by decide, by decide⟩, .schedule ⟨2, by decide, by decide⟩,
      .release ⟨1, by decide, by decide⟩, .schedule ⟨2, by decide, by decide⟩] =
    [some true, some false, some false, some true, none, some false, none, some true] := by decide

end Entry

end ReadThrough
