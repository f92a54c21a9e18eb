import ReadThrough.Proofs.Cache.Leases

/-!
# At most one renewal per entry, and none is leaked

However a renewal ends, and whatever else happens while it is outstanding, it holds the lease of its
entry exactly as long as it is outstanding, and no other renewal can be scheduled for that entry.
-/

namespace ReadThrough.Cache

variable {ι κ ν ε ω : Type}

section Operations

variable {c c' : Cache ι κ ν ε ω} {n : Nat} {q : Renewal κ ν}

theorem LeasesHeld.schedule (h : c.LeasesHeld) (k : κ) (r : Ref (Entry ν)) :
    (c.schedule k r).cache.LeasesHeld := by
  let q : Renewal κ ν := ⟨k, r, c.tokens.next.1, false⟩
  cases c.scheduled_schedule k r with
  | busy held eq =>
    rw [eq]
    exact h
  | outstanding present idle running eq =>
    have hfree : c.store.lease? r = some .idle := Option.map_eq_some_iff.mpr ⟨_, present, idle⟩
    have htaken : (c.taken r).store.lease? = Function.update c.store.lease? r (some q.word) :=
      lease?_setLease hfree q.word
    have htake := h.take (q := q) hfree
    rw [← htaken, ← Table.get?_put_eq_update] at htake
    rw [eq]
    exact htake
  | dropped present idle stopped eq =>
    -- A renewal that is dropped at once leaves the entry as idle as it was.
    have hfree : c.store.lease? r = some .idle := Option.map_eq_some_iff.mpr ⟨_, present, idle⟩
    have htaken : (c.taken r).store.lease? = Function.update c.store.lease? r (some q.word) :=
      lease?_setLease hfree q.word
    have hheld : (c.taken r).store.lease? r = some q.word := by rw [htaken, Function.update_self]
    have hreleased := lease?_releaseLease hheld q.token
    rw [Renewal.word, LeaseWord.release_pack, htaken, Function.update_idem, ← hfree,
      Function.update_eq_self] at hreleased
    rw [LeasesHeld, ← hreleased] at h
    rw [eq]
    exact h

theorem LeasesHeld.renewIfDue (h : c.LeasesHeld) (k : κ) (outcome : Option (Outcome ν ε ω))
    (now : Instant) : (c.renewIfDue k outcome now).cache.LeasesHeld := by
  cases c.tended_renewIfDue k outcome now with
  | kept eq =>
    rw [eq]
    exact h
  | renewed resolved due eq =>
    rw [eq]
    exact h.schedule k _

theorem leasesHeld_endRenewal (running : Bool)
    (h : Leased c.store.lease?
      (Function.update c.renewals.get? n (some { q with running := running })) c.nextRenewal)
    (e : RenewalEnd ν ε) : (c.endRenewal n q e).LeasesHeld :=
  leasesHeld_closeRenewal (c := { c with tally := countRenewal c.tally e }) running h

section Reply

variable [DecidableEq κ]

theorem Answered.spares {now : Instant} (h : Answered c q now c') : c.Spares c' := by
  cases h with
  | kept eq =>
    rw [eq]
    exact .refl c
  | swapped swap eq =>
    rw [eq]
    exact spares_withStore (Store.keepsEntries_swapIfSame swap)
  | removed eq =>
    rw [eq]
    exact spares_withStore (Store.sameCells_removeIfSame c.store _ _).keepsEntries

theorem leasesHeld_runStarted
    (h : Leased c.store.lease? (Function.update c.renewals.get? n (some { q with running := true }))
      c.nextRenewal) (asked : Bool) (now : Instant) (reply : Reply ν ε) :
    (c.runStarted n q asked now reply).cache.LeasesHeld := by
  cases c.loaded_runStarted n q asked now reply with
  | pending eq =>
    rw [← Table.get?_put_eq_update] at h
    rw [eq]
    exact h
  | ended answered eq =>
    have hspares := answered.spares
    rw [eq]
    refine leasesHeld_endRenewal true ?_ _
    rw [hspares.renewals_eq, hspares.next_eq]
    exact hspares.leased h

theorem LeasesHeld.startLease (h : c.LeasesHeld) (hq : c.renewals.get? n = some q)
    (hstart : c.startLease q = some c') :
    Leased c'.store.lease? (Function.update c'.renewals.get? n (some { q with running := true }))
      c'.nextRenewal := by
  obtain ⟨-, -, rfl⟩ := startLease_eq_some_iff.mp hstart
  rw [lease?_setLease (h.held hq)]
  exact h.move (p := { q with running := true }) hq rfl

theorem LeasesHeld.runRenewal (h : c.LeasesHeld) {now : Instant} {reply : Reply ν ε}
    {run : RenewalRun ι κ ν ε ω} (hrun : c.runRenewal n now reply = some run) :
    run.cache.LeasesHeld := by
  obtain ⟨q, hq, resumed⟩ := resumed_runRenewal hrun
  have hheld : ∀ running, q.running = running → Leased c.store.lease?
      (Function.update c.renewals.get? n (some { q with running := running })) c.nextRenewal := by
    rintro running rfl
    have hsame : { q with running := q.running } = q := rfl
    rw [hsame, update_of_eq_some hq]
    exact h
  cases resumed with
  | further running eq =>
    rw [eq]
    exact leasesHeld_runStarted (hheld true running) false now reply
  | started waiting started eq =>
    rw [eq]
    exact leasesHeld_runStarted (h.startLease hq started) true now reply
  | stale waiting stale eq =>
    rw [eq]
    exact leasesHeld_endRenewal false (hheld false waiting) _

theorem spares_discard (c : Cache ι κ ν ε ω) (k : κ) : c.Spares (c.discard k).2 :=
  spares_withStore (Store.sameCells_remove c.store k).keepsEntries

theorem LeasesHeld.change (h : c.LeasesHeld) {k : κ} {now : Instant} {s : Scheduling ι κ ν ε ω}
    (hs : c.change k now = some s) : s.cache.LeasesHeld := by
  cases reacted_change hs with
  | missing missing eq =>
    rw [eq]
    exact h
  | renewed live due eq =>
    rw [eq]
    exact h.schedule k _
  | removed live early eq =>
    rw [eq]
    exact (spares_discard c k).leasesHeld h

variable [DecidableEq ι]

theorem spares_dropCall (c : Cache ι κ ν ε ω) (id : ι) : c.Spares (c.dropCall id).2 :=
  ⟨c.session.keepsEntries_drop id, rfl, rfl⟩

theorem spares_endCall (c : Cache ι κ ν ε ω) (id : ι) (outcome : Option (Outcome ν ε ω)) :
    c.Spares (c.endCall id outcome).2 := by
  rcases c.endCall_cases id outcome with eq | eq
  · rw [eq]
    exact .refl c
  · rw [eq]
    exact c.spares_dropCall id

variable [DecidableEq ω]

theorem LeasesHeld.pollCall (h : c.LeasesHeld) (id : ι) (call : Call κ ε ω) (now : Instant)
    (waker : ω) (reply : Reply ν ε) :
    (c.pollCall id call now waker reply).cache.LeasesHeld := by
  have hpolled : c.Spares (c.polled id call now waker reply) :=
    ⟨c.session.keepsEntries_pollCall id call now waker ⟨none, reply⟩, rfl, rfl⟩
  have hupkeep : (c.lookedAfter id call now waker reply).LeasesHeld :=
    (hpolled.leasesHeld h).renewIfDue _ _ _
  rw [cache_pollCall]
  exact (spares_endCall _ id _).leasesHeld hupkeep

/-- Every event leaves each renewal with the lease of its entry, and each lease with a renewal. -/
theorem Effect.leasesHeld {now : Instant} {e : CacheEvent ι κ ν ε ω} {woken : List ω}
    (heffect : Effect c now e woken c') (h : c.LeasesHeld) : c'.LeasesHeld := by
  cases heffect with
  | get id k waker reply =>
    have hbegun : (c.beginGet id).LeasesHeld := (c.spares_dropCall id).leasesHeld h
    exact hbegun.pollCall id (.start k) now waker reply
  | @poll id call waker reply present => exact h.pollCall id call now waker reply
  | absent => exact h
  | drop id => exact (c.spares_dropCall id).leasesHeld h
  | change reaction => exact h.change reaction
  | discard k => exact (c.spares_discard k).leasesHeld h
  | clear => exact (spares_withStore (Store.sameCells_clear c.store).keepsEntries).leasesHeld h
  | runRenewal outstanding => exact h.runRenewal outstanding
  | @dropRenewal n q outstanding =>
    refine leasesHeld_closeRenewal q.running ?_
    have hq : { q with running := q.running } = q := rfl
    rw [hq, update_of_eq_some outstanding]
    exact h
  | setExecutor => exact h
  | nothing => exact h

end Reply

end Operations

section Consequences

variable {c : Cache ι κ ν ε ω} {n : Nat} {q : Renewal κ ν} {r : Ref (Entry ν)} {e : Entry ν}

theorem LeasesHeld.lease_eq (h : c.LeasesHeld) (he : c.store.entryAt? r = some e)
    (hq : c.renewals.get? n = some q) (hr : q.entry = r) : e.lease = q.word := by
  have hheld := h.held hq
  rw [hr, Store.lease?, he] at hheld
  exact Option.some.inj hheld

theorem LeasesHeld.exists_renewal (h : c.LeasesHeld) (he : c.store.entryAt? r = some e)
    (hne : e.lease ≠ .idle) : ∃ n q, c.renewals.get? n = some q ∧ q.entry = r :=
  h.owned (Option.map_eq_some_iff.mpr ⟨e, he, rfl⟩) hne

/-- An entry is idle, or held by the one renewal that it has. -/
theorem LeasesHeld.lease_ne_idle_iff (h : c.LeasesHeld) (he : c.store.entryAt? r = some e) :
    e.lease ≠ .idle ↔ ∃! n, ∃ q, c.renewals.get? n = some q ∧ q.entry = r := by
  constructor
  · intro hne
    obtain ⟨n, q, hq, hr⟩ := h.exists_renewal he hne
    refine ⟨n, ⟨q, hq, hr⟩, ?_⟩
    rintro m ⟨p, hp, hr'⟩
    exact h.sole hp hq (hr'.trans hr.symm)
  · rintro ⟨n, ⟨q, hq, hr⟩, -⟩
    rw [h.lease_eq he hq hr]
    exact LeaseWord.pack_ne_idle _ _

theorem LeasesHeld.stage_eq_iff (h : c.LeasesHeld) (he : c.store.entryAt? r = some e)
    (running : Bool) :
    e.stage = (if running then .running else .scheduled) ↔
      ∃ n q, c.renewals.get? n = some q ∧ q.entry = r ∧ q.running = running := by
  have hstage : ∀ {n q}, c.renewals.get? n = some q → q.entry = r →
      e.stage = if q.running then .running else .scheduled := by
    intro n q hq hr
    rw [Entry.stage, h.lease_eq he hq hr, Renewal.word, LeaseWord.stage_pack]
  constructor
  · intro hs
    have hne : e.lease ≠ .idle := by
      intro hidle
      rw [Entry.stage, hidle, LeaseWord.stage_idle] at hs
      cases running <;> cases hs
    obtain ⟨n, q, hq, hr⟩ := h.exists_renewal he hne
    refine ⟨n, q, hq, hr, ?_⟩
    rw [hstage hq hr] at hs
    cases hrun : q.running <;> cases running <;> simp_all
  · rintro ⟨n, q, hq, hr, rfl⟩
    exact hstage hq hr

/-- A renewal that has not started yet can start its lease if its entry is still stored, and only
then. -/
theorem LeasesHeld.startLease_eq [DecidableEq κ] (h : c.LeasesHeld)
    (hq : c.renewals.get? n = some q) (waiting : q.running = false) :
    c.startLease q = if c.store.holds q.key q.entry then
      some (c.setLease q.entry (.pack q.token .running)) else none := by
  obtain ⟨e, he, hlease⟩ := Option.map_eq_some_iff.mp (h.held hq)
  rw [Renewal.word, waiting] at hlease
  rw [Cache.startLease, he, Option.bind_some, LeaseWord.start_eq_some_iff.mpr ⟨hlease, rfl⟩,
    Option.map_some]

theorem LeasesHeld.asked_runRenewal [DecidableEq κ] (h : c.LeasesHeld)
    (hq : c.renewals.get? n = some q) (waiting : q.running = false) (now : Instant)
    (reply : Reply ν ε) :
    ∃ run, c.runRenewal n now reply = some run ∧ run.asked = c.store.holds q.key q.entry := by
  have hstart := h.startLease_eq hq waiting
  rw [Cache.runRenewal, hq]
  refine ⟨_, rfl, ?_⟩
  simp only [waiting, hstart, Bool.false_eq_true, ↓reduceIte]
  cases c.store.holds q.key q.entry with
  | false => rfl
  | true => cases reply <;> rfl

/-- Renewals and the leases of the entries, as anybody sees them who looks at the cache. An entry is
not idle exactly if one renewal outstanding is for it, and its word tells the token of that renewal
and how far it is. -/
structure OneRenewalPerEntry [DecidableEq κ] (c : Cache ι κ ν ε ω) : Prop where
  held_iff : ∀ r e, c.store.entryAt? r = some e →
    (e.lease ≠ .idle ↔ ∃! n, ∃ q, c.renewals.get? n = some q ∧ q.entry = r)
  word_eq : ∀ n q e, c.renewals.get? n = some q → c.store.entryAt? q.entry = some e →
    e.lease = .pack q.token (if q.running then .running else .scheduled)
  scheduled_iff : ∀ r e, c.store.entryAt? r = some e → (e.stage = .scheduled ↔
    ∃ n q, c.renewals.get? n = some q ∧ q.entry = r ∧ q.running = false)
  running_iff : ∀ r e, c.store.entryAt? r = some e → (e.stage = .running ↔
    ∃ n q, c.renewals.get? n = some q ∧ q.entry = r ∧ q.running = true)
  sole : ∀ m n p q, c.renewals.get? m = some p → c.renewals.get? n = some q →
    p.entry = q.entry → m = n
  starts : ∀ n q now reply, c.renewals.get? n = some q → q.running = false →
    ∃ run, c.runRenewal n now reply = some run ∧ run.asked = c.store.holds q.key q.entry
  all_idle : c.renewals.toList = [] → ∀ r e, c.store.entryAt? r = some e → e.lease = .idle

end Consequences

section Runs

variable [DecidableEq ι] [DecidableEq κ] [DecidableEq ω] (o : Origin κ)
  (events : List (CacheEvent ι κ ν ε ω))

omit [DecidableEq ι] [DecidableEq κ] [DecidableEq ω] in
theorem leasesHeld_start : (o.start (ι := ι) (ν := ν) (ε := ε) (ω := ω)).state.LeasesHeld := by
  have hempty : ∀ r, (o.start (ι := ι) (ν := ν) (ε := ε) (ω := ω)).state.store.lease? r = none := by
    intro r
    rw [Store.lease?, Store.entryAt?]
    exact congrArg (Option.map _) (Arena.get?_empty r)
  constructor
  case numbered => intro n q hq; cases hq
  case held => intro n q hq; cases hq
  case sole => intro m n p q hp; cases hp
  case owned =>
    intro r w hw
    rw [hempty] at hw
    cases hw

theorem leasesHeld_run : (events.foldl step o.start).state.LeasesHeld := by
  induction events using List.reverseRecOn with
  | nil => exact leasesHeld_start o
  | append_singleton events e ih =>
    rw [List.foldl_append]
    exact (effect_perform _ e).leasesHeld ih

/-- Whatever happens to a cache, each entry has at most one renewal outstanding, and is held exactly
as long as that one is. -/
theorem one_renewal_per_entry : OneRenewalPerEntry (events.foldl step o.start).state := by
  have h := leasesHeld_run o events
  constructor
  case held_iff =>
    intro r e he
    exact h.lease_ne_idle_iff he
  case word_eq =>
    intro n q e hq he
    exact h.lease_eq he hq rfl
  case scheduled_iff =>
    intro r e he
    exact h.stage_eq_iff he false
  case running_iff =>
    intro r e he
    exact h.stage_eq_iff he true
  case sole =>
    intro m n p q hp hq hentry
    exact h.sole hp hq hentry
  case starts =>
    intro n q now reply hq waiting
    exact h.asked_runRenewal hq waiting now reply
  case all_idle =>
    intro hnone r e he
    by_contra hne
    obtain ⟨n, q, hq, -⟩ := h.exists_renewal he hne
    rw [Table.get?_eq_some_iff, hnone] at hq
    cases hq

end Runs

end ReadThrough.Cache
