import ReadThrough.Proofs.Cache.Beginnings

/-!
# The order in which answers replace each other

What is stored for a key has been asked for later than whatever was stored for it before. There is
one exception. An entry can expire while a renewal of it is outstanding. A load that begins then may
be overtaken by the renewal, and puts its answer in place of the one that the renewal has brought.
-/

namespace ReadThrough.Cache

variable {ι κ ν ε ω : Type} [DecidableEq ι] [DecidableEq κ] [DecidableEq ω]

/-- The entry that is stored for `k` has a renewal outstanding. -/
def Renewing (c : Cache ι κ ν ε ω) (k : κ) : Prop :=
  ∃ n p, c.renewals.get? n = some p ∧ c.store.slot? k = some p.entry

/-- Nothing live is stored for `k`, and what is stored is not being renewed. -/
structure Dormant (k : κ) (t : Clocked (Cache ι κ ν ε ω)) : Prop where
  missing : t.state.store.live? k t.now = none
  unrenewed : ¬ t.state.Renewing k

/-- The load for `k` begins while a renewal of the expired entry of `k` is outstanding. -/
structure BeginsAmidRenewal (k : κ) (f : Ref (Flight ε ω)) (t : Clocked (Cache ι κ ν ε ω))
    (e : CacheEvent ι κ ν ε ω) : Prop where
  begins : Begins k (.load f) t e
  expired : t.state.store.live? k t.now = none
  renewing : t.state.Renewing k

section Steps

variable {t : Clocked (Cache ι κ ν ε ω)} {e : CacheEvent ι κ ν ε ω} {k : κ} {r : Ref (Entry ν)}
  {f : Ref (Flight ε ω)} {v : Option ν} {time : Instant} {n : Nat} {i : ι}

theorem Begins.missing (hs : t.state.session.Orderly) (h : Begins k (.load f) t e) :
    t.state.store.live? k t.now = none := by
  cases h with
  | @get _ id waker reply asked =>
    have hpolled := polled_store (orderly_beginGet hs id) (.start k) t.now waker reply
    have hmissing := (hpolled.asked ((asked_pollCall _ id (.start k)).symm.trans asked)).1
    rw [(t.state.sameTables_beginGet id).live?_eq] at hmissing
    exact hmissing
  | @poll _ id call waker reply present key asked =>
    have hpolled := polled_store hs call t.now waker reply
    rw [asked_pollCall] at asked
    rw [← key]
    exact (hpolled.asked asked).1

theorem Brings.stored (hleases : t.state.LeasesHeld) (hsound : t.state.store.Sound)
    (h : Brings k r (.renewal n) v time t e) :
    ∃ p, t.state.renewals.get? n = some p ∧ t.state.store.slot? k = some p.entry := by
  cases h with
  | @renewal _ _ p reply run d v outstanding key result ended answer =>
    refine ⟨p, outstanding, ?_⟩
    cases applied_runRenewal hleases hsound outstanding result with
    | kept _ _ others => exact absurd ended (others r)
    | removed _ _ ended' => cases ended.symm.trans ended'
    | replaced answer complete =>
      subst answer
      rw [← key]
      exact of_decide_eq_true complete.1

theorem Brings.not_leads (hs : t.state.session.Orderly) {g : Ref (Flight ε ω)}
    (h : Brings k r (.load g) v time t e) : ¬ (step t e).state.session.Leads i k f := by
  cases h with
  | @get _ id waker reply d v loaded answer =>
    exact not_leads_of_loaded (orderly_beginGet hs id) (admits_beginGet t.state id k) loaded
  | @poll _ id call waker reply d v g present key loaded answer led =>
    rw [step_poll present, ← key]
    exact not_leads_of_loaded hs (.present present) loaded

/-- While the entry of a key is dormant and a load for the key is under way, nothing is brought. -/
theorem Dormant.not_brings (h : Dormant k t) (hs : t.state.session.Orderly)
    (hleases : t.state.LeasesHeld) (hsound : t.state.store.Sound)
    (leads : (step t e).state.session.Leads i k f) : ¬ BringsAny k r v time t e := by
  rintro ⟨q, hbrings⟩
  cases q with
  | load g => exact hbrings.not_leads hs leads
  | renewal n =>
    obtain ⟨p, hp, hstored⟩ := hbrings.stored hleases hsound
    exact h.unrenewed ⟨n, p, hp, hstored⟩

end Steps

section Runs

variable {o : Origin κ} {events : List (CacheEvent ι κ ν ε ω)} {e : CacheEvent ι κ ν ε ω}
  {k : κ} {i : ι} {f : Ref (Flight ε ω)} {q q' : Query ε ω} {r r' : Ref (Entry ν)} {v v' : Option ν}
  {time time' : Instant} {m n s s' : Nat}

/-- Only what is brought ends the dormancy of a key. -/
theorem dormant_step (h : Dormant k (events.foldl step o.start))
    (unbrought : ∀ r v time, ¬ BringsAny k r v time (events.foldl step o.start) e) :
    Dormant k (step (events.foldl step o.start) e) := by
  have hhistory := history_step (ι := ι) (ν := ν) (ε := ε) (ω := ω) o
  have hsound := sound_run o events
  have hback : ∀ {r}, (step (events.foldl step o.start) e).state.store.slot? k = some r →
      (events.foldl step o.start).state.store.slot? k = some r := by
    intro r hr
    rcases hhistory.slot?_step hr with hr | ⟨v, time, hbrings⟩
    · exact hr
    · exact absurd hbrings (unbrought r v time)
  constructor
  case missing =>
    refine Option.eq_none_iff_forall_ne_some.mpr fun r hr => ?_
    rcases hhistory.live?_step hr with live | ⟨v, time, hbrings⟩
    · cases h.missing.symm.trans live
    · exact unbrought r v time hbrings
  case unrenewed =>
    rintro ⟨n, p, hp, hslot⟩
    have hstored := hback hslot
    cases outstanding_step (settled_run o events).1 hsound hp with
    | kept before => exact h.unrenewed ⟨n, p, before, hstored⟩
    | @started q before _ entry => exact h.unrenewed ⟨n, q, before, entry ▸ hstored⟩
    | scheduled _ _ entry =>
      rcases entry with live | new
      · have hslot' := (Option.filter_eq_some_iff.mp live).1
        rw [hsound.single hslot' hstored, h.missing] at live
        cases live
      · obtain ⟨x, hx⟩ := hsound.present hstored
        cases new.symm.trans hx

/-- A load for a key that is not dormant has begun amid a renewal. -/
theorem begins_amid_renewal (leads : (stateAt step o.start events n).state.session.Leads i k f)
    (awake : ¬ Dormant k (stateAt step o.start events n)) :
    ∃ m < n, OccursAt step o.start events m (BeginsAmidRenewal k f) := by
  refine exists_occursAt (motive := fun t : Clocked (Cache ι κ ν ε ω) =>
    t.state.session.Leads i k f ∧ ¬ Dormant k t) ?_ ?_ ⟨leads, awake⟩
  · rintro ⟨hleads, -⟩
    cases hleads
  · rintro n e ⟨hleads, hawake⟩
    have hs := (settled_run o (events.take n)).1
    have hstill : ¬ Dormant k (stateAt step o.start events n) := fun h =>
      hawake (dormant_step h fun r v time =>
        h.not_brings hs (leasesHeld_run o _) (sound_run o _) hleads)
    rcases leads_step hs hleads with hleads | hbegins
    · exact .inl ⟨hleads, hstill⟩
    · have hmissing := hbegins.missing hs
      refine .inr ⟨hbegins, hmissing, ?_⟩
      by_contra hunrenewed
      exact hstill ⟨hmissing, hunrenewed⟩

section Beginnings

theorem Brings.leads_or_begins {t : Clocked (Cache ι κ ν ε ω)} (hs : t.state.session.Orderly)
    (h : Brings k r (.load f) v time t e) :
    (∃ i, t.state.session.Leads i k f) ∨ Begins k (.load f) t e := by
  cases h with
  | @get _ id waker reply d v loaded answer =>
    have hloaded : ((t.state.beginGet id).pollCall id (.start k) t.now waker reply).outcome =
        some (.loaded r) := loaded
    rcases led_or_asked_of_loaded (orderly_beginGet hs id) hloaded with ⟨g, hg⟩ | hasked
    · cases hg
    · exact .inr (.get hasked)
  | @poll _ id call waker reply d v f present key loaded answer led =>
    rcases led with hled | ⟨hasked, rfl⟩
    · left
      refine ⟨id, ?_⟩
      rw [Phase.led?_eq_some_iff] at hled
      rw [Session.Leads, present, ← key, ← hled]
    · exact .inr (.poll present key hasked)

omit [DecidableEq ι] [DecidableEq ω] in
theorem running_or_asked_of_renewed {c : Cache ι κ ν ε ω} {p : Renewal κ ν} {now : Instant}
    {reply : Reply ν ε} {run : RenewalRun ι κ ν ε ω} (outstanding : c.renewals.get? n = some p)
    (result : c.runRenewal n now reply = some run) (ended : run.ended = some (.renewed r)) :
    p.running = true ∨ run.asked = true := by
  rw [runRenewal, outstanding, Option.map_some] at result
  cases result
  by_cases running : p.running = true
  · exact .inl running
  · right
    rw [if_neg running] at ended ⊢
    split at ended
    · exact asked_runStarted _ n p true now reply
    · cases ended

theorem exists_begins (brought : OccursAt step o.start events s (Brings k r q v time)) :
    ∃ m ≤ s, OccursAt step o.start events m (Begins k q) := by
  obtain ⟨e, he, hbrings⟩ := brought
  have hearlier : (∃ m < s, OccursAt step o.start events m (Begins k q)) →
      ∃ m ≤ s, OccursAt step o.start events m (Begins k q) := by
    rintro ⟨m, hm, hbegins⟩
    exact ⟨m, Nat.le_of_lt hm, hbegins⟩
  cases q with
  | load f =>
    rcases hbrings.leads_or_begins (settled_run o _).1 with ⟨i, hleads⟩ | hbegins
    · exact hearlier (begins_of_leads hleads)
    · exact ⟨s, Nat.le_refl s, e, he, hbegins⟩
  | renewal number =>
    cases hbrings with
    | renewal outstanding key result ended answer =>
      rcases running_or_asked_of_renewed outstanding result ended with running | hasked
      · exact hearlier (key ▸ begins_of_running outstanding running)
      · exact ⟨s, Nat.le_refl s, _, he, .run outstanding key result hasked⟩

theorem begins_le (brought : OccursAt step o.start events s (Brings k r q v time))
    (begun : OccursAt step o.start events m (Begins k q)) : m ≤ s := by
  obtain ⟨m', hm', hbegins⟩ := exists_begins brought
  rwa [begins_once begun hbegins]

end Beginnings

section Order

/-- A renewal begins after whatever has been brought before it ends. -/
theorem lt_begins_of_renewal {number : Nat} (lt : s' < s)
    (brought' : OccursAt step o.start events s' (Brings k r' q' v' time'))
    (brought : OccursAt step o.start events s (Brings k r (.renewal number) v time))
    (begun : OccursAt step o.start events n (Begins k (.renewal number))) : s' < n := by
  have hhistory := history_step (ι := ι) (ν := ν) (ε := ε) (ω := ω) o
  have hbrought : OccursAt step o.start events s' (BringsAny k r' v' time') :=
    brought'.imp fun h => ⟨q', h⟩
  by_contra hle
  obtain ⟨e, he, hbrings⟩ := brought
  obtain ⟨p, hp, hslot⟩ := hbrings.stored (leasesHeld_run o _) (sound_run o _)
  -- The entry that is renewed has been there since the renewal began.
  have hentry : ∃ x, (stateAt step o.start events n).state.store.contents? p.entry = some x := by
    obtain ⟨e', he', hbegins⟩ := begun
    cases hbegins with
    | run outstanding =>
      have hnumber := (leasesHeld_run o (events.take n)).numbered outstanding
      obtain ⟨after, hafter⟩ := History.exists_take_append events
        (Nat.le_trans (Nat.le_of_not_lt hle) (Nat.le_of_lt lt))
      rw [hafter] at hp
      obtain ⟨x, hx⟩ := exists_entry_of_scheduled o hp hnumber
      exact ⟨_, Option.map_eq_some_iff.mpr ⟨x, hx, rfl⟩⟩
  obtain ⟨x, hx⟩ := hentry
  obtain ⟨y, hy⟩ := hhistory.exists_contents_at (Nat.le_of_not_lt hle) hx
  obtain ⟨z, hz⟩ := hhistory.exists_contents_at (Nat.le_succ s') hy
  have hsame := hhistory.eq_of_brought hbrought lt hslot hz
  rw [hsame] at hy
  exact Nat.lt_irrefl s' (hhistory.brought_lt hbrought hy)

/-- A load begins after whatever has been brought before it ends, unless it has begun amid a
renewal. -/
theorem lt_begins_of_load (lt : s' < s)
    (brought' : OccursAt step o.start events s' (Brings k r' q' v' time'))
    (brought : OccursAt step o.start events s (Brings k r (.load f) v time))
    (begun : OccursAt step o.start events n (Begins k (.load f))) :
    s' < n ∨ (∃ number, q' = .renewal number) ∧
      OccursAt step o.start events n (BeginsAmidRenewal k f) := by
  by_cases hn : s' < n
  · exact .inl hn
  · right
    obtain ⟨e, he, hbrings⟩ := brought
    obtain ⟨e', he', hbrings'⟩ := brought'
    have hleads : ∃ i, (stateAt step o.start events s).state.session.Leads i k f := by
      refine (hbrings.leads_or_begins (settled_run o _).1).resolve_right fun hbegins => ?_
      have hsame := begins_once begun ⟨e, he, hbegins⟩
      omega
    obtain ⟨i, hleads⟩ := hleads
    have hled : ∀ {j : Nat}, n < j → j ≤ s →
        (stateAt step o.start events j).state.session.Leads i k f := by
      intro j hj hjs
      obtain ⟨d, rfl⟩ := Nat.exists_eq_add_of_le hjs
      exact leads_since begun hj hleads
    cases q' with
    | load g =>
      have hafter := hled (Nat.lt_succ_of_le (Nat.le_of_not_lt hn)) lt
      rw [stateAt_succ he'] at hafter
      exact absurd hafter (hbrings'.not_leads (settled_run o _).1)
    | renewal number =>
      have hne : n ≠ s' := by
        rintro rfl
        obtain ⟨a, ha, hbegins⟩ := begun
        cases ha.symm.trans he'
        cases hbrings'
        cases hbegins
      have hbefore := hled (Nat.lt_of_le_of_ne (Nat.le_of_not_lt hn) hne) (Nat.le_of_lt lt)
      have hawake : ¬ Dormant k (stateAt step o.start events s') := by
        intro hdormant
        obtain ⟨p, hp, hstored⟩ := hbrings'.stored (leasesHeld_run o _) (sound_run o _)
        exact hdormant.unrenewed ⟨number, p, hp, hstored⟩
      obtain ⟨m, -, hamid⟩ := begins_amid_renewal hbefore hawake
      have hsame : n = m := begins_once begun (hamid.imp (·.begins))
      exact ⟨⟨number, rfl⟩, hsame ▸ hamid⟩

end Order

/-- The query `q` for `k` has begun at position `n`, and its answer is stored as `r` at position
`s`. -/
structure Answers (start : Clocked (Cache ι κ ν ε ω)) (events : List (CacheEvent ι κ ν ε ω))
    (k : κ) (r : Ref (Entry ν)) (q : Query ε ω) (n s : Nat) : Prop where
  begun : OccursAt step start events n (Begins k q)
  brought : ∃ v time, OccursAt step start events s (Brings k r q v time)

/-- In this run answers replace each other in the order in which they have been asked for. Only a
load that has begun amid a renewal may replace what a renewal has brought that began later. -/
structure InOrder (start : Clocked (Cache ι κ ν ε ω)) (events : List (CacheEvent ι κ ν ε ω)) :
    Prop where
  asked : ∀ k r q v time s, OccursAt step start events s (Brings k r q v time) →
    ∃ n ≤ s, Answers start events k r q n s
  once : ∀ j k q m n, OccursAt step start events m (Begins j q) →
    OccursAt step start events n (Begins k q) → m = n
  ordered : ∀ k r' r q' q m n s' s, s' < s → Answers start events k r' q' m s' →
    Answers start events k r q n s → m < n ∨ ∃ f number, q = .load f ∧ q' = .renewal number ∧
      OccursAt step start events n (BeginsAmidRenewal k f)
  stored : ∀ i j k r' r, i ≤ j → (stateAt step start events i).state.store.slot? k = some r' →
    (stateAt step start events j).state.store.slot? k = some r → r' ≠ r →
      ∃ q' q m n s' s, Answers start events k r' q' m s' ∧ Answers start events k r q n s ∧ s' < s

/-- In every run of a cache, answers replace each other in order. -/
theorem answers_in_order (o : Origin κ) (events : List (CacheEvent ι κ ν ε ω)) :
    InOrder o.start events := by
  have hhistory := history_step (ι := ι) (ν := ν) (ε := ε) (ω := ω) o
  have hasked : ∀ k r q v time s, OccursAt step o.start events s (Brings k r q v time) →
      ∃ n ≤ s, Answers o.start events k r q n s := by
    intro k r q v time s hbrought
    obtain ⟨n, hn, hbegun⟩ := exists_begins hbrought
    exact ⟨n, hn, hbegun, v, time, hbrought⟩
  constructor
  case asked => exact hasked
  case once =>
    intro j k q m n hm hn
    exact begins_once hm hn
  case ordered =>
    rintro k r' r q' q m n s' s hlt ⟨hbegun', v', time', hbrought'⟩ ⟨hbegun, v, time, hbrought⟩
    have hm := begins_le hbrought' hbegun'
    cases q with
    | renewal number =>
      exact .inl (Nat.lt_of_le_of_lt hm (lt_begins_of_renewal hlt hbrought' hbrought hbegun))
    | load f =>
      rcases lt_begins_of_load hlt hbrought' hbrought hbegun with hn | ⟨⟨number, rfl⟩, hamid⟩
      · exact .inl (Nat.lt_of_le_of_lt hm hn)
      · exact .inr ⟨f, number, rfl, rfl, hamid⟩
  case stored =>
    intro i j k r' r hij hr' hr hne
    have hbrought : ∀ {i r}, (stateAt step o.start events i).state.store.slot? k = some r →
        ∃ q v time s, OccursAt step o.start events s (Brings k r q v time) := by
      intro i r hr
      obtain ⟨x, hx⟩ := hhistory.exists_contents hr
      obtain ⟨s, -, e, he, q, hbrings⟩ := (hhistory.occurs_brings hr hx).exists_at
      exact ⟨q, x.value, x.created, s, e, he, hbrings⟩
    obtain ⟨q', v', time', s', hbrought'⟩ := hbrought hr'
    obtain ⟨q, v, time, s, hbrought⟩ := hbrought hr
    obtain ⟨m, -, hanswers'⟩ := hasked _ _ _ _ _ _ hbrought'
    obtain ⟨n, -, hanswers⟩ := hasked _ _ _ _ _ _ hbrought
    refine ⟨q', q, m, n, s', s, hanswers', hanswers, ?_⟩
    exact hhistory.brought_in_order hij hr' hr hne (hbrought'.imp fun h => ⟨q', h⟩)
      (hbrought.imp fun h => ⟨q, h⟩)

end Runs

section Overtaken

/-- Whatever takes the place of an entry has been asked for no earlier than that entry. -/
def NeverMovesBack (start : Clocked (Cache ι κ ν ε ω)) (events : List (CacheEvent ι κ ν ε ω)) :
    Prop :=
  ∀ k r' r q' q m n s' s, (stateAt step start events s).state.store.slot? k = some r' →
    Answers start events k r' q' m s' → Answers start events k r q n s → m ≤ n

/-- Entries live for four seconds. -/
def overtakenOrigin : Origin Nat where
  name := "overtaken"
  scope := "overtaken"
  policy := .thirdQuarter
  executor := .running
  tokens := .start
  layout := ⟨.ofSeconds 4, 0, 0, none⟩
  hash := UInt64.ofNat
  now := 0

/-- An entry is read while it is due for a renewal, and expires before the renewal runs. A load
begins, then the renewal is run, and then the load has its answer. -/
def overtakenRun : List (CacheEvent Nat Nat Int Nat Nat) :=
  [.get 0 0 0 (.answered 0 (some 1)), .advance 2500000000, .get 0 0 0 .pending,
    .advance 2500000000, .get 1 0 0 .pending, .runRenewal 0 (.answered 0 (some 3)),
    .poll 1 0 (.answered 0 (some 2))]

/-- A load that has been overtaken by a renewal puts an older answer in place of the newer one. -/
theorem overtaken_moves_back : ¬ NeverMovesBack overtakenOrigin.start overtakenRun := by
  have renewed : Answers overtakenOrigin.start overtakenRun 0 ⟨1⟩ (.renewal 0) 5 5 := by
    have hfacts : let t := stateAt step overtakenOrigin.start overtakenRun 5
        t.state.renewals.get? 0 = some ⟨0, ⟨0⟩, overtakenOrigin.tokens.next.1, false⟩ ∧
          (t.state.runRenewal 0 t.now (.answered 0 (some 3))).map (fun run =>
            (run.asked, run.ended)) = some (true, some (.renewed ⟨1⟩)) := by decide +kernel
    obtain ⟨outstanding, hrun⟩ := hfacts
    obtain ⟨run, result, hrun⟩ := Option.map_eq_some_iff.mp hrun
    obtain ⟨asked, ended⟩ := Prod.mk.inj hrun
    exact ⟨⟨_, rfl, .run outstanding rfl result asked⟩,
      _, _, _, rfl, .renewal outstanding rfl result ended rfl⟩
  have loaded : Answers overtakenOrigin.start overtakenRun 0 ⟨2⟩ (.load ⟨1⟩) 4 6 := by
    constructor
    case begun =>
      have hfacts : let t := stateAt step overtakenOrigin.start overtakenRun 4
          (t.state.get 1 0 t.now 0 .pending).asked = true ∧ t.state.store.flights.next = ⟨1⟩ := by
        decide +kernel
      obtain ⟨asked, hnext⟩ := hfacts
      exact ⟨_, rfl, hnext ▸ .get asked⟩
    case brought =>
      have hfacts : let t := stateAt step overtakenOrigin.start overtakenRun 6
          t.state.session.calls.get? 1 = some ⟨0, .loading ⟨1⟩⟩ ∧
            (t.state.pollCall 1 ⟨0, .loading ⟨1⟩⟩ t.now 0 (.answered 0 (some 2))).outcome =
              some (.loaded ⟨2⟩) := by decide +kernel
      obtain ⟨present, houtcome⟩ := hfacts
      exact ⟨_, _, _, rfl, .poll present rfl houtcome rfl (.inl rfl)⟩
  have hslot : (stateAt step overtakenOrigin.start overtakenRun 6).state.store.slot? 0 =
      some ⟨1⟩ := by decide +kernel
  intro h
  have hle : 5 ≤ 4 := h 0 ⟨1⟩ ⟨2⟩ (.renewal 0) (.load ⟨1⟩) 5 4 5 6 hslot renewed loaded
  omega

end Overtaken

end ReadThrough.Cache
