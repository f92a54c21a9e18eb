import Mathlib.Logic.Relation
import ReadThrough.Proofs.Store.Room
import ReadThrough.Proofs.Store.SessionRuns

/-!
# All that can happen to the tables

Whatever an operation does to slots, deadlines and entries is a chain of changes of five kinds. So
what each of these keeps holds of a store in every run: slots and deadlines are in step, the store
fits its capacity, and no entry that has left its slot is ever stored again.
-/

namespace ReadThrough

namespace Store

variable {κ ν ε ω : Type} [DecidableEq κ] {s s' s'' : Store κ ν ε ω}

/-- What an operation can do to the tables of a store. -/
inductive Change (s : Store κ ν ε ω) : Store κ ν ε ω → Prop where
  | flights {s' : Store κ ν ε ω} (same : s.SameTables s') : Change s s'
  | entry (r : Ref (Entry ν)) {f : Entry ν → Entry ν}
      (span : ∀ e, (f e).created = e.created ∧ (f e).expires = e.expires) :
      Change s (s.modifyEntry r f)
  | forget (k : κ) : Change s (s.forget k)
  | clear : Change s s.clear
  | store {k : κ} {value : Option ν} {now : Instant} {e : Entry ν} {x : Store κ ν ε ω}
      (placed : s.Placed k e x) (fresh : Entry.fresh? value now s.timeToLive = some e) :
      Change s (x.recordDeadline k e.expires now).2

def Changes : Store κ ν ε ω → Store κ ν ε ω → Prop := Relation.ReflTransGen Change

/-- A store between operations. -/
structure Sound (s : Store κ ν ε ω) : Prop extends Tidy s where
  within : s.WithinCapacity
  single : ∀ {j k r}, s.slot? j = some r → s.slot? k = some r → j = k
  timed : ∀ {r e}, s.entryAt? r = some e → e.expires = e.created + s.timeToLive.toNanos

/-- Entries stay in existence, and those of `s` that are still stored in `s'` have been stored for
the same key all the time. -/
structure Onward (s s' : Store κ ν ε ω) : Prop extends SameMeasures s s' where
  entries : ∀ {r e}, s.entryAt? r = some e → ∃ e', s'.entryAt? r = some e' ∧ e'.created = e.created
  slots : ∀ {k r e}, s.entryAt? r = some e → s'.slot? k = some r → s.slot? k = some r

theorem Onward.refl (s : Store κ ν ε ω) : s.Onward s :=
  ⟨.refl s, fun he => ⟨_, he, rfl⟩, fun _ hr => hr⟩

theorem Onward.trans (h : s.Onward s') (h' : s'.Onward s'') : s.Onward s'' where
  toSameMeasures := h.toSameMeasures.trans h'.toSameMeasures
  entries he := by
    obtain ⟨e', he', hcreated⟩ := h.entries he
    obtain ⟨e'', he'', hcreated'⟩ := h'.entries he'
    exact ⟨e'', he'', hcreated'.trans hcreated⟩
  slots he hr := by
    obtain ⟨e', he', -⟩ := h.entries he
    exact h.slots he (h'.slots he' hr)

/-- No slot comes in, and entries stay what they are but for accesses and leases. -/
structure Narrows (s s' : Store κ ν ε ω) : Prop extends SameMeasures s s' where
  slot? : ∀ {k r}, s'.slot? k = some r → s.slot? k = some r
  entryAt? : ∀ r, (s'.entryAt? r).map (fun e => (e.created, e.expires)) =
    (s.entryAt? r).map fun e => (e.created, e.expires)

namespace Narrows

theorem entryAt?_eq_some (h : s.Narrows s') {r : Ref (Entry ν)} {e : Entry ν}
    (he : s.entryAt? r = some e) :
    ∃ e', s'.entryAt? r = some e' ∧ e'.created = e.created ∧ e'.expires = e.expires := by
  have hspan := h.entryAt? r
  rw [he, Option.map_some] at hspan
  obtain ⟨e', he', hspan⟩ := Option.map_eq_some_iff.mp hspan
  obtain ⟨hcreated, hexpires⟩ := Prod.mk.inj hspan
  exact ⟨e', he', hcreated, hexpires⟩

theorem of_entryAt?_eq_some (h : s.Narrows s') {r : Ref (Entry ν)} {e' : Entry ν}
    (he' : s'.entryAt? r = some e') :
    ∃ e, s.entryAt? r = some e ∧ e'.created = e.created ∧ e'.expires = e.expires := by
  have hspan := h.entryAt? r
  rw [he', Option.map_some] at hspan
  obtain ⟨e, he, hspan⟩ := Option.map_eq_some_iff.mp hspan.symm
  obtain ⟨hcreated, hexpires⟩ := Prod.mk.inj hspan
  exact ⟨e, he, hcreated.symm, hexpires.symm⟩

theorem onward (h : s.Narrows s') : s.Onward s' where
  toSameMeasures := h.toSameMeasures
  entries he := by
    obtain ⟨e', he', hcreated, -⟩ := h.entryAt?_eq_some he
    exact ⟨e', he', hcreated⟩
  slots _ hr := h.slot? hr

theorem size_le (h : s.Narrows s') (hs : s.AtHome) (hs' : s'.AtHome) : s'.size ≤ s.size := by
  rw [← hs.slots.card_residents, ← hs'.slots.card_residents]
  apply Finset.card_le_card
  intro k hk
  obtain ⟨r, hr⟩ := hs'.slots.mem_residents_iff.mp hk
  exact hs.slots.mem_residents_iff.mpr ⟨r, h.slot? hr⟩

theorem sound (h : s.Narrows s') (hs : s.Sound) (tidy : s'.Tidy) : s'.Sound where
  toTidy := tidy
  within m hm :=
    Nat.le_trans (h.size_le hs.toAtHome tidy.toAtHome) (hs.within m (h.capacity_eq ▸ hm))
  single hj hk := hs.single (h.slot? hj) (h.slot? hk)
  timed he' := by
    obtain ⟨e, he, hcreated, hexpires⟩ := h.of_entryAt?_eq_some he'
    rw [hexpires, hcreated, h.timeToLive_eq, hs.timed he]

end Narrows

theorem narrows_modifyEntry (s : Store κ ν ε ω) (r : Ref (Entry ν)) {f : Entry ν → Entry ν}
    (span : ∀ e, (f e).created = e.created ∧ (f e).expires = e.expires) :
    s.Narrows (s.modifyEntry r f) where
  toSameMeasures := ⟨rfl, rfl, rfl, rfl⟩
  slot? := id
  entryAt? q := by
    rw [entryAt?_modifyEntry]
    split
    · rw [Option.map_map]
      exact congrArg (Option.map · _) (funext fun e => Prod.ext (span e).1 (span e).2)
    · rfl

theorem narrows_forget (s : Store κ ν ε ω) (k : κ) : s.Narrows (s.forget k) where
  toSameMeasures := ⟨rfl, rfl, rfl, rfl⟩
  slot? hr := by
    rw [slot?_forget] at hr
    split at hr
    · cases hr
    · exact hr
  entryAt? _ := rfl

theorem narrows_clear (s : Store κ ν ε ω) : s.Narrows s.clear where
  toSameMeasures := ⟨rfl, rfl, rfl, rfl⟩
  slot? hr := by
    rw [slot?_clear] at hr
    cases hr
  entryAt? _ := rfl

theorem SameTables.narrows (h : s.SameTables s') : s.Narrows s' where
  toSameMeasures := h.toSameMeasures
  slot? {k r} hr := by rw [← h.slot?_eq, hr]
  entryAt? r := by rw [h.entryAt?_eq]

section Storing

variable {x : Store κ ν ε ω} {k : κ} {e : Entry ν} {now : Instant}

/-- What is stored once room has been made is the new entry, or has been stored before. -/
theorem Placed.slot?_made (h : s.Placed k e x) (hs : s.Tidy) {j : κ} {r : Ref (Entry ν)}
    (hr : (x.recordDeadline k e.expires now).2.slot? j = some r) :
    j = k ∧ r = s.entries.next ∨ s.slot? j = some r := by
  obtain ⟨hthinned, -⟩ := h.thinned hs now
  rw [hthinned.slot?_eq] at hr
  split at hr
  · cases hr
  · rw [h.slot?_pruned hs] at hr
    have hx := (Option.filter_eq_some_iff.mp hr).1
    rw [h.slot?_eq] at hx
    split at hx
    · rename_i hj
      cases hx
      exact .inl ⟨hj, rfl⟩
    · exact .inr hx

theorem Placed.entries_made (h : s.Placed k e x) (hs : s.Tidy) :
    (x.recordDeadline k e.expires now).2.entries = s.entries.add e :=
  (h.thinned hs now).1.entries_eq.trans h.entries_eq

theorem Placed.sameMeasures_made (h : s.Placed k e x) (hs : s.Tidy) :
    s.SameMeasures (x.recordDeadline k e.expires now).2 := by
  have hpruned : x.SameMeasures (x.pruned k e.expires now) := ⟨rfl, rfl, rfl, rfl⟩
  exact (h.toSameMeasures.trans hpruned).trans (h.thinned hs now).1.toSameMeasures

theorem Placed.sound (h : s.Placed k e x) (hs : s.Sound) {value : Option ν}
    (fresh : Entry.fresh? value now s.timeToLive = some e) :
    (x.recordDeadline k e.expires now).2.Sound := by
  obtain ⟨hthinned, hwithin⟩ := h.thinned hs.toTidy now
  constructor
  case toTidy => exact hthinned.tidy
  case within => exact hwithin
  case single =>
    intro i j r hi hj
    rcases h.slot?_made hs.toTidy hi with ⟨hik, hr⟩ | hi'
    · rcases h.slot?_made hs.toTidy hj with ⟨hjk, -⟩ | hj'
      · rw [hik, hjk]
      · exact absurd hr (hs.ne_of_new (Arena.get?_next _) hj')
    · rcases h.slot?_made hs.toTidy hj with ⟨-, hr⟩ | hj'
      · exact absurd hr (hs.ne_of_new (Arena.get?_next _) hi')
      · exact hs.single hi' hj'
  case timed =>
    intro r e' he'
    rw [(h.sameMeasures_made hs.toTidy).timeToLive_eq]
    rw [entryAt?, h.entries_made hs.toTidy, Arena.get?_add] at he'
    split at he'
    · cases he'
      obtain ⟨-, rfl⟩ := Entry.fresh?_eq_some_iff.mp fresh
      rfl
    · exact hs.timed he'

theorem Placed.onward (h : s.Placed k e x) (hs : s.Tidy) (now : Instant) :
    s.Onward (x.recordDeadline k e.expires now).2 where
  toSameMeasures := h.sameMeasures_made hs
  entries {r e'} he' := by
    refine ⟨e', ?_, rfl⟩
    rw [entryAt?, h.entries_made hs]
    exact Arena.get?_add_of_eq_some he' e
  slots he hr := by
    rcases h.slot?_made hs hr with ⟨-, rfl⟩ | hr
    · rw [entryAt?, Arena.get?_next] at he
      cases he
    · exact hr

end Storing

theorem Change.sound (h : Change s s') (hs : s.Sound) : s'.Sound := by
  cases h with
  | flights same => exact same.narrows.sound hs (hs.toTidy.sameTables same)
  | entry r span =>
    exact (narrows_modifyEntry s r span).sound hs (hs.toTidy.modifyEntry r fun e => (span e).2)
  | forget k => exact (narrows_forget s k).sound hs (hs.toTidy.forget k)
  | clear => exact s.narrows_clear.sound hs hs.toTidy.clear
  | store placed fresh => exact placed.sound hs fresh

theorem Change.onward (h : Change s s') (hs : s.Sound) : s.Onward s' := by
  cases h with
  | flights same => exact same.narrows.onward
  | entry r span => exact (narrows_modifyEntry s r span).onward
  | forget k => exact (narrows_forget s k).onward
  | clear => exact s.narrows_clear.onward
  | store placed fresh => exact placed.onward hs.toTidy _

theorem Changes.refl (s : Store κ ν ε ω) : s.Changes s := Relation.ReflTransGen.refl

theorem Changes.trans (h : s.Changes s') (h' : s'.Changes s'') : s.Changes s'' :=
  Relation.ReflTransGen.trans h h'

theorem Change.changes (h : Change s s') : s.Changes s' := Relation.ReflTransGen.single h

theorem SameTables.changes (h : s.SameTables s') : s.Changes s' := (Change.flights h).changes

theorem Changes.sound_and_onward (h : s.Changes s') (hs : s.Sound) : s'.Sound ∧ s.Onward s' := by
  induction h with
  | refl => exact ⟨hs, .refl s⟩
  | tail _ change ih => exact ⟨change.sound ih.1, ih.2.trans (change.onward ih.1)⟩

theorem Changes.sound (h : s.Changes s') (hs : s.Sound) : s'.Sound := (h.sound_and_onward hs).1

theorem Changes.onward (h : s.Changes s') (hs : s.Sound) : s.Onward s' := (h.sound_and_onward hs).2

section Operations

theorem changes_modifyEntry (s : Store κ ν ε ω) (r : Ref (Entry ν)) {f : Entry ν → Entry ν}
    (span : ∀ e, (f e).created = e.created ∧ (f e).expires = e.expires) :
    s.Changes (s.modifyEntry r f) :=
  (Change.entry r span).changes

theorem changes_forget (s : Store κ ν ε ω) (k : κ) : s.Changes (s.forget k) :=
  (Change.forget k).changes

theorem changes_remove (s : Store κ ν ε ω) (k : κ) : s.Changes (s.remove k).2 := by
  unfold remove
  split
  · exact changes_forget s k
  · exact .refl s

theorem changes_removeIfSame (s : Store κ ν ε ω) (k : κ) (r : Ref (Entry ν)) :
    s.Changes (s.removeIfSame k r).2 := by
  unfold removeIfSame
  split
  · exact changes_forget s k
  · exact .refl s

theorem swapIfSame_eq_ok {k : κ} {current : Ref (Entry ν)} {value : Option ν} {now : Instant}
    {stored : Stored κ ν ε ω} (h : s.swapIfSame k current value now = .ok stored) :
    s.holds k current = true ∧ ∃ e, Entry.fresh? value now s.timeToLive = some e ∧
      stored = ⟨((s.place k e).recordDeadline k e.expires now).2, s.entries.next,
        ((s.place k e).recordDeadline k e.expires now).1⟩ := by
  unfold swapIfSame at h
  split at h
  · cases h
  · rename_i e hfresh
    split at h
    · rename_i hholds
      cases h
      exact ⟨hholds, e, hfresh, rfl⟩
    · cases h

theorem changes_swapIfSame {k : κ} {current : Ref (Entry ν)} {value : Option ν} {now : Instant}
    {stored : Stored κ ν ε ω} (h : s.swapIfSame k current value now = .ok stored) :
    s.Changes stored.store := by
  obtain ⟨-, e, hfresh, rfl⟩ := swapIfSame_eq_ok h
  exact (Change.store (placed_place s k e) hfresh).changes

theorem changes_swapped (s : Store κ ν ε ω) (k : κ) (current : Ref (Entry ν)) (value : Option ν)
    (now : Instant) : s.Changes (s.swapped k current value now) := by
  unfold swapped
  split
  · exact changes_swapIfSame ‹_›
  · exact .refl s

theorem sameTables_abandon (s : Store κ ν ε ω) (c : Call κ ε ω) :
    s.SameTables (s.abandon c).2 := by
  unfold abandon
  split
  · exact sameTables_concludeFlight s _ _ _
  · exact .refl s

variable [DecidableEq ω] {now : Instant} {waker : ω} {source : Source ν ε} {c : Call κ ε ω}
  {p : Progress κ ν ε ω}

theorem Pass.changes (h : Pass s now waker source c p) : s.Changes p.store := by
  cases h with
  | hit => exact changes_modifyEntry s _ fun _ => ⟨rfl, rfl⟩
  | lead => exact (sameTables_register s _).changes
  | refuse => exact (sameTables_register s _).changes
  | unarmed => exact (sameTables_register s _).changes
  | wait => exact (sameTables_withFlights s _).changes
  | land _ fresh => exact (Change.store (placed_placeAndLand s _ _ _) fresh).changes
  | fail => exact (sameTables_concludeFlight s _ _ _).changes
  | _ => exact .refl s

theorem changes_passes (n : Nat) (s : Store κ ν ε ω) (c : Call κ ε ω) (now : Instant) (waker : ω)
    (source : Source ν ε) :
    s.Changes (s.passes n c now waker source).store := by
  induction n generalizing s c with
  | zero => exact .refl s
  | succ n ih =>
    have hpass := (pass_spec s now waker source c).changes
    unfold passes
    simp only
    split
    · exact hpass
    · exact hpass.trans (ih _ _)

theorem changes_poll (s : Store κ ν ε ω) (c : Call κ ε ω) (now : Instant) (waker : ω)
    (source : Source ν ε) : s.Changes (s.poll c now waker source).store :=
  changes_passes passBound s c now waker source

end Operations

theorem sound_ofLayout (l : Layout) (hash : κ → UInt64) :
    (ofLayout l hash : Store κ ν ε ω).Sound where
  toTidy := tidy_ofLayout l hash
  single hj := by
    rw [slot?_ofLayout] at hj
    cases hj
  timed {r e} he := by
    have hnone : (ofLayout l hash : Store κ ν ε ω).entryAt? r = none := Arena.get?_empty r
    rw [hnone] at he
    cases he
  within m _ := by
    have hempty : (ofLayout l hash : Store κ ν ε ω).residents = ∅ := by
      ext k
      rw [(tidy_ofLayout l hash).slots.mem_residents_iff, slot?_ofLayout]
      simp
    rw [← (tidy_ofLayout l hash).slots.card_residents, hempty]
    exact Nat.zero_le m

end Store

namespace Session

variable {ι κ ν ε ω : Type} [DecidableEq ι] [DecidableEq κ]

theorem sameTables_drop (s : Session ι κ ν ε ω) (id : ι) :
    s.store.SameTables (s.drop id).2.store := by
  unfold drop
  split
  · exact Store.sameTables_abandon s.store _
  · exact .refl _

theorem changes_drop (s : Session ι κ ν ε ω) (id : ι) : s.store.Changes (s.drop id).2.store :=
  (s.sameTables_drop id).changes

variable [DecidableEq ω]

theorem changes_pollKept (s : Session ι κ ν ε ω) (id : ι) (c : Call κ ε ω) (now : Instant)
    (waker : ω) (source : Source ν ε) :
    s.store.Changes (s.pollKept id c now waker source).2.store :=
  s.store.changes_poll c now waker source

theorem changes_pollCall (s : Session ι κ ν ε ω) (id : ι) (c : Call κ ε ω) (now : Instant)
    (waker : ω) (source : Source ν ε) :
    s.store.Changes (s.pollCall id c now waker source).2.store := by
  have hpoll := s.changes_pollKept id c now waker source
  unfold pollCall
  simp only
  split
  · exact hpoll.trans (changes_drop _ id)
  · exact hpoll

theorem changes_perform (t : Clocked (Session ι κ ν ε ω)) (e : SessionEvent ι κ ν ε ω) :
    t.state.store.Changes (perform t e).state.store := by
  cases e with
  | start id key => exact changes_drop t.state id
  | drop id => exact changes_drop t.state id
  | peek key => exact .refl _
  | advance elapsed => exact .refl _
  | remove key => exact Store.changes_remove _ key
  | removeIfSame key current => exact Store.changes_removeIfSame _ key current
  | clear => exact Store.Change.clear.changes
  | swapIfSame key current value => exact Store.changes_swapped _ key current value t.now
  | poll id waker source keepCrashed =>
    simp only [perform]
    split
    · exact .refl _
    · split
      · exact changes_pollKept t.state id _ t.now waker source
      · exact changes_pollCall t.state id _ t.now waker source

theorem changes_foldl (t : Clocked (Session ι κ ν ε ω)) (events : List (SessionEvent ι κ ν ε ω)) :
    t.state.store.Changes (events.foldl perform t).state.store := by
  induction events generalizing t with
  | nil => exact .refl _
  | cons e events ih => exact (changes_perform t e).trans (ih (perform t e))

variable (l : Layout) (hash : κ → UInt64) (now : Instant) (events : List (SessionEvent ι κ ν ε ω))

theorem sound_run : (events.foldl perform ⟨now, ofLayout l hash⟩).state.store.Sound :=
  (changes_foldl ⟨now, ofLayout l hash⟩ events).sound (Store.sound_ofLayout l hash)

theorem sameMeasures_run : (Store.ofLayout l hash).SameMeasures
    (events.foldl perform ⟨now, ofLayout l hash⟩).state.store :=
  ((changes_foldl ⟨now, ofLayout l hash⟩ events).onward
    (Store.sound_ofLayout l hash)).toSameMeasures

end Session

end ReadThrough
