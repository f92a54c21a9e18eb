import ReadThrough.Proofs.Cache.Events
import ReadThrough.Proofs.Lease.Packing
import ReadThrough.Proofs.Store.Keeping
import ReadThrough.Proofs.Tables

/-!
# Who holds the lease of an entry

Every renewal that is outstanding holds the lease of its entry, under its own token and in its own
stage, no other renewal has the same entry, and whatever entry is not idle is held by a renewal.
Taking, starting and giving back a lease keep it so, and nothing else touches a lease.
-/

namespace ReadThrough

/-- The word of an entry that this renewal holds. -/
def Renewal.word {κ ν : Type} (q : Renewal κ ν) : LeaseWord :=
  .pack q.token (if q.running then .running else .scheduled)

/-- What holds of the leases of all entries, of the renewals outstanding and of their numbers. -/
structure Leased {κ ν : Type} (leases : Ref (Entry ν) → Option LeaseWord)
    (renewals : Nat → Option (Renewal κ ν)) (next : Nat) : Prop where
  numbered : ∀ {n q}, renewals n = some q → n < next
  held : ∀ {n q}, renewals n = some q → leases q.entry = some q.word
  sole : ∀ {m n p q}, renewals m = some p → renewals n = some q → p.entry = q.entry → m = n
  owned : ∀ {r w}, leases r = some w → w ≠ .idle → ∃ n q, renewals n = some q ∧ q.entry = r

namespace Leased

variable {κ ν : Type} {leases leases' : Ref (Entry ν) → Option LeaseWord}
  {renewals : Nat → Option (Renewal κ ν)} {next n : Nat} {p q : Renewal κ ν}

theorem mono (h : Leased leases renewals next)
    (kept : ∀ {r w}, leases r = some w → leases' r = some w)
    (new_idle : ∀ {r w}, leases r = none → leases' r = some w → w = .idle) :
    Leased leases' renewals next where
  numbered := h.numbered
  held hq := kept (h.held hq)
  sole := h.sole
  owned {r w} hw hne := by
    cases hr : leases r with
    | none => exact absurd (new_idle hr hw) hne
    | some w' =>
      obtain rfl := Option.some.inj ((kept hr).symm.trans hw)
      exact h.owned hr hne

/-- A renewal has its entry to itself. -/
theorem entry_ne (h : Leased leases renewals next) (hq : renewals n = some q) {m : Nat}
    {p : Renewal κ ν} (hp : renewals m = some p) (hne : m ≠ n) : p.entry ≠ q.entry :=
  fun he => hne (h.sole hp hq he)

theorem take (h : Leased leases renewals next) (free : leases q.entry = some .idle) :
    Leased (Function.update leases q.entry (some q.word))
      (Function.update renewals next (some q)) (next + 1) := by
  have hothers : ∀ {m p}, renewals m = some p → p.entry ≠ q.entry := by
    intro m p hp he
    have hword := h.held hp
    rw [he, free] at hword
    exact LeaseWord.pack_ne_idle _ _ (Option.some.inj hword).symm
  constructor
  case numbered =>
    intro m p hp
    rcases update_eq_some hp with ⟨rfl, -⟩ | ⟨-, hp⟩
    · exact Nat.lt_succ_self m
    · exact Nat.lt_succ_of_lt (h.numbered hp)
  case held =>
    intro m p hp
    rcases update_eq_some hp with ⟨-, hp⟩ | ⟨-, hp⟩
    · cases hp
      exact Function.update_self ..
    · rw [Function.update_of_ne (hothers hp)]
      exact h.held hp
  case sole =>
    intro m m' p p' hp hp' he
    rcases update_eq_some hp with ⟨hm, hp⟩ | ⟨-, hp⟩
    · rcases update_eq_some hp' with ⟨hm', -⟩ | ⟨-, hp'⟩
      · rw [hm, hm']
      · cases hp
        exact absurd he.symm (hothers hp')
    · rcases update_eq_some hp' with ⟨-, hp'⟩ | ⟨-, hp'⟩
      · cases hp'
        exact absurd he (hothers hp)
      · exact h.sole hp hp' he
  case owned =>
    intro r w hw hne
    rcases update_eq_some hw with ⟨rfl, -⟩ | ⟨-, hw⟩
    · exact ⟨next, q, Function.update_self .., rfl⟩
    · obtain ⟨m, p, hp, he⟩ := h.owned hw hne
      refine ⟨m, p, ?_, he⟩
      rw [Function.update_of_ne (Nat.ne_of_lt (h.numbered hp)), hp]

theorem move (h : Leased leases renewals next) (hq : renewals n = some q)
    (same : p.entry = q.entry) :
    Leased (Function.update leases q.entry (some p.word))
      (Function.update renewals n (some p)) next := by
  constructor
  case numbered =>
    intro m d hd
    rcases update_eq_some hd with ⟨rfl, -⟩ | ⟨-, hd⟩
    · exact h.numbered hq
    · exact h.numbered hd
  case held =>
    intro m d hd
    rcases update_eq_some hd with ⟨-, hd⟩ | ⟨hne, hd⟩
    · cases hd
      rw [same, Function.update_self]
    · rw [Function.update_of_ne (h.entry_ne hq hd hne)]
      exact h.held hd
  case sole =>
    intro m m' d d' hd hd' he
    rcases update_eq_some hd with ⟨hm, hd⟩ | ⟨hm, hd⟩
    · rcases update_eq_some hd' with ⟨hm', -⟩ | ⟨hm', hd'⟩
      · rw [hm, hm']
      · cases hd
        exact absurd (he.symm.trans same) (h.entry_ne hq hd' hm')
    · rcases update_eq_some hd' with ⟨-, hd'⟩ | ⟨-, hd'⟩
      · cases hd'
        exact absurd (he.trans same) (h.entry_ne hq hd hm)
      · exact h.sole hd hd' he
  case owned =>
    intro r w hw hne
    rcases update_eq_some hw with ⟨rfl, -⟩ | ⟨hr, hw⟩
    · exact ⟨n, p, Function.update_self .., same⟩
    · obtain ⟨m, d, hd, he⟩ := h.owned hw hne
      refine ⟨m, d, ?_, he⟩
      rw [Function.update_of_ne, hd]
      rintro rfl
      rw [hq] at hd
      cases hd
      exact hr he.symm

theorem close (h : Leased leases renewals next) (hq : renewals n = some q) :
    Leased (Function.update leases q.entry (some .idle)) (Function.update renewals n none)
      next := by
  have hothers : ∀ {m p}, Function.update renewals n none m = some p →
      m ≠ n ∧ renewals m = some p := by
    intro m p hp
    rcases update_eq_some hp with ⟨-, hp⟩ | hp
    · cases hp
    · exact hp
  constructor
  case numbered =>
    intro m p hp
    exact h.numbered (hothers hp).2
  case held =>
    intro m p hp
    obtain ⟨hne, hp⟩ := hothers hp
    rw [Function.update_of_ne (h.entry_ne hq hp hne)]
    exact h.held hp
  case sole =>
    intro m m' p p' hp hp' he
    exact h.sole (hothers hp).2 (hothers hp').2 he
  case owned =>
    intro r w hw hne
    rcases update_eq_some hw with ⟨-, hw⟩ | ⟨hr, hw⟩
    · exact absurd (Option.some.inj hw).symm hne
    · obtain ⟨m, p, hp, he⟩ := h.owned hw hne
      refine ⟨m, p, ?_, he⟩
      rw [Function.update_of_ne, hp]
      rintro rfl
      rw [hq] at hp
      cases hp
      exact hr he.symm

end Leased

namespace Store

variable {κ ν ε ω : Type}

def lease? (s : Store κ ν ε ω) (r : Ref (Entry ν)) : Option LeaseWord :=
  (s.entryAt? r).map (·.lease)

variable {s s' : Store κ ν ε ω} {r : Ref (Entry ν)} {w w' : LeaseWord}

theorem KeepsEntries.lease?_eq_some (h : s.KeepsEntries s') (hw : s.lease? r = some w) :
    s'.lease? r = some w := by
  obtain ⟨e, he, rfl⟩ := Option.map_eq_some_iff.mp hw
  obtain ⟨e', he', hread⟩ := h.kept he
  rw [lease?, he', Option.map_some, hread.lease_eq]

theorem KeepsEntries.lease?_eq_idle (h : s.KeepsEntries s') (hr : s.lease? r = none)
    (hw : s'.lease? r = some w) : w = .idle := by
  obtain ⟨e, he, rfl⟩ := Option.map_eq_some_iff.mp hw
  exact h.new_idle (Option.map_eq_none_iff.mp hr) he

theorem lease?_modifyEntry {f : Entry ν → Entry ν} (hw : s.lease? r = some w)
    (hf : ∀ e, e.lease = w → (f e).lease = w') :
    (s.modifyEntry r f).lease? = Function.update s.lease? r (some w') := by
  funext q
  have hget : (s.modifyEntry r f).entryAt? q =
      if q = r then (s.entryAt? q).map f else s.entryAt? q := Arena.get?_modify _ _ _ _
  by_cases hq : q = r
  · subst hq
    obtain ⟨e, he, hlease⟩ := Option.map_eq_some_iff.mp hw
    rw [lease?, hget, if_pos rfl, he, Function.update_self, Option.map_some, Option.map_some,
      hf e hlease]
  · rw [lease?, hget, if_neg hq, Function.update_of_ne hq, lease?]

end Store

namespace Cache

variable {ι κ ν ε ω : Type}

/-- Every renewal holds the lease of its entry, and every lease that is held is held by one. -/
def LeasesHeld (c : Cache ι κ ν ε ω) : Prop :=
  Leased c.store.lease? c.renewals.get? c.nextRenewal

variable {c c' : Cache ι κ ν ε ω}

theorem LeasesHeld.get?_nextRenewal (h : c.LeasesHeld) :
    c.renewals.get? c.nextRenewal = none := by
  cases hq : c.renewals.get? c.nextRenewal with
  | none => rfl
  | some q => exact absurd (h.numbered hq) (Nat.lt_irrefl _)

/-- No entry of `c` is lost, and no lease or renewal is touched. -/
structure Spares (c c' : Cache ι κ ν ε ω) : Prop where
  entries : c.store.KeepsEntries c'.store
  renewals_eq : c'.renewals = c.renewals
  next_eq : c'.nextRenewal = c.nextRenewal

theorem Spares.refl (c : Cache ι κ ν ε ω) : c.Spares c := ⟨.refl _, rfl, rfl⟩

theorem spares_withStore {s : Store κ ν ε ω} (h : c.store.KeepsEntries s) :
    c.Spares (c.withStore s) :=
  ⟨h, rfl, rfl⟩

/-- With whatever renewals, what holds of the leases of a cache holds after it has been spared. -/
theorem Spares.leased (h : c.Spares c') {renewals : Nat → Option (Renewal κ ν)} {next : Nat}
    (hc : Leased c.store.lease? renewals next) : Leased c'.store.lease? renewals next :=
  hc.mono h.entries.lease?_eq_some h.entries.lease?_eq_idle

theorem Spares.leasesHeld (h : c.Spares c') (hc : c.LeasesHeld) : c'.LeasesHeld := by
  rw [LeasesHeld, h.renewals_eq, h.next_eq]
  exact h.leased hc

theorem lease?_setLease {r : Ref (Entry ν)} {w : LeaseWord} (hw : c.store.lease? r = some w)
    (w' : LeaseWord) :
    (c.setLease r w').store.lease? = Function.update c.store.lease? r (some w') :=
  Store.lease?_modifyEntry hw fun _ _ => rfl

theorem lease?_releaseLease {r : Ref (Entry ν)} {w : LeaseWord} (hw : c.store.lease? r = some w)
    (t : Token) :
    (c.releaseLease r t).store.lease? = Function.update c.store.lease? r (some (w.release t)) :=
  Store.lease?_modifyEntry hw fun e he => by rw [← he]; rfl

/-- Ending a renewal, in whatever stage it is, leaves the others with what they hold. -/
theorem leasesHeld_closeRenewal {n : Nat} {q : Renewal κ ν} (running : Bool)
    (h : Leased c.store.lease?
      (Function.update c.renewals.get? n (some { q with running := running })) c.nextRenewal) :
    (c.closeRenewal n q).LeasesHeld := by
  have hheld := h.held (Function.update_self ..)
  have hlease : (c.closeRenewal n q).store.lease? =
      Function.update c.store.lease? q.entry (some .idle) := by
    have hrelease := lease?_releaseLease hheld q.token
    rw [Renewal.word, LeaseWord.release_pack] at hrelease
    exact hrelease
  have hrenewals : (c.closeRenewal n q).renewals.get? = Function.update c.renewals.get? n none :=
    Table.get?_erase_eq_update c.renewals n
  have hclose := h.close (Function.update_self ..)
  rw [Function.update_idem, ← hlease, ← hrenewals] at hclose
  exact hclose

end Cache

end ReadThrough
