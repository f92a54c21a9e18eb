import ReadThrough.Proofs.Tables
import ReadThrough.Proofs.Store.Standing

/-!
# Flights and those who lead them

Between any two passes a registered flight has not landed and is registered for one key only, a call
that leads a flight is the only one to do so and leads the flight registered for its key, and a
flight that is waited for is registered as long as it has not landed. A key whose flight nobody
leads stays so for good. It comes about only where the source crashes at being asked for a load.
-/

namespace ReadThrough.Store

section Leaders

variable {ι κ ε ω : Type}

/-- The flight that each call leads. -/
def ledBy (calls : ι → Option (Call κ ε ω)) (i : ι) : Option (Ref (Flight ε ω)) :=
  (calls i).bind (·.phase.led?)

variable {calls : ι → Option (Call κ ε ω)}

theorem ledBy_of_eq_some {i : ι} {c : Call κ ε ω} (hc : calls i = some c) :
    ledBy calls i = c.phase.led? := by
  rw [ledBy, hc, Option.bind_some]

theorem ledBy_eq_some_iff {i : ι} {f : Ref (Flight ε ω)} :
    ledBy calls i = some f ↔ ∃ c, calls i = some c ∧ c.phase.led? = some f :=
  Option.bind_eq_some_iff

variable [DecidableEq ι]

theorem ledBy_update (calls : ι → Option (Call κ ε ω)) (id : ι) (o : Option (Call κ ε ω)) :
    ledBy (Function.update calls id o) =
      Function.update (ledBy calls) id (o.bind (·.phase.led?)) := by
  funext i
  by_cases hi : i = id
  · subst hi
    simp [ledBy]
  · simp [ledBy, hi]

theorem ledBy_update_of_eq {id : ι} {o : Option (Call κ ε ω)}
    (led : o.bind (·.phase.led?) = ledBy calls id) :
    ledBy (Function.update calls id o) = ledBy calls := by
  rw [ledBy_update, led, Function.update_eq_self]

end Leaders

variable {ι κ ν ε ω : Type} [DecidableEq κ]

def Stranded (s : Store κ ν ε ω) (calls : ι → Option (Call κ ε ω)) (k : κ) : Prop :=
  ∃ f, s.flight? k = some f ∧ ∀ i, ledBy calls i ≠ some f

/-- What holds of the flights of a store and of the calls under way on it between passes. -/
structure Orderly (s : Store κ ν ε ω) (calls : ι → Option (Call κ ε ω)) : Prop where
  aloft : ∀ {k f}, s.flight? k = some f → s.IsAloft f
  once : ∀ {j k f}, s.flight? j = some f → s.flight? k = some f → j = k
  registered : ∀ {i c f}, calls i = some c → c.phase.led? = some f → s.flight? c.key = some f
  leader : ∀ {i j f}, ledBy calls i = some f → ledBy calls j = some f → i = j
  awaited : ∀ {i c f}, calls i = some c → c.phase.awaited? = some f →
    s.flight? c.key = some f ∨ s.IsDown f
  spent : ∀ {i c}, calls i = some c → c.phase.isSpent = true → s.Stranded calls c.key

variable {s s' : Store κ ν ε ω} {calls : ι → Option (Call κ ε ω)}

theorem SameStanding.stranded_iff (h : s.SameStanding s') {k : κ} :
    s'.Stranded calls k ↔ s.Stranded calls k := by
  unfold Stranded
  rw [h.flight?_eq]

namespace Orderly

theorem allAloft (h : s.Orderly calls) : s.AllAloft := fun _ _ hf => (h.aloft hf).landing_eq

theorem registered_of_ledBy (h : s.Orderly calls) {i : ι} {f : Ref (Flight ε ω)}
    (hled : ledBy calls i = some f) : ∃ k, s.flight? k = some f := by
  obtain ⟨c, hc, hf⟩ := ledBy_eq_some_iff.mp hled
  exact ⟨c.key, h.registered hc hf⟩

theorem ledBy_ne_next (h : s.Orderly calls) (i : ι) : ledBy calls i ≠ some s.flights.next := by
  intro hi
  obtain ⟨k, hk⟩ := h.registered_of_ledBy hi
  exact (h.aloft hk).ne_next rfl

theorem led?_eq_none (h : s.Orderly calls) {i : ι} {c : Call κ ε ω} (hc : calls i = some c)
    (vacant : s.flight? c.key = none) : c.phase.led? = none := by
  cases hled : c.phase.led? with
  | none => rfl
  | some f =>
    rw [h.registered hc hled] at vacant
    cases vacant

theorem sameStanding (h : s.Orderly calls) (same : s.SameStanding s') : s'.Orderly calls where
  aloft hf := by
    rw [same.flight?_eq] at hf
    rw [IsAloft, same.standing?_eq]
    exact h.aloft hf
  once hj hk := by
    rw [same.flight?_eq] at hj hk
    exact h.once hj hk
  registered hc hled := by
    rw [same.flight?_eq]
    exact h.registered hc hled
  leader := h.leader
  awaited hc hf := by
    simp only [IsDown, same.standing?_eq, same.flight?_eq]
    exact h.awaited hc hf
  spent hc hspent := same.stranded_iff.mpr (h.spent hc hspent)

end Orderly

section Change

variable [DecidableEq ι] {id : ι} {o : Option (Call κ ε ω)}

omit [DecidableEq κ] in
theorem led?_eq_none_of_ended {c : Call κ ε ω} (ended : ∀ d ∈ o, d = ⟨c.key, .finished⟩) :
    o.bind (·.phase.led?) = none := by
  cases o with
  | none => rfl
  | some d =>
    rw [ended d rfl]
    rfl

theorem stranded_update_iff (led : o.bind (·.phase.led?) = ledBy calls id) {k : κ} :
    s.Stranded (Function.update calls id o) k ↔ s.Stranded calls k := by
  unfold Stranded
  rw [ledBy_update_of_eq led]

namespace Orderly

theorem update (h : s.Orderly calls) (led : o.bind (·.phase.led?) = ledBy calls id)
    (registered : ∀ {c f}, o = some c → c.phase.led? = some f → s.flight? c.key = some f)
    (awaited : ∀ {c f}, o = some c → c.phase.awaited? = some f →
      s.flight? c.key = some f ∨ s.IsDown f)
    (spent : ∀ {c}, o = some c → c.phase.isSpent = true → s.Stranded calls c.key) :
    s.Orderly (Function.update calls id o) where
  aloft := h.aloft
  once := h.once
  registered hc hled := by
    rcases update_eq_some hc with ⟨-, hc⟩ | ⟨-, hc⟩
    · exact registered hc hled
    · exact h.registered hc hled
  leader := by
    rw [ledBy_update_of_eq led]
    exact h.leader
  awaited hc hf := by
    rcases update_eq_some hc with ⟨-, hc⟩ | ⟨-, hc⟩
    · exact awaited hc hf
    · exact h.awaited hc hf
  spent hc hspent := by
    rw [stranded_update_iff led]
    rcases update_eq_some hc with ⟨-, hc⟩ | ⟨-, hc⟩
    · exact spent hc hspent
    · exact h.spent hc hspent

theorem stranded_register_iff (h : s.Orderly calls) {c c' : Call κ ε ω}
    (vacant : s.flight? c.key = none) (free : ledBy calls id = none)
    (led : ∀ {f}, c'.phase.led? = some f → f = s.flights.next) {k : κ} :
    (s.register c.key).2.Stranded (Function.update calls id (some c')) k ↔
      s.Stranded calls k ∨ k = c.key ∧ c'.phase.led? = none := by
  constructor
  · rintro ⟨f, hf, hnone⟩
    rcases flight?_register_cases hf with ⟨rfl, rfl⟩ | hf
    · refine .inr ⟨rfl, Option.eq_none_iff_forall_ne_some.mpr fun g hg => hnone id ?_⟩
      rw [ledBy_update, Function.update_self, Option.bind_some, hg, led hg]
    · refine .inl ⟨f, hf, fun i hi => hnone i ?_⟩
      rw [ledBy_update, Function.update_of_ne, hi]
      rintro rfl
      rw [free] at hi
      cases hi
  · rintro (⟨f, hf, hnone⟩ | ⟨rfl, hc'⟩)
    · refine ⟨f, flight?_register_of_eq_some vacant hf, fun i hi => ?_⟩
      rw [ledBy_update] at hi
      rcases update_eq_some hi with ⟨-, hi⟩ | ⟨-, hi⟩
      · exact (h.aloft hf).ne_next (led hi)
      · exact hnone i hi
    · refine ⟨s.flights.next, flight?_register_self s c.key, fun i hi => ?_⟩
      rw [ledBy_update] at hi
      rcases update_eq_some hi with ⟨-, hi⟩ | ⟨-, hi⟩
      · rw [Option.bind_some, hc'] at hi
        cases hi
      · exact h.ledBy_ne_next i hi

theorem register (h : s.Orderly calls) {c c' : Call κ ε ω} (vacant : s.flight? c.key = none)
    (free : ledBy calls id = none) (key : c'.key = c.key)
    (led : ∀ {f}, c'.phase.led? = some f → f = s.flights.next) (awaited : c'.phase.awaited? = none)
    (spent : c'.phase.isSpent = true → c'.phase.led? = none) :
    (s.register c.key).2.Orderly (Function.update calls id (some c')) where
  aloft hf := by
    rw [IsAloft, standing?_register]
    rcases flight?_register_cases hf with ⟨-, rfl⟩ | hf
    · rw [if_pos rfl]
    · rw [if_neg (h.aloft hf).ne_next]
      exact h.aloft hf
  once hi hj := by
    rcases flight?_register_cases hi with ⟨rfl, rfl⟩ | hi
    · rcases flight?_register_cases hj with ⟨rfl, -⟩ | hj
      · rfl
      · exact absurd rfl (h.aloft hj).ne_next
    · rcases flight?_register_cases hj with ⟨-, rfl⟩ | hj
      · exact absurd rfl (h.aloft hi).ne_next
      · exact h.once hi hj
  registered hd hled := by
    rcases update_eq_some hd with ⟨-, hd⟩ | ⟨-, hd⟩
    · cases hd
      rw [led hled, key]
      exact flight?_register_self s c.key
    · exact flight?_register_of_eq_some vacant (h.registered hd hled)
  leader hi hj := by
    rw [ledBy_update] at hi hj
    rcases update_eq_some hi with ⟨hi, hi'⟩ | ⟨-, hi⟩
    · rcases update_eq_some hj with ⟨hj, -⟩ | ⟨-, hj⟩
      · rw [hi, hj]
      · rw [led hi'] at hj
        exact absurd hj (h.ledBy_ne_next _)
    · rcases update_eq_some hj with ⟨-, hj⟩ | ⟨-, hj⟩
      · rw [led hj] at hi
        exact absurd hi (h.ledBy_ne_next _)
      · exact h.leader hi hj
  awaited hd hf := by
    rcases update_eq_some hd with ⟨-, hd⟩ | ⟨-, hd⟩
    · cases hd
      rw [awaited] at hf
      cases hf
    · rcases h.awaited hd hf with hreg | hdown
      · exact .inl (flight?_register_of_eq_some vacant hreg)
      · right
        rw [IsDown, standing?_register, if_neg hdown.ne_next]
        exact hdown
  spent hd hspent := by
    rw [h.stranded_register_iff vacant free led]
    rcases update_eq_some hd with ⟨-, hd⟩ | ⟨-, hd⟩
    · cases hd
      rw [key]
      exact .inr ⟨rfl, spent hspent⟩
    · exact .inl (h.spent hd hspent)

section Conclude

variable {c : Call κ ε ω} {f : Ref (Flight ε ω)}

/-- A call that is under way after `id` has stopped leading leads another flight. -/
theorem ledBy_concluded (h : s.Orderly calls) (hled : ledBy calls id = some f)
    (ended : o.bind (·.phase.led?) = none) {i : ι} {g : Ref (Flight ε ω)}
    (hg : ledBy (Function.update calls id o) i = some g) : g ≠ f ∧ ledBy calls i = some g := by
  rw [ledBy_update] at hg
  rcases update_eq_some hg with ⟨-, hg⟩ | ⟨hne, hg⟩
  · rw [ended] at hg
    cases hg
  · refine ⟨?_, hg⟩
    rintro rfl
    exact hne (h.leader hg hled)

theorem stranded_conclude_iff (h : s.Orderly calls) (hreg : s.flight? c.key = some f)
    (hled : ledBy calls id = some f) (l : Landing ε) (ended : o.bind (·.phase.led?) = none)
    {k : κ} :
    (s.concludeFlight c.key f l).2.Stranded (Function.update calls id o) k ↔
      s.Stranded calls k := by
  constructor
  · rintro ⟨g, hg, hnone⟩
    obtain ⟨hk, hg⟩ := (flight?_concluded_iff hreg).mp hg
    refine ⟨g, hg, fun i hi => hnone i ?_⟩
    rw [ledBy_update, Function.update_of_ne, hi]
    rintro rfl
    rw [hled] at hi
    cases hi
    exact hk (h.once hg hreg)
  · rintro ⟨g, hg, hnone⟩
    refine ⟨g, (flight?_concluded_iff hreg).mpr ⟨?_, hg⟩, fun i hi =>
      hnone i (h.ledBy_concluded hled ended hi).2⟩
    rintro rfl
    rw [hreg] at hg
    cases hg
    exact hnone id hled

theorem conclude (h : s.Orderly calls) (hreg : s.flight? c.key = some f)
    (hled : ledBy calls id = some f) (l : Landing ε) (ended : ∀ d ∈ o, d = ⟨c.key, .finished⟩) :
    (s.concludeFlight c.key f l).2.Orderly (Function.update calls id o) := by
  have hstanding := (h.aloft hreg).standing?_concludeFlight c.key l
  have hended := led?_eq_none_of_ended ended
  have hkept : ∀ {j g}, s.flight? j = some g → g ≠ f →
      (s.concludeFlight c.key f l).2.flight? j = some g := by
    intro j g hg hne
    refine (flight?_concluded_iff hreg).mpr ⟨?_, hg⟩
    rintro rfl
    rw [hreg] at hg
    exact hne (Option.some.inj hg).symm
  -- A call of this name, if there is still one, is neither leading nor waiting.
  have hother : ∀ {i d}, Function.update calls id o i = some d →
      d.phase = .finished ∨ calls i = some d := by
    intro i d hd
    rcases update_eq_some hd with ⟨-, hd⟩ | ⟨-, hd⟩
    · rw [ended d hd]
      exact .inl rfl
    · exact .inr hd
  constructor
  case aloft =>
    intro j g hg
    obtain ⟨hj, hg'⟩ := (flight?_concluded_iff hreg).mp hg
    have hne : g ≠ f := by
      rintro rfl
      exact hj (h.once hg' hreg)
    rw [IsAloft, hstanding, if_neg hne]
    exact h.aloft hg'
  case once =>
    intro i j g hi hj
    exact h.once ((flight?_concluded_iff hreg).mp hi).2 ((flight?_concluded_iff hreg).mp hj).2
  case registered =>
    intro i d g hd hdg
    have hne : g ≠ f := (h.ledBy_concluded hled hended ((ledBy_of_eq_some hd).trans hdg)).1
    rcases hother hd with hfin | hd
    · rw [hfin] at hdg
      cases hdg
    · exact hkept (h.registered hd hdg) hne
  case leader =>
    intro i j g hi hj
    exact h.leader (h.ledBy_concluded hled hended hi).2 (h.ledBy_concluded hled hended hj).2
  case awaited =>
    intro i d g hd hdg
    rcases hother hd with hfin | hd
    · rw [hfin] at hdg
      cases hdg
    · by_cases hg : g = f
      · exact .inr ⟨l, by rw [hstanding, if_pos hg]⟩
      · rcases h.awaited hd hdg with hdreg | hdown
        · exact .inl (hkept hdreg hg)
        · right
          rw [IsDown, hstanding, if_neg hg]
          exact hdown
  case spent =>
    intro i d hd hspent
    rw [h.stranded_conclude_iff hreg hled l hended]
    rcases hother hd with hfin | hd
    · rw [hfin] at hspent
      cases hspent
    · exact h.spent hd hspent

end Conclude

variable [DecidableEq ω] {c : Call κ ε ω} {waker : Option ω} {refusal : Option String}
  {woken : List ω} {asked : Bool}

theorem traffic (h : s.Orderly calls) (hc : calls id = some c)
    (t : Traffic s c waker refusal s' o woken asked) :
    s'.Orderly (Function.update calls id o) := by
  have hled : ledBy calls id = c.phase.led? := ledBy_of_eq_some hc
  cases t with
  | @stays s' c' same key led awaited spent =>
    refine Orderly.sameStanding (s := s) ?_ same.sameStanding
    apply h.update
    case led => rw [Option.bind_some, led, hled]
    case registered =>
      rintro _ f ⟨⟩ hf
      rw [key]
      exact h.registered hc (led.symm.trans hf)
    case awaited =>
      rintro _ f ⟨⟩ hf
      rw [key]
      rcases awaited f hf with hf | hf
      · exact h.awaited hc hf
      · exact .inl hf
    case spent =>
      rintro _ ⟨⟩ hs
      rw [key]
      exact h.spent hc (spent hs)
  | leaves led =>
    apply h.update
    case led => rw [Option.bind_none, hled, led]
    all_goals simp
  | @joins f w left awaited aloft =>
    rw [update_of_eq_some hc]
    exact h.sameStanding (sameStanding_joinFlight s f w)
  | leads vacant led accepted =>
    exact h.register vacant (hled.trans led) rfl (fun hf => (Option.some.inj hf).symm) rfl
      (fun hs => by cases hs)
  | strands vacant led why =>
    exact h.register vacant (hled.trans led) rfl (fun hf => by cases hf) rfl (fun _ => rfl)
  | concludes led same ended =>
    exact (h.conclude (h.registered hc led) (hled.trans led) _ ended).sameStanding
      same.sameStanding

/-- A key comes to be stranded where the source crashes at being asked, and nowhere else; and it
stays so. -/
theorem stranded_traffic_iff (h : s.Orderly calls) (hc : calls id = some c)
    (t : Traffic s c waker refusal s' o woken asked) {k : κ} :
    s'.Stranded (Function.update calls id o) k ↔
      s.Stranded calls k ∨ k = c.key ∧ asked = true ∧ refusal.isSome = true := by
  have hled : ledBy calls id = c.phase.led? := ledBy_of_eq_some hc
  cases t with
  | stays same key led awaited spent =>
    rw [same.sameStanding.stranded_iff, stranded_update_iff (by rw [Option.bind_some, led, hled])]
    simp
  | leaves led =>
    rw [stranded_update_iff (by rw [Option.bind_none, hled, led])]
    simp
  | @joins f w left awaited aloft =>
    rw [update_of_eq_some hc, (sameStanding_joinFlight s f w).stranded_iff]
    simp
  | leads vacant led accepted =>
    have hnew : ∀ {f}, (Phase.loading (s.register c.key).1 : Phase ε ω).led? = some f →
        f = s.flights.next := fun hf => (Option.some.inj hf).symm
    rw [h.stranded_register_iff vacant (hled.trans led) hnew]
    simp [accepted, Phase.led?]
  | strands vacant led why =>
    have hnothing : ∀ {f}, (Phase.lookup false : Phase ε ω).led? = some f →
        f = s.flights.next := fun hf => by cases hf
    rw [h.stranded_register_iff vacant (hled.trans led) hnothing]
    rcases why with ⟨hasked, hrefused⟩ | ⟨-, hspent⟩
    · simp [hasked, hrefused, Phase.led?]
    · obtain ⟨f, hf, -⟩ := h.spent hc hspent
      rw [vacant] at hf
      cases hf
  | concludes led same ended =>
    rw [same.sameStanding.stranded_iff, h.stranded_conclude_iff (h.registered hc led)
      (hled.trans led) _ (led?_eq_none_of_ended ended)]
    simp

end Orderly

end Change

end ReadThrough.Store
