import Mathlib.Data.List.Nodup
import ReadThrough.Flight
import ReadThrough.Proofs.Runs

/-!
# A flight lands once

Until a flight lands, every poll is pending and leaves its waker. The first landing is the answer
to every poll after it. It fires the wakers that have been left, each once and in the order in
which they first came. Nothing else fires a waker, and nothing changes a flight that has landed.
-/

namespace ReadThrough

/-- What is done to a flight that has started. -/
inductive FlightEvent (ε ω : Type) where
  | poll (waker : ω)
  | land (landing : Landing ε)

variable {ε ω : Type}

namespace FlightEvent

def waker? : FlightEvent ε ω → Option ω
  | .poll waker => some waker
  | .land _ => none

def wakers (events : List (FlightEvent ε ω)) : List ω := events.filterMap waker?

def NoLanding (events : List (FlightEvent ε ω)) : Prop := ∀ l, land l ∉ events

theorem NoLanding.of_append {events later : List (FlightEvent ε ω)}
    (h : NoLanding (events ++ later)) : NoLanding events :=
  fun l hl => h l (List.mem_append_left later hl)

theorem wakers_concat_poll (events : List (FlightEvent ε ω)) (waker : ω) :
    wakers (events ++ [.poll waker]) = wakers events ++ [waker] := by
  simp [wakers, waker?]

theorem noLanding_or_landing (events : List (FlightEvent ε ω)) : NoLanding events ∨
    ∃ before l after, events = before ++ .land l :: after ∧ NoLanding before := by
  induction events with
  | nil => exact .inl fun _ => List.not_mem_nil
  | cons e events ih =>
    cases e with
    | land l => exact .inr ⟨[], l, events, rfl, fun _ => List.not_mem_nil⟩
    | poll waker =>
      rcases ih with h | ⟨before, l, after, rfl, hbefore⟩
      · left
        simpa [NoLanding] using h
      · refine .inr ⟨.poll waker :: before, l, after, rfl, ?_⟩
        simpa [NoLanding] using hbefore

end FlightEvent

/-- The wakers that came as `came` stand in `kept` each once, in the order in which they first
came. -/
structure FirstCome [DecidableEq ω] (came kept : List ω) : Prop where
  nodup : kept.Nodup
  mem_iff : ∀ w, w ∈ kept ↔ w ∈ came
  inOrder : kept.Pairwise fun v w => came.idxOf v < came.idxOf w

namespace FirstCome

variable [DecidableEq ω] {came kept : List ω} {w : ω}

theorem nil : FirstCome ([] : List ω) [] := ⟨List.nodup_nil, fun _ => Iff.rfl, .nil⟩

/-- Those who come later do not change the order of those who came before. -/
theorem inOrder_concat (h : FirstCome came kept) (w : ω) :
    kept.Pairwise fun u v => (came ++ [w]).idxOf u < (came ++ [w]).idxOf v := by
  refine h.inOrder.imp_of_mem fun {u v} hu hv huv => ?_
  rw [List.idxOf_append_of_mem ((h.mem_iff u).mp hu), List.idxOf_append_of_mem ((h.mem_iff v).mp hv)]
  exact huv

theorem again (h : FirstCome came kept) (hw : w ∈ came) : FirstCome (came ++ [w]) kept where
  nodup := h.nodup
  mem_iff v := by
    rw [h.mem_iff, List.mem_append, List.mem_singleton, or_iff_left_of_imp]
    rintro rfl
    exact hw
  inOrder := h.inOrder_concat w

theorem add (h : FirstCome came kept) (hw : w ∉ came) :
    FirstCome (came ++ [w]) (kept ++ [w]) where
  nodup := by
    rw [← List.concat_eq_append]
    exact List.Nodup.concat (mt (h.mem_iff w).mp hw) h.nodup
  mem_iff v := by rw [List.mem_append, List.mem_append, h.mem_iff]
  inOrder := by
    rw [List.pairwise_append]
    refine ⟨h.inOrder_concat w, List.pairwise_singleton _ w, fun v hv u hu => ?_⟩
    have hcame := (h.mem_iff v).mp hv
    rw [List.mem_singleton.mp hu, List.idxOf_append_of_mem hcame, List.idxOf_append_of_notMem hw]
    exact Nat.lt_add_right _ (List.idxOf_lt_length_iff.mpr hcame)

end FirstCome

namespace Flight

open FlightEvent

def fired (f : Flight ε ω) : FlightEvent ε ω → List ω
  | .poll _ => []
  | .land l => (f.land l).1

theorem fired_landed (l : Landing ε) (e : FlightEvent ε ω) : fired ⟨some l, []⟩ e = [] := by
  cases e <;> rfl

variable [DecidableEq ω]

def perform (f : Flight ε ω) : FlightEvent ε ω → Flight ε ω
  | .poll waker => (f.poll waker).2
  | .land l => (f.land l).2

variable {f : Flight ε ω} {events before : List (FlightEvent ε ω)}

/-- As long as it has not landed, a flight keeps the wakers of all polls. -/
structure Keeps (f : Flight ε ω) (came : List ω) : Prop where
  aloft : f.landing = none
  firstCome : FirstCome came f.waiting

theorem Keeps.poll {came : List ω} (h : f.Keeps came) (waker : ω) :
    (f.poll waker).1 = none ∧ (f.poll waker).2.Keeps (came ++ [waker]) := by
  obtain ⟨landing, waiting⟩ := f
  obtain ⟨rfl, hwaiting⟩ := h
  unfold Flight.poll
  split
  · next hlanding => cases hlanding
  · split
    · next hmem => exact ⟨rfl, rfl, hwaiting.again ((hwaiting.mem_iff waker).mp hmem)⟩
    · next hmem => exact ⟨rfl, rfl, hwaiting.add (mt (hwaiting.mem_iff waker).mpr hmem)⟩

theorem keeps_run (h : NoLanding events) : (events.foldl perform started).Keeps (wakers events) := by
  induction events using List.reverseRecOn with
  | nil => exact ⟨rfl, .nil⟩
  | append_singleton events e ih =>
    rw [List.foldl_append]
    cases e with
    | poll waker =>
      rw [wakers_concat_poll]
      exact ((ih h.of_append).poll waker).2
    | land l => exact absurd (List.mem_append_right events (List.mem_singleton_self _)) (h l)

theorem perform_landed (l : Landing ε) (e : FlightEvent ε ω) :
    perform ⟨some l, []⟩ e = ⟨some l, []⟩ := by
  cases e <;> rfl

theorem foldl_landed (l : Landing ε) (events : List (FlightEvent ε ω)) :
    events.foldl perform ⟨some l, []⟩ = ⟨some l, []⟩ := by
  induction events with
  | nil => rfl
  | cons e events ih => rw [List.foldl_cons, perform_landed, ih]

/-- The first landing fires the wakers that have been kept. -/
theorem Keeps.land {came : List ω} (h : f.Keeps came) (l : Landing ε) :
    f.fired (.land l) = f.waiting ∧ f.perform (.land l) = ⟨some l, []⟩ := by
  obtain ⟨landing, waiting⟩ := f
  obtain ⟨rfl, -⟩ := h
  exact ⟨rfl, rfl⟩

theorem landed_run (h : NoLanding before) (l : Landing ε) (after : List (FlightEvent ε ω)) :
    (before ++ .land l :: after).foldl perform started = ⟨some l, []⟩ := by
  rw [List.foldl_append, List.foldl_cons, ((keeps_run h).land l).2, foldl_landed]

theorem log_aloft (h : NoLanding events) (f : Flight ε ω) : gathered perform fired f events = [] := by
  induction events generalizing f with
  | nil => rfl
  | cons e events ih =>
    cases e with
    | poll waker => exact ih (fun l hl => h l (List.mem_cons_of_mem _ hl)) _
    | land l => exact absurd (List.mem_cons_self ..) (h l)

theorem log_landed (l : Landing ε) (events : List (FlightEvent ε ω)) :
    gathered perform fired ⟨some l, []⟩ events = [] := by
  induction events with
  | nil => rfl
  | cons e events ih => rw [gathered, perform_landed, fired_landed, ih, List.nil_append]

/-- What a flight does in a run, from its start. The first landing is final: it answers all polls
that come later, and fires the wakers of all that have come before, each once and in the order in
which they first came. Nothing else fires anybody. -/
structure LandsOnce (events : List (FlightEvent ε ω)) : Prop where
  pending : ∀ before waker after, events = before ++ .poll waker :: after → NoLanding before →
    ((before.foldl perform started).poll waker).1 = none
  landed : ∀ before l between waker after,
    events = before ++ .land l :: (between ++ .poll waker :: after) → NoLanding before →
      (((before ++ .land l :: between).foldl perform started).poll waker).1 = some l
  final : ∀ before l after, events = before ++ .land l :: after → NoLanding before →
    events.foldl perform started = ⟨some l, []⟩
  fires : ∀ before l after, events = before ++ .land l :: after → NoLanding before →
    FirstCome (wakers before) ((before.foldl perform started).fired (.land l))
  silent : ∀ before e after, events = before ++ e :: after →
    (before.foldl perform started).fired e ≠ [] → (∃ l, e = .land l) ∧ NoLanding before
  log_aloft : NoLanding events → gathered perform fired started events = []
  log_landed : ∀ before l after, events = before ++ .land l :: after → NoLanding before →
    FirstCome (wakers before) (gathered perform fired started events)

/-- A flight lands once, and its landing wakes everyone who waits for it exactly once. -/
theorem lands_once (events : List (FlightEvent ε ω)) : LandsOnce events := by
  constructor
  case pending =>
    intro before waker after _ hbefore
    exact ((keeps_run hbefore).poll waker).1
  case landed =>
    intro before l between waker after _ hbefore
    rw [landed_run hbefore]
    rfl
  case final =>
    rintro before l after rfl hbefore
    exact landed_run hbefore l after
  case fires =>
    intro before l after _ hbefore
    rw [((keeps_run hbefore).land l).1]
    exact (keeps_run hbefore).firstCome
  case silent =>
    intro before e after _ hfired
    rcases noLanding_or_landing before with hbefore | ⟨earlier, l, later, rfl, hearlier⟩
    · cases e with
      | poll => exact absurd rfl hfired
      | land l => exact ⟨⟨l, rfl⟩, hbefore⟩
    · rw [landed_run hearlier, fired_landed] at hfired
      exact absurd rfl hfired
  case log_aloft =>
    intro h
    exact log_aloft h started
  case log_landed =>
    rintro before l after rfl hbefore
    have hkept := keeps_run hbefore
    rw [gathered_append, log_aloft hbefore, List.nil_append, gathered, (hkept.land l).1,
      (hkept.land l).2, log_landed, List.append_nil]
    exact hkept.firstCome

example : gathered perform fired (started : Flight Unit Nat)
    [.poll 2, .poll 1, .poll 2, .land .loaded, .poll 3, .land .abandoned] = [2, 1] := by decide

end Flight

end ReadThrough
