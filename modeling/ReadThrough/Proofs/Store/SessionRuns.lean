import ReadThrough.Proofs.Runs
import ReadThrough.Proofs.Store.Sessions

/-!
# Everything that can happen to a store and its callers

A run of a session performs events of every kind, in any order and with any arguments, from the
empty store of some layout. The clock moves when a load takes time, and in between.
-/

namespace ReadThrough

/-- One event in the life of a store and the calls on it. A call is made in place of a former one of
the same name. One that crashes may be kept, and is dropped otherwise. -/
inductive SessionEvent (ι κ ν ε ω : Type) where
  | start (id : ι) (key : κ)
  | poll (id : ι) (waker : ω) (source : Source ν ε) (keepCrashed : Bool)
  | drop (id : ι)
  | peek (key : κ)
  | remove (key : κ)
  | removeIfSame (key : κ) (current : Ref (Entry ν))
  | swapIfSame (key : κ) (current : Ref (Entry ν)) (value : Option ν)
  | clear
  | advance (elapsed : Nat)

def Store.swapped {κ ν ε ω : Type} [DecidableEq κ] (s : Store κ ν ε ω) (k : κ)
    (current : Ref (Entry ν)) (value : Option ν) (now : Instant) : Store κ ν ε ω :=
  match s.swapIfSame k current value now with
  | .ok stored => stored.store
  | .error _ => s

theorem Store.sameFlights_swapped {κ ν ε ω : Type} [DecidableEq κ] (s : Store κ ν ε ω) (k : κ)
    (current : Ref (Entry ν)) (value : Option ν) (now : Instant) :
    s.SameFlights (s.swapped k current value now) := by
  unfold swapped
  split
  · rename_i stored h
    exact sameFlights_swapIfSame h
  · exact .refl _

namespace Session

variable {ι κ ν ε ω : Type}

def ofLayout (l : Layout) (hash : κ → UInt64) : Session ι κ ν ε ω := .ofStore (.ofLayout l hash)

variable [DecidableEq ι] [DecidableEq κ] [DecidableEq ω]

def perform (t : Clocked (Session ι κ ν ε ω)) :
    SessionEvent ι κ ν ε ω → Clocked (Session ι κ ν ε ω)
  | .start id key => ⟨t.now, (t.state.start id key).2⟩
  | .poll id waker source keepCrashed =>
    match t.state.calls.get? id with
    | none => t
    | some c =>
      let (report, s) :=
        if keepCrashed then t.state.pollKept id c t.now waker source
        else t.state.pollCall id c t.now waker source
      ⟨if report.ran then t.now + source.reply.elapsed else t.now, s⟩
  | .drop id => ⟨t.now, (t.state.drop id).2⟩
  | .peek _ => t
  | .remove key => ⟨t.now, t.state.mapStore fun s => (s.remove key).2⟩
  | .removeIfSame key current => ⟨t.now, t.state.mapStore fun s => (s.removeIfSame key current).2⟩
  | .swapIfSame key current value =>
    ⟨t.now, t.state.mapStore (·.swapped key current value t.now)⟩
  | .clear => ⟨t.now, t.state.mapStore .clear⟩
  | .advance elapsed => ⟨t.now + elapsed, t.state⟩

/-- The event polls a call for `k`, and the source crashes at being asked for a load. -/
def Refused (k : κ) (t : Clocked (Session ι κ ν ε ω)) : SessionEvent ι κ ν ε ω → Prop
  | .poll id waker source _ => ∃ c, t.state.calls.get? id = some c ∧ k = c.key ∧
      (t.state.store.poll c t.now waker source).asked = true ∧ source.refusal.isSome = true
  | _ => False

/-- Every event keeps order, and strands a key only if a source refuses it. -/
theorem settles_perform (t : Clocked (Session ι κ ν ε ω)) (e : SessionEvent ι κ ν ε ω) :
    t.state.Settles (perform t e).state fun k => Refused k t e := by
  cases e with
  | start id key => exact settles_start t.state id key
  | drop id => exact settles_drop t.state id
  | peek key => exact .refl _
  | advance elapsed => exact .refl _
  | remove key =>
    exact settles_of_sameFlights rfl (Store.sameCells_remove _ key).toSameFlights
  | removeIfSame key current =>
    exact settles_of_sameFlights rfl (Store.sameCells_removeIfSame _ key current).toSameFlights
  | clear => exact settles_of_sameFlights rfl (Store.sameCells_clear _).toSameFlights
  | swapIfSame key current value =>
    exact settles_of_sameFlights rfl (Store.sameFlights_swapped _ key current value t.now)
  | poll id waker source keepCrashed =>
    cases hc : t.state.calls.get? id with
    | none =>
      have hperform : perform t (.poll id waker source keepCrashed) = t := by
        simp only [perform, hc]
      have hrefused : ∀ k, Refused k t (.poll id waker source keepCrashed) ↔ False := by
        simp [Refused, hc]
      simp only [hperform, hrefused]
      exact .refl _
    | some c =>
      have hrefused : ∀ k, Refused k t (.poll id waker source keepCrashed) ↔
          k = c.key ∧ (t.state.store.poll c t.now waker source).asked = true ∧
            source.refusal.isSome = true := by
        simp [Refused, hc]
      simp only [hrefused, perform, hc]
      cases keepCrashed with
      | true => exact settles_pollKept (.present hc)
      | false => exact settles_pollCall (.present hc)

variable (l : Layout) (hash : κ → UInt64) (now : Instant) (events : List (SessionEvent ι κ ν ε ω))

theorem orderly_run : (events.foldl perform ⟨now, ofLayout l hash⟩).state.Orderly := by
  induction events using List.reverseRecOn with
  | nil => exact orderly_ofStore (Store.flight?_ofLayout l hash)
  | append_singleton events e ih =>
    rw [List.foldl_append]
    exact (settles_perform _ e).orderly ih

/-- A key is stranded after a run if a source has refused it in the course of the run. -/
theorem stranded_run_iff (k : κ) :
    (events.foldl perform ⟨now, ofLayout l hash⟩).state.Stranded k ↔
      Occurs perform ⟨now, ofLayout l hash⟩ events (Refused k) := by
  induction events using List.reverseRecOn with
  | nil => simp [ofLayout, not_stranded_ofStore (Store.flight?_ofLayout l hash) k]
  | append_singleton events e ih =>
    rw [occurs_concat_iff, ← ih, List.foldl_append]
    exact (settles_perform _ e).stranded_iff (orderly_run l hash now events) k

end Session

end ReadThrough
