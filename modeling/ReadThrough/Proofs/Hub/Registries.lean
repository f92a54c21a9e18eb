import Mathlib.Data.String.Basic
import ReadThrough.Broadcast.Registry

/-!
# Registries that forget the dead

A registry answers every question from the registrations of the living alone. So it answers alike
with the dead dropped and with the dead kept, and a search may drop them.
-/

namespace ReadThrough

section Repeats

variable {α : Type} [LinearOrder α] [BEq α] [LawfulBEq α]

/-- The loop has `rs`, the greatest first, and `a` in hand, which it has not put down yet. -/
theorem eraseReps_loop (a : α) (as rs : List α) (sorted : (a :: as).Pairwise (· ≤ ·))
    (before : (rs.reverse ++ [a]).Pairwise (· < ·)) :
    (List.eraseRepsBy.loop (· == ·) a as rs).Pairwise (· < ·) ∧
      ∀ x, x ∈ List.eraseRepsBy.loop (· == ·) a as rs ↔ x ∈ rs ∨ x ∈ a :: as := by
  induction as generalizing a rs with
  | nil =>
    rw [List.eraseRepsBy.loop, List.reverse_cons]
    exact ⟨before, fun x => by simp⟩
  | cons b as ih =>
    obtain ⟨hle, hsorted⟩ := List.pairwise_cons.mp sorted
    rw [List.eraseRepsBy.loop]
    cases heq : a == b with
    | true =>
      obtain rfl := eq_of_beq heq
      obtain ⟨hpairwise, hmem⟩ := ih a rs hsorted before
      refine ⟨hpairwise, fun x => (hmem x).trans ?_⟩
      simp
    | false =>
      have hlt : a < b := lt_of_le_of_ne (hle b List.mem_cons_self) (ne_of_beq_false heq)
      have hbefore : ((a :: rs).reverse ++ [b]).Pairwise (· < ·) := by
        rw [List.reverse_cons]
        refine List.pairwise_append.mpr ⟨before, List.pairwise_singleton .., ?_⟩
        intro x hx y hy
        rw [List.mem_singleton.mp hy]
        rcases List.mem_append.mp hx with hx | hx
        · have hxa := (List.pairwise_append.mp before).2.2 x hx a (List.mem_singleton_self a)
          exact hxa.trans hlt
        · rw [List.mem_singleton.mp hx]
          exact hlt
      obtain ⟨hpairwise, hmem⟩ := ih b (a :: rs) hsorted hbefore
      refine ⟨hpairwise, fun x => (hmem x).trans ?_⟩
      simp only [List.mem_cons]
      tauto

theorem eraseReps_of_sorted {l : List α} (sorted : l.Pairwise (· ≤ ·)) :
    l.eraseReps.Pairwise (· < ·) ∧ ∀ x, x ∈ l.eraseReps ↔ x ∈ l := by
  cases l with
  | nil => exact ⟨.nil, fun x => Iff.rfl⟩
  | cons a as =>
    obtain ⟨hpairwise, hmem⟩ := eraseReps_loop a as [] sorted (List.pairwise_singleton ..)
    exact ⟨hpairwise, fun x => (hmem x).trans (or_iff_right List.not_mem_nil)⟩

end Repeats

namespace Registry

variable {ρ : Type} {r r' : Registry ρ} {scopeOf : ρ → Option String}

section Answers

/-- A registry in which the same subscribers are alive. -/
def SameLiving (r r' : Registry ρ) (scopeOf : ρ → Option String) : Prop :=
  r'.living scopeOf = r.living scopeOf

theorem fst_subscribersTo (r : Registry ρ) (scopeOf : ρ → Option String) (scope : String) :
    (r.subscribersTo scopeOf scope).1 = r.registered.filter fun s => scopeOf s = some scope := by
  unfold subscribersTo
  split <;> rfl

theorem filter_living (r : Registry ρ) (scopeOf : ρ → Option String) (scope : String) :
    (r.living scopeOf).filter (fun s => scopeOf s = some scope) =
      r.registered.filter fun s => scopeOf s = some scope := by
  rw [living, List.filter_filter]
  apply List.filter_congr
  intro s _
  cases scopeOf s <;> simp

theorem filterMap_living (r : Registry ρ) (scopeOf : ρ → Option String) :
    (r.living scopeOf).filterMap scopeOf = r.registered.filterMap scopeOf := by
  rw [living, List.filterMap_filter]
  apply List.filterMap_congr
  intro s _
  cases scopeOf s <;> rfl

/-- No answer depends on the dead. -/
theorem SameLiving.subscribersTo_eq (h : r.SameLiving r' scopeOf) (scope : String) :
    (r'.subscribersTo scopeOf scope).1 = (r.subscribersTo scopeOf scope).1 := by
  rw [fst_subscribersTo, fst_subscribersTo, ← filter_living, h, filter_living]

theorem SameLiving.size_eq (h : r.SameLiving r' scopeOf) : r'.size scopeOf = r.size scopeOf :=
  congrArg List.length h

theorem SameLiving.isEmpty_eq (h : r.SameLiving r' scopeOf) :
    r'.isEmpty scopeOf = r.isEmpty scopeOf := by
  rw [isEmpty, isEmpty, h.size_eq]

theorem SameLiving.livingScopes_eq (h : r.SameLiving r' scopeOf) :
    r'.livingScopes scopeOf = r.livingScopes scopeOf := by
  rw [livingScopes, livingScopes, ← filterMap_living, h, filterMap_living]

/-- The scopes of the living are told in ascending order, each once. -/
theorem livingScopes_spec (r : Registry ρ) (scopeOf : ρ → Option String) :
    (r.livingScopes scopeOf).Pairwise (· < ·) ∧ ∀ scope, scope ∈ r.livingScopes scopeOf ↔
      ∃ s ∈ r.registered, scopeOf s = some scope := by
  have hsorted : ((r.registered.filterMap scopeOf).mergeSort fun a b => decide (a ≤ b)).Pairwise
      fun a b => decide (a ≤ b) = true := by
    apply List.pairwise_mergeSort
    · exact fun a b c hab hbc =>
        decide_eq_true ((of_decide_eq_true hab).trans (of_decide_eq_true hbc))
    · exact fun a b => by simpa using le_total a b
  simp only [decide_eq_true_eq] at hsorted
  obtain ⟨hpairwise, hmem⟩ := eraseReps_of_sorted hsorted
  refine ⟨hpairwise, fun scope => (hmem scope).trans ?_⟩
  rw [List.mem_mergeSort, List.mem_filterMap]

end Answers

section Searches

/-- What a search may do to a registry: drop the dead, and all of them if there are any, with the
rest in order and as often as it is there. -/
structure Purged (r r' : Registry ρ) (scopeOf : ρ → Option String) : Prop where
  sublist : r'.registered.Sublist r.registered
  living : r.SameLiving r' scopeOf
  thorough : (∃ s ∈ r.registered, scopeOf s = none) →
    ∀ s ∈ r'.registered, (scopeOf s).isSome = true
  idle : (∀ s ∈ r.registered, (scopeOf s).isSome = true) → r' = r

theorem purged_subscribersTo (r : Registry ρ) (scopeOf : ρ → Option String) (scope : String) :
    r.Purged (r.subscribersTo scopeOf scope).2 scopeOf := by
  have hany : (r.registered.any fun s => (scopeOf s).isNone) = true ↔
      ∃ s ∈ r.registered, scopeOf s = none := by
    simp only [List.any_eq_true, Option.isNone_iff_eq_none]
  unfold subscribersTo
  split
  · rename_i hdead
    obtain ⟨s, hs, hnone⟩ := hany.mp hdead
    refine ⟨List.filter_sublist, ?_, ?_, fun alive => ?_⟩
    · rw [SameLiving, dropDead, living, living, List.filter_filter]
      simp only [Bool.and_self]
    · exact fun _ x hx => (List.mem_filter.mp hx).2
    · have halive := alive s hs
      rw [hnone] at halive
      cases halive
  · rename_i hnone
    exact ⟨.refl _, rfl, fun dead => absurd (hany.mpr dead) hnone, fun _ => rfl⟩

end Searches

end Registry

end ReadThrough
