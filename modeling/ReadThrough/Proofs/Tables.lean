import Mathlib.Algebra.GroupWithZero.Nat
import Mathlib.Data.List.Nodup
import Mathlib.Logic.Function.Basic
import ReadThrough.Table

/-!
# Tables as functions

Putting a value into a table and erasing one change the function that looks keys up at one place.
-/

namespace ReadThrough

variable {ι α : Type} [DecidableEq ι]

theorem update_eq_some {t : ι → Option α} {i j : ι} {o : Option α} {a : α}
    (h : Function.update t i o j = some a) : j = i ∧ o = some a ∨ j ≠ i ∧ t j = some a := by
  by_cases hi : j = i
  · subst hi
    exact .inl ⟨rfl, by simpa using h⟩
  · exact .inr ⟨hi, by simpa [hi] using h⟩

theorem update_of_eq_some {t : ι → Option α} {i : ι} {a : α} (h : t i = some a) :
    Function.update t i (some a) = t := by
  rw [← h, Function.update_eq_self]

theorem Table.get?_put_eq_update (t : Table ι α) (i : ι) (a : α) :
    (t.put i a).get? = Function.update t.get? i (some a) := by
  funext j
  rw [Table.get?_put, Function.update_apply]

theorem Table.get?_erase_eq_update (t : Table ι α) (i : ι) :
    (t.erase i).get? = Function.update t.get? i none := by
  funext j
  rw [Table.get?_erase, Function.update_apply]

namespace Table

variable {t t' : Table ι α} {i : ι} {a : α}

omit [DecidableEq ι] in
theorem nodup_toList (t : Table ι α) : t.toList.Nodup := t.nodup_keys.of_map

/-- Tables in which the same is found have the same pairs, in whatever order. -/
theorem perm_of_get? (h : t'.get? = t.get?) : t'.toList.Perm t.toList := by
  rw [List.perm_ext_iff_of_nodup t'.nodup_toList t.nodup_toList]
  rintro ⟨j, b⟩
  rw [← get?_eq_some_iff, ← get?_eq_some_iff, h]

theorem perm_put (t : Table ι α) (i : ι) (a : α) :
    (t.put i a).toList.Perm ((i, a) :: (t.erase i).toList) := by
  have hnot : (i, a) ∉ (t.erase i).toList := by
    rw [← get?_eq_some_iff, get?_erase, if_pos rfl]
    exact nofun
  rw [List.perm_ext_iff_of_nodup (nodup_toList _) (List.nodup_cons.mpr ⟨hnot, nodup_toList _⟩)]
  rintro ⟨j, b⟩
  rw [List.mem_cons, ← get?_eq_some_iff, ← get?_eq_some_iff, get?_put, get?_erase]
  by_cases hj : j = i
  · simp [hj, eq_comm]
  · simp [hj]

theorem perm_erase_of_present (h : t.get? i = some a) :
    t.toList.Perm ((i, a) :: (t.erase i).toList) := by
  have hput : t.get? = (t.put i a).get? := by rw [get?_put_eq_update, update_of_eq_some h]
  exact (perm_of_get? hput).trans (t.perm_put i a)

theorem perm_erase_of_absent (h : t.get? i = none) : (t.erase i).toList.Perm t.toList := by
  refine perm_of_get? ?_
  rw [get?_erase_eq_update, ← h, Function.update_eq_self]

theorem size_erase_of_present (h : t.get? i = some a) : (t.erase i).size + 1 = t.size :=
  (perm_erase_of_present h).length_eq.symm

theorem size_put_of_absent (h : t.get? i = none) (a : α) : (t.put i a).size = t.size + 1 :=
  (t.perm_put i a).length_eq.trans (congrArg (· + 1) (perm_erase_of_absent h).length_eq)

theorem size_put_of_present {b : α} (h : t.get? i = some b) (a : α) : (t.put i a).size = t.size :=
  (t.perm_put i a).length_eq.trans (size_erase_of_present h)

theorem size_of_update_none (h : t'.get? = Function.update t.get? i none) :
    t'.size + (t.contains i).toNat = t.size := by
  rw [← get?_erase_eq_update] at h
  have hsize : t'.size = (t.erase i).size := (perm_of_get? h).length_eq
  rw [hsize, contains]
  cases hi : t.get? i with
  | none => exact (perm_erase_of_absent hi).length_eq
  | some a => exact size_erase_of_present hi

theorem size_of_update_some (h : t'.get? = Function.update t.get? i (some a)) :
    t'.size + (t.contains i).toNat = t.size + 1 := by
  rw [← get?_put_eq_update] at h
  have hsize : t'.size = (t.put i a).size := (perm_of_get? h).length_eq
  rw [hsize, contains]
  cases hi : t.get? i with
  | none => exact size_put_of_absent hi a
  | some b => exact congrArg (· + 1) (size_put_of_present hi a)

theorem size_pos_iff : 0 < t.size ↔ ∃ i a, t.get? i = some a := by
  simp only [size, List.length_pos_iff_exists_mem, Prod.exists, get?_eq_some_iff]

omit [DecidableEq ι] in
/-- What the values come to in all, each for `f` of it. -/
def total (t : Table ι α) (f : α → Nat) : Nat := (t.values.map f).sum

theorem total_erase (t : Table ι α) (i : ι) (f : α → Nat) :
    (t.erase i).total f + (t.get? i).elim 0 f = t.total f := by
  have hsum : ∀ {xs ys : List (ι × α)}, xs.Perm ys →
      ((xs.map Prod.snd).map f).sum = ((ys.map Prod.snd).map f).sum :=
    fun h => ((h.map _).map _).sum_nat
  cases hi : t.get? i with
  | none => exact hsum (perm_erase_of_absent hi)
  | some a => exact (Nat.add_comm ..).trans (hsum (perm_erase_of_present hi)).symm

theorem total_put (t : Table ι α) (i : ι) (a : α) (f : α → Nat) :
    (t.put i a).total f + (t.get? i).elim 0 f = t.total f + f a := by
  have hput : (t.put i a).total f = f a + (t.erase i).total f :=
    (((t.perm_put i a).map Prod.snd).map f).sum_nat
  rw [hput, ← t.total_erase i f]
  omega

theorem total_pos_iff {f : α → Nat} : 0 < t.total f ↔ ∃ i a, t.get? i = some a ∧ 0 < f a := by
  rw [total, List.sum_pos_iff_exists_pos_nat]
  simp only [values, List.map_map, List.mem_map, get?_eq_some_iff, Prod.exists, Function.comp_apply]
  constructor
  · rintro ⟨n, ⟨i, a, hmem, rfl⟩, hpos⟩
    exact ⟨i, a, hmem, hpos⟩
  · rintro ⟨i, a, hmem, hpos⟩
    exact ⟨_, ⟨i, a, hmem, rfl⟩, hpos⟩

end Table

theorem Table.get?_put_self (t : Table ι α) (i : ι) (a : α) : (t.put i a).get? i = some a := by
  rw [Table.get?_put, if_pos rfl]

theorem Table.get?_put_cases {t : Table ι α} {i j : ι} {a b : α}
    (h : (t.put i a).get? j = some b) : j = i ∨ ∃ c, t.get? j = some c := by
  rw [Table.get?_put] at h
  split at h
  · exact .inl ‹_›
  · exact .inr ⟨b, h⟩

theorem Table.get?_erase_eq_some_iff {t : Table ι α} {i j : ι} {a : α} :
    (t.erase i).get? j = some a ↔ t.get? j = some a ∧ j ≠ i := by
  rw [Table.get?_erase]
  by_cases hj : j = i
  · simp [hj]
  · simp [hj]

theorem Table.get?_of_get?_erase {t : Table ι α} {i j : ι} {a : α}
    (h : (t.erase i).get? j = some a) : t.get? j = some a :=
  (Table.get?_erase_eq_some_iff.mp h).1

end ReadThrough
