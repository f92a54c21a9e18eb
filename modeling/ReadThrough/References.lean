import ReadThrough.Table

/-!
# Counted references

Whatever is shared stays alive for as long as somebody refers to it. Each reference that is taken
is counted, and each that is given up.
-/

namespace ReadThrough

/-- How many references there are to each of those that are shared. -/
structure References (ρ : Type) where
  counts : Table ρ Nat

namespace References

variable {ρ : Type}

def empty : References ρ := ⟨.empty⟩

instance : Inhabited (References ρ) := ⟨empty⟩

variable [DecidableEq ρ]

def count (t : References ρ) (s : ρ) : Nat := t.counts.getD s 0

def retain (t : References ρ) (s : ρ) (n : Nat) : References ρ := ⟨t.counts.put s (t.count s + n)⟩

def release (t : References ρ) (s : ρ) (n : Nat) : References ρ := ⟨t.counts.put s (t.count s - n)⟩

/-- Take a reference for each time that somebody stands in the list. -/
def retainAll (t : References ρ) (xs : List ρ) : References ρ :=
  xs.foldl (fun t s => t.retain s 1) t

def releaseAll (t : References ρ) (xs : List ρ) : References ρ :=
  xs.foldl (fun t s => t.release s 1) t

theorem count_retain (t : References ρ) (s q : ρ) (n : Nat) :
    (t.retain s n).count q = t.count q + if q = s then n else 0 := by
  rw [count, retain, Table.getD, Table.get?_put]
  split
  · rename_i hq
    rw [hq]
    rfl
  · rfl

theorem count_release (t : References ρ) (s q : ρ) (n : Nat) :
    (t.release s n).count q = t.count q - if q = s then n else 0 := by
  rw [count, release, Table.getD, Table.get?_put]
  split
  · rename_i hq
    rw [hq]
    rfl
  · rfl

theorem count_retainAll (t : References ρ) (xs : List ρ) (q : ρ) :
    (t.retainAll xs).count q = t.count q + xs.count q := by
  induction xs generalizing t with
  | nil => rfl
  | cons x xs ih =>
    have hstep := ih (t.retain x 1)
    rw [count_retain] at hstep
    rw [retainAll, List.foldl_cons, List.count_cons]
    refine hstep.trans ?_
    by_cases hq : q = x
    · simp only [hq, if_true, beq_self_eq_true]
      omega
    · simp only [hq, if_false, beq_iff_eq, Ne.symm hq]
      omega

theorem count_releaseAll (t : References ρ) (xs : List ρ) (q : ρ) :
    (t.releaseAll xs).count q = t.count q - xs.count q := by
  induction xs generalizing t with
  | nil => rfl
  | cons x xs ih =>
    have hstep := ih (t.release x 1)
    rw [count_release] at hstep
    rw [releaseAll, List.foldl_cons, List.count_cons]
    refine hstep.trans ?_
    by_cases hq : q = x
    · simp only [hq, if_true, beq_self_eq_true]
      omega
    · simp only [hq, if_false, beq_iff_eq, Ne.symm hq]
      omega

end References

end ReadThrough
