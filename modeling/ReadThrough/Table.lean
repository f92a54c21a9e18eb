/-!
# Finite maps in insertion order

A table maps keys to values and remembers the order in which keys first came in;
no key occurs twice. Each operation is described through `get?`.
-/

namespace ReadThrough

/-- A finite map that keeps the order in which its keys were first put. -/
@[ext]
structure Table (κ : Type) (α : Type) where
  toList : List (κ × α)
  nodup_keys : (toList.map Prod.fst).Nodup

namespace Table

variable {κ α : Type}

def empty : Table κ α := ⟨[], List.nodup_nil⟩

instance : Inhabited (Table κ α) := ⟨empty⟩

def keys (t : Table κ α) : List κ := t.toList.map Prod.fst

def values (t : Table κ α) : List α := t.toList.map Prod.snd

def size (t : Table κ α) : Nat := t.toList.length

def keep (t : Table κ α) (p : κ → α → Bool) : Table κ α where
  toList := t.toList.filter fun x => p x.1 x.2
  nodup_keys := t.nodup_keys.sublist (List.filter_sublist.map _)

variable [DecidableEq κ]

def get? (t : Table κ α) (k : κ) : Option α :=
  (t.toList.find? fun x => decide (x.1 = k)).map Prod.snd

def contains (t : Table κ α) (k : κ) : Bool := (t.get? k).isSome

theorem get?_eq_none_iff {t : Table κ α} {k : κ} : t.get? k = none ↔ k ∉ t.keys := by
  simp only [get?, keys, Option.map_eq_none_iff, List.find?_eq_none, decide_eq_true_eq,
    List.mem_map, not_exists, not_and]

theorem get?_eq_some_iff {t : Table κ α} {k : κ} {a : α} :
    t.get? k = some a ↔ (k, a) ∈ t.toList := by
  obtain ⟨xs, h⟩ := t
  simp only [get?]
  induction xs with
  | nil => simp
  | cons x xs ih =>
    obtain ⟨k', a'⟩ := x
    simp only [List.map_cons, List.nodup_cons] at h
    by_cases hk : k' = k
    · subst hk
      have hnot : (k', a) ∉ xs := fun hm => h.1 (List.mem_map.mpr ⟨_, hm, rfl⟩)
      simp [hnot, eq_comm]
    · have hne : ¬ (k = k') := fun e => hk e.symm
      simp [hk, hne, ih h.2]

private theorem map_overwrite_keys (xs : List (κ × α)) (k : κ) (a : α) :
    (xs.map fun x => if x.1 = k then (k, a) else x).map Prod.fst = xs.map Prod.fst := by
  rw [List.map_map]
  apply List.map_congr_left
  intro x _
  by_cases h : x.1 = k <;> simp [h]

/-- Store `a` under `k`: in place of the former value, or else at the end. -/
def put (t : Table κ α) (k : κ) (a : α) : Table κ α :=
  if h : t.contains k then
    { toList := t.toList.map fun x => if x.1 = k then (k, a) else x
      nodup_keys := by rw [map_overwrite_keys]; exact t.nodup_keys }
  else
    { toList := t.toList ++ [(k, a)]
      nodup_keys := by
        have hk : k ∉ t.toList.map Prod.fst := get?_eq_none_iff.mp (by simpa [contains] using h)
        simp only [List.map_append, List.map_cons, List.map_nil]
        rw [List.nodup_append]
        refine ⟨t.nodup_keys, List.nodup_cons.mpr ⟨List.not_mem_nil, List.nodup_nil⟩, ?_⟩
        intro x hx y hy hxy
        rw [List.mem_singleton] at hy
        exact hk (hy ▸ hxy ▸ hx) }

def erase (t : Table κ α) (k : κ) : Table κ α := t.keep fun k' _ => decide (k' ≠ k)

def getD (t : Table κ α) (k : κ) (fallback : α) : α := (t.get? k).getD fallback

@[simp] theorem get?_empty (k : κ) : (empty : Table κ α).get? k = none := rfl

theorem get?_keep (t : Table κ α) (p : κ → α → Bool) (k : κ) :
    (t.keep p).get? k = (t.get? k).filter (p k) := by
  ext a
  rw [Option.filter_eq_some_iff, get?_eq_some_iff, get?_eq_some_iff]
  simp [keep]

theorem get?_erase (t : Table κ α) (k j : κ) :
    (t.erase k).get? j = if j = k then none else t.get? j := by
  rw [erase, get?_keep]
  by_cases h : j = k
  · cases t.get? j <;> simp [h, Option.filter]
  · cases t.get? j <;> simp [h, Option.filter]

theorem get?_put (t : Table κ α) (k j : κ) (a : α) :
    (t.put k a).get? j = if j = k then some a else t.get? j := by
  ext b
  rw [get?_eq_some_iff]
  by_cases hc : t.contains k
  · simp only [put, hc, ↓reduceDIte, List.mem_map, Prod.exists]
    by_cases hj : j = k
    · subst hj
      obtain ⟨a', ha⟩ := Option.isSome_iff_exists.mp hc
      rw [get?_eq_some_iff] at ha
      simp only [↓reduceIte, Option.some.injEq]
      constructor
      · rintro ⟨k', b', hm, he⟩
        by_cases hk : k' = j
        · simpa [hk] using he
        · simp [hk] at he
      · intro h
        exact ⟨j, a', ha, by simp [h]⟩
    · simp only [hj, ↓reduceIte, get?_eq_some_iff]
      constructor
      · rintro ⟨k', b', hm, he⟩
        by_cases hk : k' = k
        · simp [hk] at he
          exact absurd he.1.symm hj
        · simp only [hk, ↓reduceIte, Prod.mk.injEq] at he
          exact he.1 ▸ he.2 ▸ hm
      · intro hm
        exact ⟨j, b, hm, by simp [hj]⟩
  · have hn : t.get? k = none := by simpa [contains] using hc
    simp only [put, hc, Bool.false_eq_true, ↓reduceDIte, List.mem_append, List.mem_singleton,
      Prod.mk.injEq]
    by_cases hj : j = k
    · subst hj
      rw [← get?_eq_some_iff, hn]
      simp [eq_comm]
    · simp [hj, get?_eq_some_iff]

end Table

end ReadThrough
