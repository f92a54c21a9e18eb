/-!
# Cells with an identity

An arena hands out a reference for every value put into it. References stay valid,
are never handed out twice, and tell two cells apart whose contents are equal.
-/

namespace ReadThrough

/-- Names one cell of an arena of `α`. -/
@[ext]
structure Ref (α : Type) where
  index : Nat

instance {α : Type} : DecidableEq (Ref α) := fun r s =>
  decidable_of_iff (r.index = s.index) Ref.ext_iff.symm

/-- Growing storage whose cells are named by references. -/
structure Arena (α : Type) where
  cells : Array α

namespace Arena

variable {α : Type}

def empty : Arena α := ⟨#[]⟩

instance : Inhabited (Arena α) := ⟨empty⟩

def size (a : Arena α) : Nat := a.cells.size

def get? (a : Arena α) (r : Ref α) : Option α := a.cells[r.index]?

def next (a : Arena α) : Ref α := ⟨a.cells.size⟩

def add (a : Arena α) (x : α) : Arena α := ⟨a.cells.push x⟩

def modify (a : Arena α) (r : Ref α) (f : α → α) : Arena α := ⟨a.cells.modify r.index f⟩

@[simp] theorem get?_empty (r : Ref α) : (empty : Arena α).get? r = none := by
  simp [empty, get?]

theorem get?_add (a : Arena α) (x : α) (r : Ref α) :
    (a.add x).get? r = if r = a.next then some x else a.get? r := by
  simp only [get?, add, Array.getElem?_push, next, Ref.ext_iff]

@[simp] theorem get?_add_next (a : Arena α) (x : α) : (a.add x).get? a.next = some x := by
  simp [get?_add]

theorem get?_modify (a : Arena α) (r s : Ref α) (f : α → α) :
    (a.modify r f).get? s = if s = r then (a.get? s).map f else a.get? s := by
  simp only [get?, modify, Array.getElem?_modify, Ref.ext_iff]
  by_cases h : s.index = r.index
  · simp [h]
  · simp [h, Ne.symm h]

@[simp] theorem next_modify (a : Arena α) (r : Ref α) (f : α → α) :
    (a.modify r f).next = a.next := by
  simp [next, modify]

theorem get?_next (a : Arena α) : a.get? a.next = none := by
  simp [get?, next]

theorem get?_add_of_eq_some {a : Arena α} {r : Ref α} {y : α} (h : a.get? r = some y) (x : α) :
    (a.add x).get? r = some y := by
  rw [get?_add, if_neg, h]
  rintro rfl
  rw [get?_next] at h
  cases h

end Arena

end ReadThrough
