import Mathlib.Data.Real.Basic
import Mathlib.Order.Interval.Set.Defs
import ReadThrough.Proofs.Window

/-!
# The renewal window is exact

The bounds of the window are computed from spans of seconds and nanoseconds, which are halved and
quartered with a remainder, and both are reached from the creation. None of this shows. An access is
inside the window exactly if it lies strictly inside the third quarter of the life, measured over
the reals, whatever the divisions leave over; and the computation stays between the creation and the
expiry, so that it never runs beyond the points in time.
-/

namespace ReadThrough

/-- How long the life from `created` to `expires` lasts: not at all if it is reversed. -/
def lifeLength (created expires : Instant) : ℤ := max 0 ((expires : ℤ) - created)

section Exact

variable {created expires access : Nat}

theorem inThirdQuarter_iff_lifeLength : InThirdQuarter created expires access ↔
    lifeLength created expires < 2 * ((access : ℤ) - created) ∧
      lifeLength created expires < 4 * ((expires : ℤ) - access) := by
  rw [inThirdQuarter_iff, lifeLength]
  omega

/-- Over the reals, a part of a length may be taken before it is compared. -/
theorem lt_mul_sub_iff {n a b w : ℤ} (hn : 0 < n) : w < n * (b - a) ↔ (a : ℝ) + w / n < b := by
  have hcast : (0 : ℝ) < n := Int.cast_pos.mpr hn
  rw [← lt_sub_iff_add_lt', div_lt_iff₀' hcast, ← Int.cast_sub, ← Int.cast_mul, Int.cast_lt]

theorem inThirdQuarter_iff_mem_Ioo : InThirdQuarter created expires access ↔
    (access : ℝ) ∈ Set.Ioo ((created : ℝ) + lifeLength created expires / 2)
      ((expires : ℝ) - lifeLength created expires / 4) := by
  rw [inThirdQuarter_iff_lifeLength, Set.mem_Ioo, lt_sub_iff_add_lt, lt_mul_sub_iff two_pos,
    lt_mul_sub_iff four_pos]
  simp only [Int.cast_natCast, Int.cast_ofNat]

theorem not_inThirdQuarter_of_le (reversed : expires ≤ created) :
    ¬ InThirdQuarter created expires access := by
  rw [inThirdQuarter_iff]
  omega

theorem inThirdQuarter_add_iff (n : Nat) :
    InThirdQuarter (created + n) (expires + n) (access + n) ↔
      InThirdQuarter created expires access := by
  rw [inThirdQuarter_iff, inThirdQuarter_iff]
  omega

end Exact

/-- Whatever comes before a point in time is one, too. -/
theorem isRepresentable_of_le {t u : Instant} (h : t ≤ u) (hu : isRepresentable u = true) :
    isRepresentable t = true := by
  rw [isRepresentable, decide_eq_true_iff] at hu ⊢
  exact (Nat.div_le_div_right h).trans_lt hu

theorem isRepresentable_max {t u : Instant} (ht : isRepresentable t = true)
    (hu : isRepresentable u = true) : isRepresentable (max t u) = true := by
  rcases le_total t u with h | h
  · rw [max_eq_right h]
    exact hu
  · rw [max_eq_left h]
    exact ht

namespace Window

variable (created expires : Instant)

/-- The half of a life that the window opens after. -/
def half : Span := (Span.between created expires).divide 2 (Nat.succ_pos 1)

/-- The quarter of a life that the window is closed for. -/
def quarter : Span := (Span.between created expires).divide 4 (Nat.succ_pos 3)

theorem toNanos_half : (half created expires).toNanos = (expires - created) / 2 := by
  rw [half, Span.toNanos_divide, Span.toNanos_between]

theorem toNanos_quarter : (quarter created expires).toNanos = (expires - created) / 4 := by
  rw [quarter, Span.toNanos_divide, Span.toNanos_between]

theorem opens_ofLife : (ofLife created expires).opens = created + (half created expires).toNanos :=
  rfl

theorem closes_ofLife : (ofLife created expires).closes =
    created + ((Span.between created expires).minus (quarter created expires)).toNanos :=
  rfl

theorem opens_mem_Icc :
    (ofLife created expires).opens ∈ Set.Icc created (max created expires) := by
  rw [Set.mem_Icc, opens_ofLife, toNanos_half]
  simp only [Instant]
  omega

theorem closes_mem_Icc :
    (ofLife created expires).closes ∈ Set.Icc created (max created expires) := by
  rw [Set.mem_Icc, closes_ofLife, Span.toNanos_minus, Span.toNanos_between, toNanos_quarter]
  simp only [Instant]
  omega

variable {created expires}

theorem after?_eq_some_of_mem_Icc {n : Nat}
    (inside : created + n ∈ Set.Icc created (max created expires))
    (hcreated : isRepresentable created = true) (hexpires : isRepresentable expires = true) :
    Instant.after? created n = some (created + n) :=
  Instant.after?_eq_some_iff.mpr
    ⟨isRepresentable_of_le inside.2 (isRepresentable_max hcreated hexpires), rfl⟩

end Window

/-- How the renewal window of a life from `created` to `expires` is computed makes no difference: it
is that of the reals, at any distance from the clock's zero, and a life that is empty or reversed
has none. Between points in time nothing overflows. -/
structure ExactWindow (created expires : Instant) : Prop where
  due_iff : ∀ access, (Lifetime.mk access created expires).renewalDue = true ↔
    lifeLength created expires < 2 * ((access : ℤ) - created) ∧
      lifeLength created expires < 4 * ((expires : ℤ) - access)
  due_iff_mem_Ioo : ∀ access, (Lifetime.mk access created expires).renewalDue = true ↔
    (access : ℝ) ∈ Set.Ioo ((created : ℝ) + lifeLength created expires / 2)
      ((expires : ℝ) - lifeLength created expires / 4)
  never_due : expires ≤ created →
    ∀ access, (Lifetime.mk access created expires).renewalDue = false
  due_add : ∀ access n, (Lifetime.mk (access + n) (created + n) (expires + n)).renewalDue =
    (Lifetime.mk access created expires).renewalDue
  opens_mem_Icc : (Window.ofLife created expires).opens ∈ Set.Icc created (max created expires)
  closes_mem_Icc : (Window.ofLife created expires).closes ∈ Set.Icc created (max created expires)
  quarter_le : (Window.quarter created expires).toNanos ≤ (Span.between created expires).toNanos
  no_overflow : isRepresentable created = true → isRepresentable expires = true →
    (Span.between created expires).seconds < secondsLimit ∧
    Instant.after? created (Window.half created expires).toNanos =
      some (Window.ofLife created expires).opens ∧
    Instant.after? created
        ((Span.between created expires).minus (Window.quarter created expires)).toNanos =
      some (Window.ofLife created expires).closes

/-- The renewal window is the third quarter of a life, to the nanosecond and at every length. -/
theorem exact_window (created expires : Instant) : ExactWindow created expires := by
  constructor
  case due_iff =>
    intro access
    rw [Lifetime.renewalDue_iff, inThirdQuarter_iff_lifeLength]
  case due_iff_mem_Ioo =>
    intro access
    rw [Lifetime.renewalDue_iff, inThirdQuarter_iff_mem_Ioo]
  case never_due =>
    intro reversed access
    rw [← Bool.not_eq_true, Lifetime.renewalDue_iff]
    exact not_inThirdQuarter_of_le reversed
  case due_add =>
    intro access n
    rw [Bool.eq_iff_iff, Lifetime.renewalDue_iff, Lifetime.renewalDue_iff]
    exact inThirdQuarter_add_iff n
  case opens_mem_Icc => exact Window.opens_mem_Icc created expires
  case closes_mem_Icc => exact Window.closes_mem_Icc created expires
  case quarter_le =>
    rw [Window.toNanos_quarter, Span.toNanos_between]
    exact Nat.div_le_self _ _
  case no_overflow =>
    intro hcreated hexpires
    have hreached : ∀ n, created + n ∈ Set.Icc created (max created expires) →
        Instant.after? created n = some (created + n) :=
      fun n inside => Window.after?_eq_some_of_mem_Icc inside hcreated hexpires
    refine ⟨?_, hreached _ (Window.opens_mem_Icc created expires),
      hreached _ (Window.closes_mem_Icc created expires)⟩
    rw [isRepresentable, decide_eq_true_iff] at hexpires
    exact (Nat.div_le_div_right (Nat.sub_le _ _)).trans_lt hexpires

end ReadThrough
