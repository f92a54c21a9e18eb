import Mathlib.Algebra.Order.Field.Rat
import Mathlib.Data.Rat.Cast.Order
import Mathlib.Tactic.Linarith
import ReadThrough.Freshness

/-!
# The renewal window is the third quarter

The bounds of the renewal window are computed from durations that are cut off to whole nanoseconds.
As times are whole nanoseconds too, this makes no difference: an access is inside the window exactly
if it lies strictly inside the third quarter of the life.
-/

namespace ReadThrough

/-- The time lies strictly inside the third quarter of the life from `created` to `expires`. -/
def InThirdQuarter (created expires time : Instant) : Prop :=
  (created : ℚ) + ((expires : ℚ) - created) / 2 < time ∧
    (time : ℚ) < expires - ((expires : ℚ) - created) / 4

variable {created expires time : Nat}

theorem inThirdQuarter_iff : InThirdQuarter created expires time ↔
    created + expires < 2 * time ∧ 4 * time < 3 * expires + created := by
  have hopens : (created : ℚ) + ((expires : ℚ) - created) / 2 < time ↔
      ((created + expires : ℕ) : ℚ) < (2 * time : ℕ) := by
    push_cast
    constructor
    · intro h
      linarith
    · intro h
      linarith
  have hcloses : (time : ℚ) < expires - ((expires : ℚ) - created) / 4 ↔
      ((4 * time : ℕ) : ℚ) < (3 * expires + created : ℕ) := by
    push_cast
    constructor
    · intro h
      linarith
    · intro h
      linarith
  rw [InThirdQuarter, hopens, hcloses, Nat.cast_lt, Nat.cast_lt]

theorem Window.contains_ofLife_iff :
    (ofLife created expires).contains time = true ↔ InThirdQuarter created expires time := by
  rw [inThirdQuarter_iff, contains, Bool.and_eq_true, decide_eq_true_iff, decide_eq_true_iff]
  simp only [ofLife, Span.toNanos_divide, Span.toNanos_minus, Span.toNanos_between, Instant]
  omega

/-- An entry is due for a renewal exactly in the third quarter of its life. -/
theorem Lifetime.renewalDue_iff (l : Lifetime) :
    l.renewalDue = true ↔ InThirdQuarter l.created l.expires l.access :=
  Window.contains_ofLife_iff

theorem not_inThirdQuarter_created : ¬ InThirdQuarter created expires created := by
  rw [inThirdQuarter_iff]
  omega

end ReadThrough
