import ReadThrough.Span

/-!
# When an entry is due for renewal

An entry lives from its creation to its expiry. Its renewal window is the third
quarter of that life, both ends excluded, and the usual policy renews an entry
whose latest access falls into the window. A policy sees the entry's three times
and the clock, nothing else. One that would have to look beyond the last point in time
cannot decide, and `Policy.decides_dueAfter_eq_overflow_iff` says when that is.
-/

namespace ReadThrough

/-- The times of an entry that a policy may look at. -/
structure Lifetime where
  access : Instant
  created : Instant
  expires : Instant
  deriving DecidableEq

/-- The open interval of accesses in which an entry is renewed ahead of its expiry. -/
structure Window where
  opens : Instant
  closes : Instant
  deriving DecidableEq

namespace Window

/-- The third quarter of a life. Both bounds are reached from `created`, so that
they stay between the two ends even for a life that is empty or reversed. -/
def ofLife (created expires : Instant) : Window :=
  let life := Span.between created expires
  { opens := created + (life.divide 2 (by decide)).toNanos
    closes := created + (life.minus (life.divide 4 (by decide))).toNanos }

def contains (w : Window) (t : Instant) : Bool :=
  decide (w.opens < t) && decide (t < w.closes)

end Window

/-- Whether the latest access of an entry lies strictly inside its window. -/
def Lifetime.renewalDue (l : Lifetime) : Bool :=
  (Window.ofLife l.created l.expires).contains l.access

/-- What a policy decides about an entry. It cannot decide if it would have to compare the clock
with a time beyond the last point in time. -/
inductive Decision where
  | keep
  | renew
  | overflow
  deriving DecidableEq

/-- The decision to renew an entry that is due, and no other. -/
def Decision.ofDue (due : Bool) : Decision := if due then .renew else .keep

@[simp] theorem Decision.ofDue_eq_renew_iff (due : Bool) : ofDue due = .renew ↔ due = true := by
  cases due <;> decide

@[simp] theorem Decision.ofDue_ne_overflow (due : Bool) : ofDue due ≠ .overflow := by
  cases due <;> decide

/-- The decision to renew as soon as the time `due?` has come, if that is a point in time. -/
def Decision.onceDue (due? : Option Instant) (now : Instant) : Decision :=
  match due? with
  | some due => .ofDue (decide (due ≤ now))
  | none => .overflow

theorem Decision.onceDue_eq_overflow_iff (due? : Option Instant) (now : Instant) :
    onceDue due? now = .overflow ↔ due? = none := by
  cases due? <;> simp [onceDue]

/-- Decides, at a point in time, whether an entry with these times is renewed. -/
structure Policy where
  decides : (now : Instant) → Lifetime → Decision

namespace Policy

/-- Renew in the third quarter, as measured by the latest access. -/
def thirdQuarter : Policy := ⟨fun _ l => .ofDue l.renewalDue⟩

def never : Policy := ⟨fun _ _ => .keep⟩

/-- Renew as soon as `age` has passed since the creation. -/
def dueAfter (age : Span) : Policy :=
  ⟨fun now l => .onceDue (Instant.after? l.created age.toNanos) now⟩

theorem decides_dueAfter_eq_overflow_iff (age : Span) (now : Instant) (l : Lifetime) :
    (dueAfter age).decides now l = .overflow ↔
      isRepresentable (l.created + age.toNanos) = false :=
  (Decision.onceDue_eq_overflow_iff _ now).trans Instant.after?_eq_none_iff

end Policy

end ReadThrough
