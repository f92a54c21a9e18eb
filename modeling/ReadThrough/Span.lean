/-!
# Lengths of time

Points in time are counted in nanoseconds from the clock's zero, and end where their
whole seconds leave a signed word. A span is held as whole seconds and the
nanoseconds beyond them; its arithmetic carries between the two fields, and `toNanos`
says what it stands for. Division is by a whole number and drops the fraction of a
nanosecond.
-/

namespace ReadThrough

/-- A point in time, in nanoseconds from the clock's zero. -/
abbrev Instant := Nat

def nanosPerSecond : Nat := 1000000000

/-- The least number of whole seconds that a signed 64-bit word does not hold. -/
def secondsLimit : Nat := 0x8000000000000000

/-- Points in time are representable as long as their whole seconds fit a signed word. -/
def isRepresentable (t : Instant) : Bool := decide (t / nanosPerSecond < secondsLimit)

/-- The point in time `n` nanoseconds after `t`, if there is one. -/
def Instant.after? (t : Instant) (n : Nat) : Option Instant :=
  if isRepresentable (t + n) then some (t + n) else none

theorem Instant.after?_eq_some_iff {t : Instant} {n : Nat} {u : Instant} :
    Instant.after? t n = some u ↔ isRepresentable u = true ∧ u = t + n := by
  unfold Instant.after?
  split <;> grind

theorem Instant.after?_eq_none_iff {t : Instant} {n : Nat} :
    Instant.after? t n = none ↔ isRepresentable (t + n) = false := by
  unfold Instant.after?
  split <;> simp_all

/-- A length of time, to the nanosecond. -/
@[ext]
structure Span where
  seconds : Nat
  nanos : Nat
  nanos_lt : nanos < nanosPerSecond
  deriving DecidableEq

namespace Span

def toNanos (d : Span) : Nat := nanosPerSecond * d.seconds + d.nanos

def ofNanos (n : Nat) : Span where
  seconds := n / nanosPerSecond
  nanos := n % nanosPerSecond
  nanos_lt := Nat.mod_lt _ (by decide)

@[simp] theorem toNanos_ofNanos (n : Nat) : (ofNanos n).toNanos = n :=
  Nat.div_add_mod n nanosPerSecond

def ofSeconds (n : Nat) : Span := ⟨n, 0, by decide⟩

instance : Inhabited Span := ⟨ofSeconds 0⟩

def isZero (d : Span) : Bool := d.seconds == 0 && d.nanos == 0

theorem isZero_iff (d : Span) : d.isZero = true ↔ d.toNanos = 0 := by
  simp only [isZero, toNanos, nanosPerSecond, Bool.and_eq_true, beq_iff_eq]
  omega

/-- The time from `start` to `stop`, nothing when `stop` comes first. -/
def between (start stop : Instant) : Span := ofNanos (stop - start)

@[simp] theorem toNanos_between (start stop : Instant) :
    (between start stop).toNanos = stop - start :=
  toNanos_ofNanos _

/-- One `k`-th of a span: the seconds left over by the division are carried into
the nanoseconds, and what is then left over is dropped. -/
def divide (d : Span) (k : Nat) (hk : 0 < k) : Span where
  seconds := d.seconds / k
  nanos := (d.seconds % k * nanosPerSecond + d.nanos) / k
  nanos_lt := by
    have h := d.nanos_lt
    have hr := Nat.mod_lt d.seconds hk
    apply Nat.div_lt_of_lt_mul
    calc d.seconds % k * nanosPerSecond + d.nanos
        < d.seconds % k * nanosPerSecond + nanosPerSecond := by omega
      _ = (d.seconds % k + 1) * nanosPerSecond := by rw [Nat.succ_mul]
      _ ≤ k * nanosPerSecond := Nat.mul_le_mul_right _ hr

theorem toNanos_divide (d : Span) {k : Nat} (hk : 0 < k) :
    (d.divide k hk).toNanos = d.toNanos / k := by
  have h : d.toNanos = d.seconds % k * nanosPerSecond + d.nanos
      + k * (nanosPerSecond * (d.seconds / k)) := by
    have hm := Nat.div_add_mod d.seconds k
    calc d.toNanos = nanosPerSecond * (k * (d.seconds / k) + d.seconds % k) + d.nanos := by
          rw [hm]; rfl
      _ = _ := by rw [Nat.mul_add, Nat.mul_left_comm, Nat.mul_comm nanosPerSecond (_ % k)]; omega
  rw [h, Nat.add_mul_div_left _ _ hk]
  simp only [divide, toNanos]
  omega

/-- The difference of two spans, borrowing a second where the nanoseconds fall
short; nothing when `e` is the longer one. -/
def minus (d e : Span) : Span :=
  if e.nanos ≤ d.nanos then
    if e.seconds ≤ d.seconds then
      ⟨d.seconds - e.seconds, d.nanos - e.nanos, Nat.lt_of_le_of_lt (Nat.sub_le _ _) d.nanos_lt⟩
    else ofSeconds 0
  else
    if h : e.seconds < d.seconds ∧ d.nanos < e.nanos then
      ⟨d.seconds - e.seconds - 1, nanosPerSecond + d.nanos - e.nanos, by
        have := e.nanos_lt
        omega⟩
    else ofSeconds 0

theorem toNanos_minus (d e : Span) : (d.minus e).toNanos = d.toNanos - e.toNanos := by
  have hd := d.nanos_lt
  have he := e.nanos_lt
  simp only [nanosPerSecond] at hd he
  unfold minus
  split
  · split <;> simp only [toNanos, ofSeconds, nanosPerSecond] <;> omega
  · split <;> simp only [toNanos, ofSeconds, nanosPerSecond] <;> omega

end Span

end ReadThrough
