import ReadThrough.Span

/-!
# The text of a span

A span is written in the largest unit of which it holds at least one, down to
nanoseconds, as a decimal number without trailing zeros: `2.5s`, `1.5ms`, `5ns`.
-/

namespace ReadThrough.Span

/-- The digits of `n`, filled with zeros to `width` places in front. -/
def padded (width n : Nat) : List Char :=
  let digits := Nat.toDigits 10 n
  List.replicate (width - digits.length) '0' ++ digits

/-- The digits behind a decimal point, without the zeros they end in. -/
def trimmed (digits : List Char) : List Char :=
  (digits.reverse.dropWhile (· = '0')).reverse

/-- `whole` units and `part` of `10 ^ places` beyond them, followed by the unit's sign. -/
def decimal (whole part places : Nat) (unit : String) : String :=
  let behind := trimmed (padded places part)
  let point := if behind.isEmpty then [] else '.' :: behind
  String.ofList (Nat.toDigits 10 whole ++ point) ++ unit

def text (d : Span) : String :=
  if 0 < d.seconds then decimal d.seconds d.nanos 9 "s"
  else if 1000000 ≤ d.nanos then decimal (d.nanos / 1000000) (d.nanos % 1000000) 6 "ms"
  else if 1000 ≤ d.nanos then decimal (d.nanos / 1000) (d.nanos % 1000) 3 "µs"
  else decimal d.nanos 0 0 "ns"

end ReadThrough.Span
