/-
# BorderSync.Duration -- spans of time counted in nanoseconds

A span is a whole number of nanoseconds. The longest one has `2 ^ 64 - 1` seconds and
`999_999_999` nanoseconds; a product that would be longer has no value. A span is shown in the
largest unit that has a whole part, with as many decimal places as it needs.
-/

namespace BorderSync

/-- A span of time. -/
structure Duration where
  nanos : Nat
  deriving DecidableEq, Repr, Hashable

namespace Duration

/-- The span of `n` seconds. -/
def ofSecs (n : Nat) : Duration := ⟨n * 1000000000⟩

/-- The span of `n` milliseconds. -/
def ofMillis (n : Nat) : Duration := ⟨n * 1000000⟩

/-- The longest span. -/
def longest : Duration := ⟨(Nat.pow 2 64 - 1) * 1000000000 + 999999999⟩

/-- `k` times the span, unless that is longer than the longest one. -/
def scale? (d : Duration) (k : Nat) : Option Duration :=
  if d.nanos * k ≤ longest.nanos then some ⟨d.nanos * k⟩ else none

/-- The shorter of two spans. -/
def least (a b : Duration) : Duration :=
  ⟨min a.nanos b.nanos⟩

/-- Whole milliseconds, rounded up: a timer never fires early. -/
def ceilMillis (d : Duration) : Nat :=
  (d.nanos + 999999) / 1000000

/-- The digits after the decimal point of `part / unit`, without trailing zeros. -/
def fraction (unit part : Nat) : String :=
  if part = 0 then ""
  else
    let padded := (toString (unit + part)).toList.drop 1
    "." ++ String.ofList (padded.reverse.dropWhile (· = '0')).reverse

/-- `n` nanoseconds counted in `unit`s with the given symbol. -/
def inUnit (n unit : Nat) (symbol : String) : String :=
  toString (n / unit) ++ fraction unit (n % unit) ++ symbol

/-- The text of a span: the largest unit with a whole part decides. -/
def text (d : Duration) : String :=
  if 1000000000 ≤ d.nanos then inUnit d.nanos 1000000000 "s"
  else if 1000000 ≤ d.nanos then inUnit d.nanos 1000000 "ms"
  else if 1000 ≤ d.nanos then inUnit d.nanos 1000 "µs"
  else inUnit d.nanos 1 "ns"

end Duration

end BorderSync
