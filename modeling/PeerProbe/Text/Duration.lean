import PeerProbe.Text.Decimal

/-!
# Durations

A span of time in nanoseconds and the text in which messages show it: the largest unit of seconds,
milliseconds, microseconds and nanoseconds that has a whole part, with the remainder as decimals
without trailing zeros.
-/

namespace PeerProbe

/-- A span of time. -/
structure Duration where
  nanos : Nat
  deriving DecidableEq, Repr, Inhabited

namespace Duration

/-- A number of milliseconds. -/
def ofMillis (n : Nat) : Duration := ⟨n * 1000000⟩

/-- A number of seconds. -/
def ofSecs (n : Nat) : Duration := ⟨n * 1000000000⟩

/-- The whole milliseconds of a span. -/
def millis (d : Duration) : Nat := d.nanos / 1000000

/-- No time at all. -/
def isZero (d : Duration) : Bool := d.nanos = 0

/-- A fraction of `width` digits without its trailing zeros, behind a point. -/
def fraction (width n : Nat) : List Char :=
  let ds := Text.decimal n
  let padded := List.replicate (width - ds.length) '0' ++ ds
  let kept := (padded.reverse.dropWhile (· = '0')).reverse
  if kept.isEmpty then [] else '.' :: kept

/-- A count of a unit of `10^width` nanoseconds. -/
def inUnit (nanos width : Nat) (unit : String) : String :=
  let size := Nat.pow 10 width
  String.ofList (Text.decimal (nanos / size) ++ fraction width (nanos % size)) ++ unit

/-- The text of a span. -/
def text (d : Duration) : String :=
  if 1000000000 ≤ d.nanos then inUnit d.nanos 9 "s"
  else if 1000000 ≤ d.nanos then inUnit d.nanos 6 "ms"
  else if 1000 ≤ d.nanos then inUnit d.nanos 3 "µs"
  else inUnit d.nanos 0 "ns"

end Duration

end PeerProbe
