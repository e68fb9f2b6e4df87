import ChatLoad.Decimal.Notation

/-! Spans of time, and moments counted from the start of a run, in whole nanoseconds. -/

namespace ChatLoad

abbrev Duration := Nat

namespace Duration

def ofMillis (ms : Nat) : Duration :=
  ms * 1000000

def ofSecs (secs : Nat) : Duration :=
  secs * 1000000000

/-- Whole seconds, and the nanoseconds beyond as a fraction of a second. -/
def toSecs (d : Duration) : Float :=
  (d / 1000000000).toUInt64.toFloat + (d % 1000000000).toUInt64.toFloat / 1000000000.0

/-- The span in the largest of the units s, ms, µs and ns that it reaches, without zeros at the end
of the fraction. -/
def text (d : Duration) : String :=
  let inUnit (places : Nat) (unit : String) : String :=
    (Decimal.trimmed ⟨d, -(places : Int)⟩).positional ++ unit
  if 1000000000 ≤ d then inUnit 9 "s"
  else if 1000000 ≤ d then inUnit 6 "ms"
  else if 1000 ≤ d then inUnit 3 "µs"
  else inUnit 0 "ns"

end Duration

end ChatLoad
