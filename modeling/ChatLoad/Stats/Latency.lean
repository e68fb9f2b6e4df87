import ChatLoad.Duration

/-! The distribution of latency samples. Samples are put in the total order of doubles, -0.0 before
0.0 and NaN at the end that its sign says, and percentiles are nearest-rank, without interpolation. -/

namespace ChatLoad

namespace Latency

/-- What samples may be: doubles, placed by their bits and added up as numbers. -/
class Sample (α : Type) where
  bits : α → UInt64
  toFloat : α → Float
  ofFloat : Float → α

/-- Doubles are kept as their bits, since `Float` has but one NaN: no sign and no payload. -/
instance : Sample UInt64 := ⟨id, Float.ofBits, Float.toBits⟩

/-- The place of a pattern of 64 bits in the total order, a number or not. -/
def place (bits : UInt64) : Int :=
  let size : Int := (bits.toNat % Double.signBit : Nat)
  if bits.toNat < Double.signBit then size else -1 - size

variable {α : Type} [Sample α]

/-- The place of a double in the total order. -/
def rank (x : α) : Int :=
  place (Sample.bits x)

def sort (samples : List α) : List α :=
  samples.mergeSort fun a b => decide (rank a ≤ rank b)

/-- The position of a percentile among `n` samples; it saturates at both ends. -/
def position (p : Float) (n : Nat) : Nat :=
  min (p * n.toUInt64.toFloat).floor.toUInt64.toNat (n - 1)

/-- The sample at `floor (p * n)`, or at the last place. -/
def nearestRank? {α : Type} (sorted : List α) (p : Float) : Option α :=
  sorted[position p sorted.length]?

/-- The sum from the left; starting from -0.0 changes no sum. -/
def sum (samples : List Float) : Float :=
  samples.foldl (· + ·) (-0.0)

def mean (samples : List α) : α :=
  Sample.ofFloat (sum (samples.map Sample.toFloat) / samples.length.toUInt64.toFloat)

/-- Half the sum of two samples. -/
def halfSum (low high : α) : α :=
  Sample.ofFloat ((Sample.toFloat low + Sample.toFloat high) / 2.0)

/-- The middle sample, or half the sum of the two in the middle. -/
def median? (sorted : List α) : Option α :=
  let n := sorted.length
  if n % 2 = 1 then sorted[n / 2]?
  else do return halfSum (← sorted[n / 2 - 1]?) (← sorted[n / 2]?)

structure SummaryOf (α : Type) where
  samples : Nat
  min : α
  max : α
  mean : α
  median : α
  p95 : α
  p99 : α
  deriving Repr

abbrev Summary := SummaryOf UInt64

def summary? (samples : List α) : Option (SummaryOf α) := do
  let sorted := sort samples
  return {
    samples := sorted.length
    min := ← sorted.head?
    max := ← sorted.getLast?
    mean := mean sorted
    median := ← median? sorted
    p95 := ← nearestRank? sorted 0.95
    p99 := ← nearestRank? sorted 0.99 }

end Latency

end ChatLoad
