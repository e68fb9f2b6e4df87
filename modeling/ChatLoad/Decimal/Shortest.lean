import ChatLoad.Decimal.Double

/-! The shortest decimal that reads back as a given double, and of those the nearest. The reals that
round to a double form an interval, closed if the mantissa is even. Its decimals with `k` digits
include one of the two that enclose the double, so it is enough to test these for growing `k`. Which
of two that are equally near is taken depends on the notation. -/

namespace ChatLoad

structure Decimal where
  digits : Nat
  exponent : Int
  deriving Repr, DecidableEq

namespace Decimal

/-- How many digits a number has; zero has one. -/
def width (n : Nat) : Nat :=
  (Nat.toDigits 10 n).length

/-- The reals that round to a double, and the double itself, as multiples of `1 / unit`. -/
structure Interval where
  low : Nat
  mid : Nat
  high : Nat
  unit : Nat
  closed : Bool

def Interval.of (mantissa : Nat) (exponent : Int) : Interval :=
  -- below a power of two the doubles lie twice as close
  let below := if mantissa = Double.leadingBit ∧ -1074 < exponent then 1 else 2
  let scale := Nat.pow 2 (exponent - 2).toNat
  { low := (4 * mantissa - below) * scale
    mid := 4 * mantissa * scale
    high := (4 * mantissa + 2) * scale
    unit := Nat.pow 2 (2 - exponent).toNat
    closed := mantissa % 2 = 0 }

namespace Interval

/-- The power of ten above the double. -/
def magnitude (i : Interval) : Int :=
  if i.unit ≤ i.mid then width (i.mid / i.unit) else 1 - (width ((i.unit - 1) / i.mid) : Int)

/-- A decimal over the unit of the interval, with the factor that makes it whole. -/
def scaled (i : Interval) (d : Decimal) : Nat × Nat :=
  (d.digits * Nat.pow 10 d.exponent.toNat * i.unit, Nat.pow 10 (-d.exponent).toNat)

def contains (i : Interval) (d : Decimal) : Bool :=
  let (n, factor) := i.scaled d
  if i.closed then decide (i.low * factor ≤ n ∧ n ≤ i.high * factor)
  else decide (i.low * factor < n ∧ n < i.high * factor)

/-- The distance between a decimal and the double, times a factor that depends on the exponent of
the decimal alone. -/
def distance (i : Interval) (d : Decimal) : Nat :=
  let (n, factor) := i.scaled d
  (n - i.mid * factor) + (i.mid * factor - n)

def goesUp (i : Interval) (tie : Tie) (floor ceiling : Decimal) : Bool :=
  let up := i.distance ceiling
  let down := i.distance floor
  match tie with
  | .away => up ≤ down
  | .toEven => up < down || (up = down && floor.digits % 2 = 1)

/-- The decimal of `k` digits that lies in the interval and nearest to the double. -/
def decimal? (i : Interval) (tie : Tie) (k : Nat) : Option Decimal :=
  let exponent := i.magnitude - k
  let below := i.mid * Nat.pow 10 (-exponent).toNat / (i.unit * Nat.pow 10 exponent.toNat)
  let floor : Decimal := ⟨below, exponent⟩
  let ceiling : Decimal := ⟨below + 1, exponent⟩
  match i.contains floor, i.contains ceiling with
  | true, true => some (if i.goesUp tie floor ceiling then ceiling else floor)
  | true, false => some floor
  | false, true => some ceiling
  | false, false => none

end Interval

/-- Seventeen digits tell all doubles apart. -/
def maxDigits : Nat := 17

def shortest (tie : Tie) (mantissa : Nat) (exponent : Int) : Decimal :=
  if mantissa = 0 then ⟨0, 0⟩
  else
    let i := Interval.of mantissa exponent
    ((List.range maxDigits).findSome? fun k => i.decimal? tie (k + 1)).getD ⟨0, 0⟩

end Decimal

end ChatLoad
