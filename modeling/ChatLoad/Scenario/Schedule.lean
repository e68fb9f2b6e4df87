import ChatLoad.Duration

/-! The schedule of the stress workload. Every active client has a lane in which it sends at a fixed
gap; the lanes start one after the other, so that the clients take turns at the target rate. -/

namespace ChatLoad

/-- The gap between two messages of a lane, in whole nanoseconds. -/
def laneGap? (active rate : Nat) : Option Duration :=
  if active = 0 ∨ rate = 0 then none
  else
    match Double.ofFloat (active.toUInt64.toFloat / rate.toUInt64.toFloat) with
    | .finite _ mantissa exponent =>
        let (num, den) := Double.ratio mantissa exponent
        some (roundDiv .toEven (num * 1000000000) den)
    | _ => none

structure Schedule where
  lanes : Nat
  gap : Duration
  duration : Duration
  deriving Repr, DecidableEq

namespace Schedule

def step (s : Schedule) : Duration :=
  s.gap / s.lanes

/-- When the k-th message of a lane is due, counted from the start of the run. -/
def offset (s : Schedule) (lane k : Nat) : Duration :=
  s.step * lane + s.gap * k

def number (s : Schedule) (lane k : Nat) : Nat :=
  k * s.lanes + lane

/-- How many numbers the message counter of a lane has. -/
def counterSize : Nat := UInt32.size

/-- How many messages of a lane are due before the run is over. There is no end to them without a
gap, nor once the counter starts over. -/
def count? (s : Schedule) (lane : Nat) : Option Nat :=
  let first := s.step * lane
  if s.duration ≤ first then some 0
  else if s.gap = 0 then none
  else
    let count := (s.duration - 1 - first) / s.gap + 1
    if count < counterSize then some count else none

end Schedule

end ChatLoad
