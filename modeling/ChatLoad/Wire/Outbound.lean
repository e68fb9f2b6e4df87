import ChatLoad.Wire.Bytes

/-! Writing a frame to a channel that may take only part of what it is offered. -/

namespace ChatLoad

inductive Allowance
  | upTo (count : Nat)
  | refuse
  deriving Repr, DecidableEq

/-- A channel and what has been done with it. Calls beyond the listed ones take everything. -/
structure Channel where
  allowances : List Allowance := []
  flushFails : Bool := false
  written : Bytes := []
  writes : Nat := 0
  flushes : Nat := 0
  deriving Repr, DecidableEq

inductive SendError
  | writeZero
  | writeRefused
  | flushRefused
  deriving Repr, DecidableEq

namespace SendError

def message : SendError → String
  | writeZero => "write zero"
  | writeRefused => "write refused"
  | flushRefused => "flush refused"

end SendError

namespace Channel

/-- Writes until nothing is left or a call takes nothing. -/
def writeAll (bytes : Bytes) (channel : Channel) : Except SendError Unit × Channel :=
  go bytes channel.allowances channel.written channel.writes
where
  go (bytes : Bytes) (allowances : List Allowance) (written : Bytes) (writes : Nat) :
      Except SendError Unit × Channel :=
    let left (allowances : List Allowance) (written : Bytes) (writes : Nat) : Channel :=
      { channel with allowances, written, writes }
    if bytes.isEmpty then (.ok (), left allowances written writes)
    else
      match allowances with
      | [] => (.ok (), left [] (written ++ bytes) (writes + 1))
      | .refuse :: later => (.error .writeRefused, left later written (writes + 1))
      | .upTo 0 :: later => (.error .writeZero, left later written (writes + 1))
      | .upTo count :: later =>
          go (bytes.drop count) later (written ++ bytes.take count) (writes + 1)

def flush (channel : Channel) : Except SendError Unit × Channel :=
  (if channel.flushFails then .error .flushRefused else .ok (),
    { channel with flushes := channel.flushes + 1 })

/-- Writes one frame whole and flushes; a frame that fails is not flushed. -/
def send (frame : Bytes) (channel : Channel) : Except SendError Unit × Channel :=
  match channel.writeAll frame with
  | (.ok (), channel) => channel.flush
  | failed => failed

end Channel

end ChatLoad
