/-! Doubles as signed multiples of powers of two, and the rounding of quotients. -/

namespace ChatLoad

/-- A double taken apart: a finite one is the mantissa times two to the exponent. -/
inductive Double
  | nan
  | infinite (negative : Bool)
  | finite (negative : Bool) (mantissa : Nat) (exponent : Int)
  deriving Repr, DecidableEq

namespace Double

def signBit : Nat := 0x8000000000000000

/-- The mantissas of normal doubles start here; below it are fractions. -/
def leadingBit : Nat := 0x10000000000000

def ofBits (bits : UInt64) : Double :=
  let n : Nat := bits.toNat
  let negative : Bool := signBit ≤ n
  let biased : Nat := n % signBit / leadingBit
  let fraction : Nat := n % leadingBit
  if biased = 2047 then if fraction = 0 then infinite negative else nan
  else if biased = 0 then finite negative fraction (-1074)
  else finite negative (leadingBit + fraction) ((biased : Int) - 1075)

def ofFloat (x : Float) : Double :=
  ofBits x.toBits

def ratio (mantissa : Nat) (exponent : Int) : Nat × Nat :=
  (mantissa * Nat.pow 2 exponent.toNat, Nat.pow 2 (-exponent).toNat)

end Double

/-- Where a quotient halfway between two whole numbers goes. -/
inductive Tie
  | toEven
  | away
  deriving Repr, DecidableEq

def roundDiv (tie : Tie) (num den : Nat) : Nat :=
  let whole := num / den
  let rest := num % den
  if 2 * rest < den then whole
  else if den < 2 * rest then whole + 1
  else
    match tie with
    | .away => whole + 1
    | .toEven => whole + whole % 2

end ChatLoad
