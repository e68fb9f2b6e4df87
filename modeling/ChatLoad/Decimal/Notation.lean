import ChatLoad.Decimal.Shortest

/-! How doubles are written: with a fixed number of places, as the shortest decimal in positional
notation, or as that decimal in the notation of JSON. -/

namespace ChatLoad.Decimal

def sign (negative : Bool) : String :=
  if negative then "-" else ""

/-- A whole number of `10 ^ -places`, written with that many places. -/
def placed (places n : Nat) : String :=
  let digits := Nat.toDigits 10 n
  let digits := List.replicate (places + 1 - digits.length) '0' ++ digits
  let (whole, rest) := digits.splitAt (digits.length - places)
  String.ofList (if places = 0 then whole else whole ++ '.' :: rest)

/-- Rounds the exact value to the given number of places, halves to the even neighbour. -/
def fixed (places : Nat) (x : Float) : String :=
  match Double.ofFloat x with
  | .nan => "NaN"
  | .infinite negative => sign negative ++ "inf"
  | .finite negative mantissa exponent =>
      let (num, den) := Double.ratio mantissa exponent
      sign negative ++ placed places (roundDiv .toEven (num * Nat.pow 10 places) den)

/-- A decimal written out, without an exponent and without needless zeros. -/
def positional (d : Decimal) : String :=
  placed (-d.exponent).toNat (d.digits * Nat.pow 10 d.exponent.toNat)

/-- The decimal without zeros at its end, zero itself excepted. -/
def trimmed (d : Decimal) : Decimal :=
  let digits := Nat.toDigits 10 d.digits
  let zeros := (digits.reverse.takeWhile (· == '0')).length
  if d.digits = 0 then d else ⟨d.digits / Nat.pow 10 zeros, d.exponent + zeros⟩

/-- The shortest decimal in positional notation, of two equally near the one away from zero. -/
def plain (x : Float) : String :=
  match Double.ofFloat x with
  | .nan => "NaN"
  | .infinite negative => sign negative ++ "inf"
  | .finite negative mantissa exponent =>
      sign negative ++ (shortest .away mantissa exponent).trimmed.positional

/-- The shortest decimal as a number of JSON, of two equally near the even one: from `10 ^ -5` up to
`10 ^ 16` with at least one place, else with a signed exponent. What is not finite is `null`. -/
def json (x : Float) : String :=
  match Double.ofFloat x with
  | .nan => "null"
  | .infinite _ => "null"
  | .finite negative mantissa exponent =>
      let d := (shortest .toEven mantissa exponent).trimmed
      let magnitude := d.exponent + (width d.digits : Int)
      let text :=
        if mantissa = 0 ∨ (-5 < magnitude ∧ magnitude ≤ 16) then
          if d.exponent < 0 then d.positional else d.positional ++ ".0"
        else
          let power := magnitude - 1
          let head := placed (width d.digits - 1) d.digits
          head ++ "e" ++ (if power < 0 then "-" else "+") ++ toString power.natAbs
      sign negative ++ text

end ChatLoad.Decimal
