import ChatLoad.Toml.Moment

/-! The values of TOML, and those of them that one word spells: numbers, booleans, dates and times. -/

namespace ChatLoad.Toml

/-- How a table came about, which decides who may still add to it. -/
inductive Origin
  /-- on the way to the table of a header -/
  | implied
  /-- by a header of its own -/
  | header
  /-- by a dotted key -/
  | dotted
  deriving Repr, DecidableEq

inductive Value
  | string (text : String)
  | integer (n : Int)
  | float (x : Float)
  | boolean (b : Bool)
  | moment (text : String)
  | array (items : List Value)
  | inlineTable (entries : List (String × Value))
  | table (origin : Origin) (entries : List (String × Value))
  /-- the tables of headers in double brackets -/
  | tables (elements : List (List (String × Value)))
  deriving Repr

abbrev Entries := List (String × Value)

/-! ### Numbers -/

/-- The digits of a number, where single underscores may stand between digits. -/
def underscored? (isDigit : Char → Bool) : List Char → Option (List Char)
  | [] => none
  | [c] => if isDigit c then some [c] else none
  | c :: '_' :: rest => if isDigit c then (underscored? isDigit rest).map (c :: ·) else none
  | c :: rest => if isDigit c then (underscored? isDigit rest).map (c :: ·) else none

/-- Decimal digits without a needless zero in front. -/
def wholeDigits? (word : List Char) : Option (List Char) := do
  let digits ← underscored? isDigit word
  if digits.head? = some '0' ∧ digits.length ≠ 1 then none else some digits

def splitSign : List Char → Bool × List Char
  | '-' :: rest => (true, rest)
  | '+' :: rest => (false, rest)
  | word => (false, word)

def minInteger : Int := -0x8000000000000000
def maxInteger : Int := 0x7FFFFFFFFFFFFFFF

def isIn (base : Nat) (c : Char) : Bool :=
  match digitValue? c with
  | some d => d < base
  | none => false

/-- An integer in base 16, 8 or 2 has no sign. -/
def unsigned? (word : List Char) : Option Nat :=
  let inBase (base : Nat) (word : List Char) := do
    number? base (← underscored? (isIn base) word)
  match word with
  | '0' :: 'x' :: digits => inBase 16 digits
  | '0' :: 'o' :: digits => inBase 8 digits
  | '0' :: 'b' :: digits => inBase 2 digits
  | _ => none

def integer? (word : List Char) : Option Int := do
  let n : Int ← match unsigned? word with
    | some n => some (n : Int)
    | none => do
        let (negative, body) := splitSign word
        let n ← number? 10 (← wholeDigits? body)
        some (if negative then -(n : Int) else n)
  if minInteger ≤ n ∧ n ≤ maxInteger then some n else none

/-- The double nearest to `digits * 10 ^ exponent`; one beyond the largest double is refused. -/
def double? (digits : List Char) (exponent : Int) : Option Float := do
  let n ← number? 10 digits
  let magnitude := (digits.length : Int) + exponent
  if n = 0 ∨ magnitude < -400 then some 0.0
  else if 400 + (digits.length : Int) < magnitude then none
  else
    let x := Float.ofScientific n (decide (exponent < 0)) exponent.natAbs
    if x.isInf then none else some x

/-- The exponent of a float, nothing if there is none. -/
def exponent? : List Char → Option Int
  | [] => some 0
  | mark :: rest => do
      let (negative, body) := splitSign rest
      let n ← number? 10 (← underscored? isDigit body)
      if mark == 'e' || mark == 'E' then some (if negative then -(n : Int) else n) else none

def isNumeral (c : Char) : Bool :=
  isDigit c || c == '_'

/-- A float has a fraction or an exponent. -/
def finite? (body : List Char) : Option Float := do
  let whole ← wholeDigits? (body.takeWhile isNumeral)
  match body.dropWhile isNumeral with
  | '.' :: rest =>
      let places ← underscored? isDigit (rest.takeWhile isNumeral)
      let exponent ← exponent? (rest.dropWhile isNumeral)
      double? (whole ++ places) (exponent - places.length)
  | [] => none
  | rest => double? whole (← exponent? rest)

def float? (word : List Char) : Option Float := do
  let (negative, body) := splitSign word
  let x ← if body = "inf".toList then some (1.0 / 0.0)
    else if body = "nan".toList then some (0.0 / 0.0)
    else finite? body
  some (if negative then -x else x)

/-! ### Words -/

def word? (word : List Char) : Option Value :=
  if word = "true".toList then some (.boolean true)
  else if word = "false".toList then some (.boolean false)
  else
    match integer? word with
    | some n => some (.integer n)
    | none =>
        match float? word with
        | some x => some (.float x)
        | none => (moment? word).map .moment

def isWordChar (c : Char) : Bool :=
  isDigit c || isLetter c || c == '_' || c == '-' || c == '+' || c == '.' || c == ':'

/-- A word; a time may follow its date behind one blank. -/
def word : Parser Value := fun text =>
  let front := text.takeWhile isWordChar
  let rest := text.dropWhile isWordChar
  match rest with
  | ' ' :: later =>
      if (date front).isSome && (hourMinute later).isSome then
        let back := later.takeWhile isWordChar
        (word? (front ++ ' ' :: back)).map (·, later.dropWhile isWordChar)
      else (word? front).map (·, rest)
  | _ => (word? front).map (·, rest)

end ChatLoad.Toml
